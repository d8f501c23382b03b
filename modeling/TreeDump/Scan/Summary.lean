import TreeDump.Word
import TreeDump.Json
import TreeDump.Scan.Stats

/-!
Summaries of a scan's statistics, as text for a person and as JSON.

Counts in the text are grouped in threes by commas. A size is also shown in the
largest binary unit it reaches (K, M, G, T for 1024 to 1024 ^ 4 bytes) with one
decimal: the byte count is first taken to the nearest double (53 significant
bits, ties to even) and the quotient is then rounded to one decimal, ties to even.
The lines on truncated, pruned and skipped directories appear only when one of
them is nonzero, and the line on the patch only for a diff.
-/

namespace TreeDump

/-- The decimal digits of `n` grouped in threes by commas. -/
def groupThousands (n : Nat) : String :=
  let digits := (toString n).toList
  let rec group : List Char → List Char
    | [] => []
    | c :: cs => if cs.length % 3 == 0 && !cs.isEmpty then c :: ',' :: group cs else c :: group cs
  String.ofList (group digits)

/-- The quotient `num / den` rounded to the nearest integer, ties to even. -/
def roundHalfEven (num den : Nat) : Nat :=
  let q := num / den
  let r := num % den
  if den < 2 * r || (2 * r == den && q % 2 == 1) then q + 1 else q

/-- The nearest number with at most 53 significant bits, ties to even: the value
of `n` as a double. -/
def nearestDouble (n : Nat) : Nat :=
  if n < Nat.pow 2 53 then n
  else
    let shift := Nat.log2 n - 52
    roundHalfEven n (Nat.pow 2 shift) * Nat.pow 2 shift

/-- The quotient `num / den` with one decimal, rounded half to even. -/
def oneDecimal (num den : Nat) : String :=
  let tenths := roundHalfEven (10 * num) den
  toString (tenths / 10) ++ "." ++ toString (tenths % 10)

/-- A byte count in the largest binary unit it reaches. -/
def formatSize (bytes : Nat) : String :=
  let kb := 1024
  if Nat.pow kb 4 ≤ bytes then oneDecimal (nearestDouble bytes) (Nat.pow kb 4) ++ "T"
  else if Nat.pow kb 3 ≤ bytes then oneDecimal (nearestDouble bytes) (Nat.pow kb 3) ++ "G"
  else if Nat.pow kb 2 ≤ bytes then oneDecimal (nearestDouble bytes) (Nat.pow kb 2) ++ "M"
  else if kb ≤ bytes then oneDecimal (nearestDouble bytes) kb ++ "K"
  else toString bytes ++ "B"

namespace WalkStats

/-- The summary text, one line per count. Adding up the truncated, pruned and
skipped counts can overflow. -/
def summary (s : WalkStats) : Except Overflow String := do
  let incomplete ← addWithin sizeRange s.truncated s.pruned
  let incomplete ← addWithin sizeRange incomplete s.skipped
  let base :=
    "Directories:  " ++ groupThousands s.directories ++ "\n" ++
    "Files:        " ++ groupThousands s.files ++ "\n" ++
    "Size:         " ++ formatSize s.bytes ++ " (" ++ groupThousands s.bytes ++ " bytes)\n"
  let cut :=
    if incomplete > 0 then
      "Truncated:    " ++ toString s.truncated ++ "\n" ++
      "Pruned:       " ++ toString s.pruned ++ "\n" ++
      "Skipped:      " ++ toString s.skipped ++ "\n"
    else ""
  let patch := match s.patch with
    | some c =>
      "Diff:         +" ++ toString c.added ++ " -" ++ toString c.removed ++ " *" ++
        toString c.changed ++ "\n"
    | none => ""
  pure (base ++ cut ++ patch)

/-- The line counts of a patch as a JSON object. -/
def countsJson (c : Wire.LineCounts) : JsonValue :=
  .obj [("plain", .num c.plain), ("added", .num c.added), ("removed", .num c.removed),
    ("changed", .num c.changed)]

/-- The statistics as a JSON object; the patch counts only for a diff. -/
def toJsonValue (s : WalkStats) : JsonValue :=
  .obj ([("directories", .num s.directories), ("files", .num s.files), ("bytes", .num s.bytes),
    ("truncated", .num s.truncated), ("pruned", .num s.pruned), ("skipped", .num s.skipped)] ++
    match s.patch with
    | some c => [("patch", countsJson c)]
    | none => [])

/-- The statistics as pretty JSON text, ending in a line break. -/
def jsonText (s : WalkStats) : String :=
  (s.toJsonValue.pretty 0).push '\n'

end WalkStats

end TreeDump
