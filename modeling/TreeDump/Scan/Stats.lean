import TreeDump.Wire.Document

/-!
Statistics of a scan.

A scan counts the directories it read, the files they hold and the bytes of those
files; the listings it cut short or left unread (`truncated`), the directories it
recognised as repeats (`pruned`) and the directories it could not enter
(`skipped`). A diff also counts the lines of its patch.
-/

namespace TreeDump

/-- What a scan counted. -/
structure WalkStats where
  directories : Nat := 0
  files : Nat := 0
  bytes : Nat := 0
  truncated : Nat := 0
  pruned : Nat := 0
  skipped : Nat := 0
  patch : Option Wire.LineCounts := none
deriving DecidableEq, Repr

end TreeDump
