import TreeDump.Wire.Line

/-!
Documents of the wire format: sequences of lines.

A document's text is each line's text followed by a line break. Its counts tell
how many of its lines are unmarked, added, removed and changed.
-/

namespace TreeDump.Wire

/-- How many lines of a document carry each marker. -/
structure LineCounts where
  plain : Nat := 0
  added : Nat := 0
  removed : Nat := 0
  changed : Nat := 0
deriving DecidableEq, Repr

/-- Counts one more line with the given marker. -/
def LineCounts.count (c : LineCounts) : Option Marker → LineCounts
  | none => { c with plain := c.plain + 1 }
  | some .added => { c with added := c.added + 1 }
  | some .removed => { c with removed := c.removed + 1 }
  | some .changed => { c with changed := c.changed + 1 }

/-- The counts of a document's lines. -/
def LineCounts.ofLines (lines : List Line) : LineCounts :=
  lines.foldl (fun c line => c.count line.marker) {}

/-- The text of a document: every line followed by a line break. -/
def text (lines : List Line) : String :=
  String.join (lines.map fun line => line.render.push '\n')

end TreeDump.Wire
