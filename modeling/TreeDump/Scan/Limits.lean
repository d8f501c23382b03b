/-!
Limits of a scan.

A scan reads at most `maxDirs` directories, counted by their place in the order
of ids; at most `maxItems` children of each directory; and it stops descending
where a chain of directories repeats the listings above it for
`recursionThreshold` children.
-/

namespace TreeDump

/-- The limits of a scan. -/
structure Limits where
  maxDirs : Nat := Nat.pow 2 20
  maxItems : Nat := Nat.pow 2 18
  recursionThreshold : Nat := 5
deriving DecidableEq, Repr

end TreeDump
