import TreeDump.Scan.Walker

/-!
A walker over an endless tree: every directory holds one directory `again` and
one file `data` of one byte. Only the scan's limits and its recognition of
repeated listings end a scan of it. The walker remembers the deepest level it
reached.
-/

namespace TreeDump

/-- How deep the endless walker stands, and the deepest it has been. -/
structure LoopWalk where
  depth : Nat := 0
  deepest : Nat := 0
deriving DecidableEq, Repr

/-- The walker over the endless tree. -/
def loopWalker : Walker LoopWalk where
  list w n := (w, [.dir "again", .file "data" 1].take n)
  enter w _ := some { depth := w.depth + 1, deepest := max w.deepest (w.depth + 1) }
  leave w := if w.depth = 0 then .error "already at root" else .ok { w with depth := w.depth - 1 }

end TreeDump
