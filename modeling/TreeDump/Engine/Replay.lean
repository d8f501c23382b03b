import TreeDump.Engine.Walk
import TreeDump.Entry.Replay

/-!
Writing a tree held in memory as wire lines, by the walk.

The replay policy writes, for a tree it already holds, what a scan writes as it goes:
the root's declaration on entering it; on entering every directory, the root included,
the declarations of its child directories and the entries of its files, which it then
drops; on leaving every directory, the entries of its child directories, which it then
drops; and last the root's own entry under the directory the walk was given. Every line
carries the same marker, so the tree is consumed as it is written.
-/

namespace TreeDump

open Wire

/-- Writes the declarations of the current directory's child directories and the
entries of its files, and drops the files. -/
def Cursor.openCurrent (marker : Option Marker) (cx : Cursor) (out : List Line) :
    DirEntry × List Line :=
  ({ cx.current with files := [] }, out ++ cx.current.openingLines marker cx.path)

/-- Writes the entries of the current directory's child directories, and drops them. -/
def Cursor.closeCurrent (marker : Option Marker) (cx : Cursor) (out : List Line) :
    DirEntry × List Line :=
  ({ cx.current with dirs := [] }, out ++ cx.current.closingLines marker)

/-- The replay policy; its state is the lines written so far. -/
def replayHooks (marker : Option Marker) : Hooks (List Line) where
  enterRoot cx out := cx.openCurrent marker (out ++ [cx.current.declaration marker cx.path])
  enter cx out := cx.openCurrent marker out
  leave cx out := cx.closeCurrent marker out
  leaveRoot cx out :=
    let closed := cx.closeCurrent marker out
    (closed.1, closed.2 ++ [cx.current.entryLine marker cx.rootParent])
  enterRoot_kept _ _ := ⟨rfl, rfl, rfl⟩
  enter_kept _ _ := ⟨rfl, rfl, rfl⟩

end TreeDump
