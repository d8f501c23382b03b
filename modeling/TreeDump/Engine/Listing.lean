import TreeDump.Engine.Walk

/-!
Printing a tree held in memory as its full listing.

The listing policy writes the root as `path size` on entering it, and on entering
every directory, the root included, one line for each of its children: `path/ size`
for each child directory, then `path size` for each file. It drops the files it has
written, and on leaving a directory its child directories, so the tree is consumed as
it is printed.
-/

namespace TreeDump

/-- Writes the lines of the current directory's children, directories first, and drops
its files. -/
def Cursor.printChildren (cx : Cursor) (out : List String) : DirEntry × List String :=
  ({ cx.current with files := [] },
    out ++ cx.current.dirs.map (fun d => cx.childPath d.name ++ "/ " ++ toString d.size) ++
      cx.current.files.map (fun f => cx.childPath f.name ++ " " ++ toString f.size))

/-- The listing policy; its state is the lines written so far. -/
def listingHooks : Hooks (List String) where
  enterRoot cx out := cx.printChildren (out ++ [cx.path ++ " " ++ toString cx.current.size])
  enter cx out := cx.printChildren out
  leave cx out := ({ cx.current with dirs := [] }, out)
  leaveRoot cx out := ({ cx.current with dirs := [] }, out)
  enterRoot_kept _ _ := ⟨rfl, rfl, rfl⟩
  enter_kept _ _ := ⟨rfl, rfl, rfl⟩

/-- The full listing of a tree, each line ended by a line break. -/
def printListing (root : DirEntry) : String :=
  String.join ((listingHooks.walk (Cursor.new root) []).2.map (·.push '\n'))

end TreeDump
