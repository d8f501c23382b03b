import TreeDump.Entry.Basic
import TreeDump.Wire.Line

/-!
The full listing of a tree: one line per entry with its path and size.

The root comes first as `path size`. Then, for every directory in depth-first
order, its children: each child directory as `path/ size`, then each file as
`path size`.
-/

namespace TreeDump

open Wire

/-- The listing lines of everything inside a directory found at `path`. -/
def DirEntry.listingInside (path : String) : DirEntry → List String
  | ⟨name, _, _, _, _, _, dirs, files⟩ =>
    dirs.map (fun c => childPath path name c.name ++ "/ " ++ toString c.size) ++
      files.map (fun f => childPath path name f.name ++ " " ++ toString f.size) ++
      dirs.flatMap (fun c => DirEntry.listingInside (childPath path name c.name) c)

/-- The full listing of a tree rooted at a path equal to its name. -/
def DirEntry.listingText (d : DirEntry) : String :=
  String.join (((d.name ++ " " ++ toString d.size) :: d.listingInside d.name).map (·.push '\n'))

end TreeDump
