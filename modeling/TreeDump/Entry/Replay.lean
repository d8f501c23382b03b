import TreeDump.Entry.Basic
import TreeDump.Wire.Line

/-!
Writing a tree as wire lines.

A tree found at `path` under the directory `parent` is written top-down
declarations first and bottom-up entries last, so that a reader meets every
directory's declaration before anything placed under it and every directory's
own entry after all of its contents:

* `0 id path` declares the tree's root;
* on entering a directory: a declaration `0 id path` for each child directory,
  then an entry `1 d fid size 0 0 name` for each file;
* the child directories, each in the same way;
* on leaving: an entry `1 d fid size id items name` for each child directory;
* last, the root's own entry under `parent`.

Every line can carry the same marker, which is how a patch writes a removed
subtree.
-/

namespace TreeDump

open Wire

/-- The declaration of a directory found at `path`. -/
def DirEntry.declaration (marker : Option Marker) (path : String) (d : DirEntry) : Line :=
  ⟨marker, .directory d.id path⟩

/-- The entry of a directory under the directory `parent`. -/
def DirEntry.entryLine (marker : Option Marker) (parent : Nat) (d : DirEntry) : Line :=
  ⟨marker, .entry parent d.fid d.size d.id d.items d.name⟩

/-- The entry of a file under the directory `parent`. -/
def FileEntry.entryLine (marker : Option Marker) (parent : Nat) (f : FileEntry) : Line :=
  ⟨marker, .entry parent f.fid f.size 0 0 f.name⟩

/-- The lines written on entering a directory found at `path`: the declarations of
its child directories, then the entries of its files. -/
def DirEntry.openingLines (marker : Option Marker) (path : String) (d : DirEntry) : List Line :=
  d.dirs.map (fun c => c.declaration marker (childPath path d.name c.name)) ++
    d.files.map (FileEntry.entryLine marker d.id)

/-- The lines written on leaving a directory: the entries of its child directories. -/
def DirEntry.closingLines (marker : Option Marker) (d : DirEntry) : List Line :=
  d.dirs.map (DirEntry.entryLine marker d.id)

/-- The lines for everything inside a directory found at `path`. -/
def DirEntry.replayInside (marker : Option Marker) (path : String) : DirEntry → List Line
  | ⟨name, _, id, _, _, _, dirs, files⟩ =>
    dirs.map (fun c => c.declaration marker (childPath path name c.name)) ++
      files.map (FileEntry.entryLine marker id) ++
      dirs.flatMap (fun c => DirEntry.replayInside marker (childPath path name c.name) c) ++
      dirs.map (DirEntry.entryLine marker id)

/-- The lines of a whole tree found at `path` under the directory `parent`. -/
def DirEntry.replay (marker : Option Marker) (path : String) (parent : Nat) (d : DirEntry) :
    List Line :=
  d.declaration marker path :: d.replayInside marker path ++ [d.entryLine marker parent]

end TreeDump
