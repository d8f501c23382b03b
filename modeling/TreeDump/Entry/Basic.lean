import TreeDump.Fingerprint.Md5

/-!
Entries of an inventory.

A directory entry carries its name, its size (the bytes of all files below it),
its id, its position `fid` among its parent's children, the number `items` of
its own children, the fingerprint of its listing once it has been read, and its
child directories and files. A file entry carries its name, size and position.

Ids are positive; id `1` belongs to the root, and `0` marks "no directory" in a
record.
-/

namespace TreeDump

/-- A file below a directory: its name, its size in bytes and its position among
its directory's children. -/
structure FileEntry where
  name : String
  size : Nat := 0
  fid : Nat := 0
deriving DecidableEq, Repr

/-- A directory with everything known about it: size, id, position, number of
children, listing fingerprint, and its child directories and files. -/
structure DirEntry where
  name : String
  size : Nat := 0
  id : Nat := 0
  fid : Nat := 0
  items : Nat := 0
  digest : Option Md5.Digest := none
  dirs : List DirEntry := []
  files : List FileEntry := []
deriving Repr

/-- The id of the root directory of every inventory. -/
def rootId : Nat := 1

/-- A root directory of the given name that nothing is known about yet. -/
def DirEntry.root (name : String) : DirEntry := { name, id := rootId }

/-- The names and sizes of a directory's children, directories first: the listing
that its fingerprint covers. -/
def DirEntry.listing (d : DirEntry) : List (String × Nat) :=
  d.dirs.map (fun c => (c.name, c.size)) ++ d.files.map (fun f => (f.name, f.size))

end TreeDump
