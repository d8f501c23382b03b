import TreeDump.Word
import TreeDump.Entry.Basic
import TreeDump.Fingerprint.Listing

/-!
Putting a listing in order.

A freshly read listing is sorted by name (byte order, ties keeping their listed
order), directories and files apart. Directories then take positions `0, 1, …`
and fresh ids from an `IdSupply`, in that order; files take the positions after
the directories. The directory's `items` is the number of its children.

An `IdSupply` hands out ids upward from its `next`; handing out the largest
32-bit value, or starting after it, is an overflow.
-/

namespace TreeDump

/-- The supply of fresh directory ids: the next id it hands out. -/
structure IdSupply where
  next : Nat
deriving DecidableEq, Repr

namespace IdSupply

/-- The supply of a new inventory: the first id after the root's. -/
def fresh : IdSupply := ⟨rootId + 1⟩

/-- The supply that continues after the ids up to `maxId` (and after the root). -/
def after (maxId : Nat) : Except Overflow IdSupply :=
  (addWithin idRange (max maxId rootId) 1).map IdSupply.mk

/-- Hands out the next id. -/
def take (s : IdSupply) : Except Overflow (Nat × IdSupply) :=
  (addWithin idRange s.next 1).map fun next => (s.next, ⟨next⟩)

end IdSupply

/-- The order of a listing: by name, byte by byte. -/
def DirEntry.nameLe (a b : DirEntry) : Bool := decide (a.name ≤ b.name)

/-- The order of a listing: by name, byte by byte. -/
def FileEntry.nameLe (a b : FileEntry) : Bool := decide (a.name ≤ b.name)

/-- Gives the directories positions from `fid` on and fresh ids, in order. -/
def numberDirs : List DirEntry → Nat → IdSupply → Except Overflow (List DirEntry × IdSupply)
  | [], _, ids => .ok ([], ids)
  | d :: ds, fid, ids => do
    let (id, ids) ← ids.take
    let (rest, ids) ← numberDirs ds (fid + 1) ids
    pure ({ d with fid := fid % idRange, id } :: rest, ids)

/-- Gives the files positions from `fid` on, in order. -/
def numberFiles : List FileEntry → Nat → List FileEntry
  | [], _ => []
  | f :: fs, fid => { f with fid := fid % idRange } :: numberFiles fs (fid + 1)

/-- Sorts a directory's children by name and numbers them: positions for all,
fresh ids for the directories, and the count of children as `items`. -/
def DirEntry.orderChildren (d : DirEntry) (ids : IdSupply) :
    Except Overflow (DirEntry × IdSupply) := do
  let (dirs, ids) ← numberDirs (d.dirs.mergeSort DirEntry.nameLe) 0 ids
  let files := numberFiles (d.files.mergeSort FileEntry.nameLe) dirs.length
  pure ({ d with dirs, files, items := (dirs.length + files.length) % idRange }, ids)

/-- The fingerprint of a directory's listing as it stands. -/
def DirEntry.childDigest (d : DirEntry) : Md5.Digest :=
  Md5.listingDigest d.listing

end TreeDump
