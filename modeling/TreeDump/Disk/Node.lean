/-!
Directory trees on a disk.

A disk is a tree of nodes. A directory holds named children in the order a
listing gives them, a file holds its bytes, a symbolic link holds the path
text it points to, and a device such as `/dev/null` reads as no bytes but is
neither a file nor a directory. A jump is a link that the system resolves to a
directory itself rather than through a path text, as `/proc/self/cwd` leads to
the working directory whatever its name. Names are byte strings: a disk does not require them to be
text, and a walker decides what to do with those that are not.

A place on a disk is the list of directory names from the top down to a
directory; `[]` is the top itself.

Owns:
- nodes, file contents and places;
- the faults that looking something up on a disk can meet, and their texts.

Does not own: following paths and links (`Disk.Lookup`), or walking.
-/

namespace TreeDump.Disk

/-- The bytes of a file. A file of filler holds `length` copies of the byte `x`,
so that large files need no byte list. -/
inductive Contents where
  | filler (length : Nat)
  | bytes (data : List UInt8)
deriving DecidableEq, Repr

namespace Contents

/-- The byte that fills a file of filler. -/
def fillerByte : UInt8 := 120

/-- The number of bytes of a file. -/
def size : Contents → Nat
  | .filler length => length
  | .bytes data => data.length

/-- The bytes of a file. -/
def data : Contents → List UInt8
  | .filler length => List.replicate length fillerByte
  | .bytes data => data

end Contents

/-- A node of a disk. -/
inductive Node where
  | dir (children : List (List UInt8 × Node))
  | file (contents : Contents)
  | link (target : String)
  | device
  | jump (place : List (List UInt8))
deriving Repr

/-- The directory names from the top of a disk down to a directory. -/
abbrev Place := List (List UInt8)

namespace Node

/-- The first child of a directory with the given name. -/
def child? (name : List UInt8) : Node → Option Node
  | .dir children => (children.find? (·.1 == name)).map (·.2)
  | _ => none

/-- The node at a place below this one, following directory names only. -/
def follow : Node → Place → Option Node
  | node, [] => some node
  | node, name :: rest => (node.child? name).bind (follow · rest)

/-- The children of a directory, in listing order; other nodes have none. -/
def children : Node → List (List UInt8 × Node)
  | .dir children => children
  | _ => []

end Node

/-- Why looking something up on a disk failed. -/
inductive DiskError where
  /-- A name on the way does not exist. -/
  | notFound
  /-- A name on the way is a file where a directory is needed. -/
  | notDirectory
  /-- A directory was opened where a file's bytes are needed. -/
  | isDirectory
  /-- More symbolic links than `linkLimit` were followed in one lookup. -/
  | tooManyLinks
  /-- A path longer than `pathLimit` bytes, or a name longer than `nameLimit`. -/
  | nameTooLong
deriving DecidableEq, Repr

/-- The text of a disk error, with the system's error number. -/
def DiskError.message : DiskError → String
  | .notFound => "No such file or directory (os error 2)"
  | .notDirectory => "Not a directory (os error 20)"
  | .isDirectory => "Is a directory (os error 21)"
  | .tooManyLinks => "Too many levels of symbolic links (os error 40)"
  | .nameTooLong => "File name too long (os error 36)"

/-- Whether a disk error says that the thing looked up does not exist. -/
def DiskError.isNotFound : DiskError → Bool
  | .notFound => true
  | _ => false

end TreeDump.Disk
