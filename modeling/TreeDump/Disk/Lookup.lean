import TreeDump.Disk.Node

/-!
Following paths on a disk.

A path text is cut at every `/` into components. A path that starts with `/`
starts at the top of the disk, any other at a given directory. An empty
component and `.` stay where they are, `..` goes up to the directory that holds
the current one (the top is its own parent), and a name goes down into a
directory of that name. A name that is a file or a device ends the path, or
fails when more components follow. A name that is a symbolic link is replaced by the components
of its target, read from the directory that holds the link, and a jump goes to
its directory; the last component of a path may be left as a link when the
lookup does not follow it.

Going up from a directory reached through a link leads to the directory that
really holds it, not back along the link. At most `linkLimit` links are followed
in one lookup; the next one fails with `tooManyLinks`, which is how a link that
leads back to itself ends.

A path text of `pathLimit` bytes or more names nothing, whatever it holds, and
neither does a name of more than `nameLimit` bytes, in any directory: both fail
with `nameTooLong`. The name is only measured when the lookup reaches it.

Main definition: `Disk.lookup`.
-/

namespace TreeDump.Disk

/-- What a path leads to. -/
inductive Found where
  /-- The directory at a place. -/
  | dir (place : Place)
  /-- A file with its contents. -/
  | file (contents : Contents)
  /-- A link that the lookup did not follow. -/
  | link
  /-- A device. -/
  | device
deriving DecidableEq, Repr

/-- The most symbolic links that one lookup follows. -/
def linkLimit : Nat := 40

/-- The fewest bytes of a path text that is too long to look up. -/
def pathLimit : Nat := 4096

/-- The most bytes of one name. -/
def nameLimit : Nat := 255

/-- The components of a path text. -/
def components (path : String) : List String := path.splitOn "/"

/-- Where a path text starts: the top for an absolute path, else `here`. -/
def startOf (path : String) (here : Place) : Place :=
  if path.startsWith "/" then [] else here

/-- Follows components from the directory at `here`, having followed `links`
links so far. `follow` says whether a link in the last component is followed. -/
def walk (top : Node) (follow : Bool) (links : Nat) (here : Place) :
    List String → Except DiskError Found
  | [] => .ok (.dir here)
  | part :: rest =>
    if part = "" ∨ part = "." then walk top follow links here rest
    else if part = ".." then walk top follow links here.dropLast rest
    else
      let name := part.toUTF8.toList
      if nameLimit < name.length then .error .nameTooLong
      else
        match (top.follow here).bind (Node.child? name) with
        | none => .error .notFound
        | some (.dir _) => walk top follow links (here ++ [name]) rest
        | some (.file contents) =>
          if rest.isEmpty then .ok (.file contents) else .error .notDirectory
        | some .device => if rest.isEmpty then .ok .device else .error .notDirectory
        | some (.link target) =>
          if rest.isEmpty ∧ !follow then .ok .link
          else if _h : linkLimit ≤ links then .error .tooManyLinks
          else walk top follow (links + 1) (startOf target here) (components target ++ rest)
        | some (.jump place) =>
          if rest.isEmpty ∧ !follow then .ok .link
          else if _h : linkLimit ≤ links then .error .tooManyLinks
          else walk top follow (links + 1) place rest
termination_by parts => (linkLimit - links, parts.length)
decreasing_by
  all_goals first
    | (apply Prod.Lex.right; simp)
    | (apply Prod.Lex.left; omega)

/-- Looks up a path text from the directory at `here`. The empty path names
nothing. -/
def lookup (top : Node) (here : Place) (path : String) (follow : Bool) :
    Except DiskError Found :=
  if path.isEmpty then .error .notFound
  else if pathLimit ≤ path.utf8ByteSize then .error .nameTooLong
  else walk top follow 0 (startOf path here) (components path)

/-- The bytes of the file or device a path leads to, following links. -/
def readFile (top : Node) (here : Place) (path : String) : Except DiskError (List UInt8) :=
  match lookup top here path true with
  | .ok (.file contents) => .ok contents.data
  | .ok .device => .ok []
  | .ok _ => .error .isDirectory
  | .error e => .error e

/-- Whether a path leads to a directory, following links. -/
def isDirectory (top : Node) (here : Place) (path : String) : Bool :=
  match lookup top here path true with
  | .ok (.dir _) => true
  | _ => false

/-- A disk as a running program sees it: the whole tree, and the place of the
working directory, where relative paths start. -/
structure Host where
  top : Node
  here : Place
deriving Repr

/-- The name of a directory that no path can reach by name: a path is cut at
every slash, so none of its components is a slash. -/
def unnamed : List UInt8 := "/".toUTF8.toList

/-- The place of the working directory on the disk of `Host.scratch`. -/
def scratchPlace : Place := ["tmp".toUTF8.toList, unnamed]

/-- The directory `/proc/self` of a program whose standard input is `/dev/null`:
the jumps `cwd` to the working directory and `root` to the top, and the link
`fd/0` of the standard input. -/
def selfDir : Node :=
  .dir [("cwd".toUTF8.toList, .jump scratchPlace),
    ("fd".toUTF8.toList, .dir [("0".toUTF8.toList, .link "/dev/null")]),
    ("root".toUTF8.toList, .jump [])]

/-- The disk of a machine that holds the device `/dev/null` with the links
`/dev/stdin` and `/dev/fd` into `/proc/self` (`selfDir`), and the directory
`/tmp`, in which the working directory, with the given entries, stands under a
name that no path spells, as a fresh temporary directory does. Going up from the
working directory leads to `/tmp`, which holds nothing else. -/
def Host.scratch (work : List (List UInt8 × Node)) : Host where
  top := .dir [
    ("dev".toUTF8.toList, .dir [("fd".toUTF8.toList, .link "/proc/self/fd"),
      ("null".toUTF8.toList, .device), ("stdin".toUTF8.toList, .link "/proc/self/fd/0")]),
    ("proc".toUTF8.toList, .dir [("self".toUTF8.toList, selfDir)]),
    ("tmp".toUTF8.toList, .dir [(unnamed, .dir work)])]
  here := scratchPlace

end TreeDump.Disk
