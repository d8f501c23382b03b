import TreeDump.Scan.Walker
import TreeDump.Disk.Lookup
import TreeDump.Disk.Path
import TreeDump.Glob
import TreeDump.Text.Utf8

/-!
A walker over a directory of a disk.

The walker stands at a path text, its root at first, and every step looks that
path up again, as a program that works with path names does. Entering a child
joins its name to the path (`Disk.join`); leaving goes to the parent of the
path (`Disk.parent?`), which drops separators and `.` segments at its end, and
is refused when the path is the root's. The path text thus differs from the
root followed by the names entered, and a lookup of it can fail for its length
where a shorter spelling would not. A listing keeps the children whose names are text without a
line break and match none of the ignore patterns. A symbolic link is left out,
unless links are followed: then it counts as what it leads to, and is left out
when it leads nowhere or to something that is neither file nor directory.
Entering a child needs it to be a directory, reached through a link only when
links are followed.

A listing of a path that is not a directory is empty.
-/

namespace TreeDump

open Disk Glob

/-- Where a disk walker stands and what it keeps out. -/
structure DiskWalk where
  /-- The whole disk. -/
  top : Node
  /-- The directory that relative paths start from. -/
  base : Place
  /-- The path of the walk's root, as given. -/
  root : String
  /-- The path of the directory the walker stands in. -/
  current : String
  /-- Names that match one of these are left out of listings. -/
  ignore : List Pattern := []
  /-- Whether symbolic links are followed. -/
  followLinks : Bool := false

namespace DiskWalk

/-- A walker standing at `root`, which is looked up from `base`. Of the ignore
patterns, those that are not valid patterns are dropped. -/
def start (top : Node) (base : Place) (root : String) (patterns : List String)
    (followLinks : Bool) : DiskWalk :=
  { top, base, root, current := root, ignore := patterns.filterMap Pattern.parse?,
    followLinks }

/-- What the path of a child of the current directory leads to. -/
def childLookup (w : DiskWalk) (name : String) (follow : Bool) : Except DiskError Found :=
  lookup w.top w.base (join w.current name) follow

/-- The listing item of a child, or `none` when the listing leaves it out. -/
def item (w : DiskWalk) (child : List UInt8 × Node) : Option Item := do
  let name ← Text.decodeStrict? child.1
  if name.contains '\n' ∨ w.ignore.any (·.isMatch name) then none
  else
    match child.2 with
    | .dir _ => some (.dir name)
    | .file contents => some (.file name contents.size)
    | .link _ | .jump _ =>
      if !w.followLinks then none
      else
        match w.childLookup name true with
        | .ok (.dir _) => some (.dir name)
        | .ok (.file contents) => some (.file name contents.size)
        | _ => none
    | .device => none

/-- The listing of the current directory. -/
def listing (w : DiskWalk) : List Item :=
  match lookup w.top w.base w.current true with
  | .ok (.dir place) => ((w.top.follow place).map Node.children |>.getD []).filterMap w.item
  | _ => []

end DiskWalk

/-- The walker over a disk. -/
def diskWalker : Walker DiskWalk where
  list w n := (w, w.listing.take n)
  enter w name := match w.childLookup name w.followLinks with
    | .ok (.dir _) => some { w with current := join w.current name }
    | _ => none
  leave w :=
    if samePath w.current w.root then .error ("already at " ++ w.root)
    else match parent? w.current with
      | some path => .ok { w with current := path }
      | none => .error ("already at " ++ w.root)

end TreeDump
