import TreeDump.Scan.Walker

/-!
A walker over a tree held in memory.

The tree's directories can be told to refuse being entered, or to refuse being
left. The walker stands at a path of child positions from the root. Moving into
a child picks the first child directory of that name. The walker keeps the
positions at which it started listings, in order, so that a test can count the
listings of each path (the names from the root, joined by `/`) and see that no
directory was read twice.
-/

namespace TreeDump

/-- A directory or file of an in-memory tree. -/
inductive MemNode where
  | dir (name : String) (children : List MemNode) (refuseEnter refuseLeave : Bool)
  | file (name : String) (size : Nat)
deriving Repr

namespace MemNode

/-- The node's name. -/
def name : MemNode → String
  | .dir name _ _ _ => name
  | .file name _ => name

/-- The node's children; a file has none. -/
def children : MemNode → List MemNode
  | .dir _ children _ _ => children
  | .file _ _ => []

/-- The node as a listing item. -/
def item : MemNode → Item
  | .dir name _ _ _ => .dir name
  | .file name size => .file name size

/-- Whether the node is a directory called `n` that can be entered, if it is a
directory called `n` at all. -/
def enterable? (n : String) : MemNode → Option Bool
  | .dir name _ refuseEnter _ => if name = n then some !refuseEnter else none
  | .file _ _ => none

/-- The node at a path of child positions. -/
def follow (node : MemNode) : List Nat → MemNode
  | [] => node
  | i :: is => match node.children[i]? with
    | some child => child.follow is
    | none => node

/-- The names from `node` down a path of child positions. -/
def names (node : MemNode) : List Nat → List String
  | [] => [node.name]
  | i :: is => match node.children[i]? with
    | some child => node.name :: child.names is
    | none => [node.name]

end MemNode

/-- Where an in-memory walker stands, and where it started listings, in order. -/
structure MemWalk where
  root : MemNode
  position : List Nat := []
  listed : List (List Nat) := []
deriving Repr

namespace MemWalk

/-- The directory the walker stands in. -/
def current (w : MemWalk) : MemNode := w.root.follow w.position

/-- The path of the directory at `position`: its names from the root joined by `/`. -/
def pathAt (w : MemWalk) (position : List Nat) : String := "/".intercalate (w.root.names position)

/-- The path of the current directory. -/
def path (w : MemWalk) : String := w.pathAt w.position

/-- The number of listings started for `path`. -/
def listingsOf (w : MemWalk) (path : String) : Nat :=
  (w.listed.filter fun position => w.pathAt position == path).length

/-- The position of the first child directory called `n`, and whether it can be
entered. -/
def findChild (n : String) : List MemNode → Nat → Option (Nat × Bool)
  | [], _ => none
  | c :: cs, i =>
    match c.enterable? n with
    | some ok => some (i, ok)
    | none => findChild n cs (i + 1)

/-- The largest number of listings started for one path. -/
def maxListings (w : MemWalk) : Nat :=
  (w.listed.map fun position => w.listingsOf (w.pathAt position)).foldl max 0

/-- The number of paths listed at least once. -/
def listedPaths (w : MemWalk) : Nat := (w.listed.map w.pathAt).eraseDups.length

/-- How deep the walker stands below the root. -/
def depth (w : MemWalk) : Nat := w.position.length

end MemWalk

/-- The walker over an in-memory tree. -/
def memWalker : Walker MemWalk where
  list w n := ({ w with listed := w.listed ++ [w.position] },
    (w.current.children.map MemNode.item).take n)
  enter w n := match MemWalk.findChild n w.current.children 0 with
    | some (i, true) => some { w with position := w.position ++ [i] }
    | _ => none
  leave w := match w.current with
    | .dir _ _ _ true => .error "connection lost"
    | _ => if w.position.isEmpty then .error "already at root"
      else .ok { w with position := w.position.dropLast }

end TreeDump
