import TreeDump.Snapshot
import TreeDump.Entry.Json
import TreeDump.Engine.Listing
import TreeDump.Wire.Document
import TreeDump.Scan.Run

/-!
Inventories of a tree, in the four forms the program writes.

* `reverse`: the wire dump the scan writes as it goes, which reads back as a
  snapshot;
* `full`: the listing of every entry with its path and size;
* `json`: the scanned tree as pretty JSON;
* `diff`: the fingerprint of the previous snapshot (of the empty text when there
  is none) as `* hex`, the patch against that snapshot, then the wire dump the
  scan writes. Fresh ids continue after the largest id of the previous snapshot.
-/

namespace TreeDump

/-- The form of an inventory. -/
inductive Form where
  | reverse
  | full
  | json
  | diff
deriving DecidableEq, Repr

/-- The written inventory, the statistics of its scan and the walker's final state. -/
structure Report (σ : Type) where
  output : String
  stats : WalkStats
  walker : σ

/-- The wire dump of a tree, rooted at a path equal to its name. -/
def DirEntry.dumpText (d : DirEntry) : String :=
  Wire.text (d.replay none d.name 0)

/-- Reads the whole tree below `root` into memory: the tree and the statistics of
its scan, and the walker's final state. -/
def buildTree {σ : Type} (walker : Walker σ) (limits : Limits) (state : σ) (root : DirEntry) :
    Except ScanError (DirEntry × WalkStats × σ) :=
  (Scan.run walker limits state root none IdSupply.fresh).map fun scan =>
    (scan.tree, scan.stats, scan.walker)

/-- Scans the tree below `root` and writes its inventory in `form`; a diff compares
with `previous`. -/
def inventory {σ : Type} (walker : Walker σ) (limits : Limits) (state : σ) (form : Form)
    (root : DirEntry) (previous : Option Snapshot) : Except ScanError (Report σ) :=
  match form with
  | .diff => do
    let ids ← match IdSupply.after ((previous.map (·.maxId)).getD 0) with
      | .ok ids => pure ids
      | .error _ => throw (.overflow .firstId)
    let scan ← Scan.run walker limits state root (previous.map (·.root)) ids
    let header := "* " ++ ((previous.map (·.digest)).getD (Md5.digest [])).toHex ++ "\n"
    pure ⟨header ++ Wire.text scan.patch ++ Wire.text scan.dump,
      { scan.stats with patch := some (Wire.LineCounts.ofLines scan.patch) }, scan.walker⟩
  | .reverse => do
    let scan ← Scan.run walker limits state root none IdSupply.fresh
    pure ⟨Wire.text scan.dump, scan.stats, scan.walker⟩
  | other => do
    let (tree, stats, state) ← buildTree walker limits state root
    let output := match other with
      | .json => tree.jsonText
      | _ => printListing tree
    pure ⟨output, stats, state⟩

end TreeDump
