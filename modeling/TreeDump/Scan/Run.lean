import TreeDump.Word
import TreeDump.Entry.Order
import TreeDump.Entry.Replay
import TreeDump.Scan.Walker
import TreeDump.Scan.Limits
import TreeDump.Scan.Stats
import TreeDump.Scan.Chain
import TreeDump.Scan.Pairing

/-!
Scanning a tree against its previous snapshot.

A scan reads the tree through a walker, depth first in name order, and builds
the directory entries with their sizes, ids and fingerprints. At the same time it
writes a patch against a baseline, the tree of the previous snapshot (none for a
first scan):

* a directory keeps the id of the baseline directory of the same name under the
  same parent; every other directory gets a fresh id;
* directories and files that appear are written `+`, those that disappear are
  written `-` (a removed directory with its whole subtree), files and directories
  whose size changed are written `*`;
* before the first line about something inside a directory, the patch names
  that directory and every not yet named directory above it with `* 0 id path`.

Beside the patch, the scan writes the dump of the tree it builds as it goes (see
`DirEntry.replay`): a directory's child declarations and its files once it is
read and merged, its child directories' entries once they are all scanned.

A directory is read when it is entered: its listing is sorted and numbered, its
size is the sum of its files, and it is pruned (emptied) when it repeats the
listings above it. A directory whose place in the id order passes `maxDirs` is
not read at all. On the way back up, a directory's size adds its child
directories' sizes.

Main definition: `Scan.run`.
-/

namespace TreeDump

open Wire

/-- The word that an overflow leaves. -/
inductive Counter where
  /-- The first fresh id, after the largest id of the previous snapshot. -/
  | firstId
  /-- The next fresh id. -/
  | nextId
  /-- The size of a directory. -/
  | size
  /-- A count of the statistics. -/
  | tally
deriving DecidableEq, Repr

/-- Why a scan stopped. -/
inductive ScanError where
  /-- The walker could not move back up from the directory at `path`. -/
  | lostPosition (path reason : String)
  /-- A size, count or id left its word. -/
  | overflow (counter : Counter)
  /-- The tree was deeper than the scan's depth budget. -/
  | tooDeep
deriving DecidableEq, Repr

/-- The text of a scan error. -/
def ScanError.message : ScanError → String
  | .lostPosition path reason =>
    "lost position below '" ++ path ++ "': cannot return to the parent directory: " ++ reason
  | .overflow _ => Overflow.add.message
  | .tooDeep => "directory tree deeper than the scan can follow"

/-- Everything a scan carries from step to step. -/
structure ScanState (σ : Type) where
  walker : σ
  ids : IdSupply
  /-- The first id handed out for the directory read last. -/
  batchStart : Nat
  stats : WalkStats := {}
  patch : Array Line := #[]
  /-- The dump of the tree, as far as it is written. -/
  dump : Array Line := #[]
  /-- The directories from the current one up to the root. -/
  chain : List Level := []

/-- Steps of a scan. -/
abbrev ScanM (σ : Type) := StateT (ScanState σ) (Except ScanError)

/-- The place of a directory in the order of ids: ids handed out by this scan count
from two on, after the root; ids kept from the baseline count as themselves. -/
def ordinal (firstFresh id : Nat) : Nat :=
  if firstFresh ≤ id then id - firstFresh + 2 else id

/-- The longest chain of directories in a tree. -/
def DirEntry.height : DirEntry → Nat
  | ⟨_, _, _, _, _, _, dirs, _⟩ => (dirs.map DirEntry.height).foldr max 0 + 1

namespace Scan

variable {σ : Type}

/-- Stops the scan on an overflow of `counter`. -/
def checked {α : Type} (counter : Counter) : Except Overflow α → ScanM σ α
  | .ok a => pure a
  | .error _ => throw (.overflow counter)

/-- Hands out the next fresh id. -/
def takeId : ScanM σ Nat := do
  let s ← get
  let (id, ids) ← checked .nextId s.ids.take
  set { s with ids }
  pure id

/-- Counts in the statistics. -/
def count (f : WalkStats → WalkStats) : ScanM σ Unit :=
  modify fun s => { s with stats := f s.stats }

/-- Writes a line of the patch. -/
def emit (line : Line) : ScanM σ Unit :=
  modify fun s => { s with patch := s.patch.push line }

/-- Writes lines of the patch. -/
def emitAll (lines : List Line) : ScanM σ Unit :=
  modify fun s => { s with patch := lines.foldl Array.push s.patch }

/-- Writes lines of the dump. -/
def dumpAll (lines : List Line) : ScanM σ Unit :=
  modify fun s => { s with dump := lines.foldl Array.push s.dump }

/-- Names in the patch every directory of the chain below the nearest one already
named, top-down, and marks them named. -/
def announce : ScanM σ Unit := do
  let s ← get
  let fresh := s.chain.takeWhile (!·.announced)
  let named := fresh.map fun level => { level with announced := true }
  set { s with chain := named ++ s.chain.drop fresh.length }
  emitAll (fresh.reverse.map fun level => ⟨some .changed, .directory level.id level.path⟩)

/-- The directories of a listing. -/
def Item.dirEntry? : Item → Option DirEntry
  | .dir name => some { name }
  | .file _ _ => none

/-- The files of a listing. -/
def Item.fileEntry? : Item → Option FileEntry
  | .file name size => some { name, size }
  | .dir _ => none

/-- Lists the current directory, reading one entry more than `maxItems`; a listing
longer than `maxItems` is cut there and counted as truncated. -/
def listChildren (walker : Walker σ) (limits : Limits) : ScanM σ (List Item) := do
  let s ← get
  let (state, listing) := walker.list s.walker (limits.maxItems + 1)
  set { s with walker := state }
  if limits.maxItems < listing.length then
    count fun st => { st with truncated := st.truncated + 1 }
  pure (listing.take limits.maxItems)

/-- Records the listing of the current directory `d` in its level of the chain. -/
def recordListing (d : DirEntry) : ScanM σ Unit :=
  modify fun s => { s with chain := match s.chain with
    | level :: up => { level with digest := d.digest, items := d.items } :: up
    | [] => [] }

/-- Empties the current directory `d` when the chain repeats the listings above it,
handing back the ids its children took. -/
def pruneIfRepeats (limits : Limits) (d : DirEntry) : ScanM σ DirEntry := do
  let s ← get
  if Level.chainRepeats limits.recursionThreshold s.chain then
    set { s with ids := ⟨s.batchStart⟩, chain := match s.chain with
      | level :: up => { level with items := 0 } :: up
      | [] => [] }
    count fun st => { st with pruned := st.pruned + 1 }
    pure { d with dirs := [], files := [], items := 0, size := 0 }
  else pure d

/-- Reads the current directory `d`, which the walker stands in. -/
def readDir (walker : Walker σ) (limits : Limits) (firstFresh : Nat) (d : DirEntry) :
    ScanM σ DirEntry := do
  modify fun s => { s with batchStart := s.ids.next }
  if limits.maxDirs < ordinal firstFresh d.id then
    count fun st => { st with truncated := st.truncated + 1 }
    return d
  let kept ← listChildren walker limits
  let d := { d with dirs := d.dirs ++ kept.filterMap Item.dirEntry?,
                    files := d.files ++ kept.filterMap Item.fileEntry? }
  let (d, ids) ← checked .nextId (d.orderChildren (← get).ids)
  modify fun s => { s with ids }
  let d := { d with digest := some d.childDigest }
  let size ← checked .size (sumWithin sizeRange (d.files.map (·.size)))
  let d := { d with size }
  recordListing d
  let d ← pruneIfRepeats limits d
  let bytes ← checked .tally (addWithin sizeRange (← get).stats.bytes d.size)
  count fun st => { st with directories := st.directories + 1,
                            files := st.files + d.files.length, bytes }
  pure d

/-- Merges one pair of child directories of `d`, found at `path`: a child on both
sides keeps its baseline id, a new child takes a fresh id and is written `+`, a
vanished child is written `-` with its whole subtree. Gives the child the scan
keeps, with its baseline directory, if there is one to keep. -/
def mergeDir (path : String) (d : DirEntry) :
    Pairing DirEntry DirEntry → ScanM σ (Option (DirEntry × Option DirEntry))
  | .both c b => pure (some ({ c with id := b.id }, some b))
  | .live c => do
    let c := { c with id := ← takeId }
    announce
    emit ⟨some .added, .directory c.id (childPath path d.name c.name)⟩
    pure (some (c, none))
  | .old b => do
    announce
    emitAll (b.replay (some .removed) (childPath path d.name b.name) d.id)
    pure none

/-- Merges the pairs of child directories of `d` in order. -/
def mergeDirs (path : String) (d : DirEntry) :
    List (Pairing DirEntry DirEntry) → ScanM σ (List (DirEntry × Option DirEntry))
  | [] => pure []
  | pair :: pairs => do
    let kept ← mergeDir path d pair
    let rest ← mergeDirs path d pairs
    pure (kept.toList ++ rest)

/-- Merges one pair of files of `d`: a file on both sides is written `*` when its
size changed, a new file `+`, a vanished file `-`. -/
def mergeFile (d : DirEntry) : Pairing FileEntry FileEntry → ScanM σ Unit
  | .both f b =>
    if b.size ≠ f.size then do
      announce
      emit (f.entryLine (some .changed) d.id)
    else pure ()
  | .live f => do
    announce
    emit (f.entryLine (some .added) d.id)
  | .old b => do
    announce
    emit (b.entryLine (some .removed) d.id)

/-- Merges the pairs of files of `d` in order. -/
def mergeFiles (d : DirEntry) : List (Pairing FileEntry FileEntry) → ScanM σ Unit
  | [] => pure ()
  | pair :: pairs => do
    mergeFile d pair
    mergeFiles d pairs

/-- Matches the child directories of `d`, found at `path`, with the baseline's
directories of the same names: a matched directory keeps its baseline id, the
others take fresh ids again in order. Writes the patch lines for appearing and
disappearing children. Returns `d` and, for each child directory, its baseline
directory if it has one. -/
def merge (path : String) (old : Option DirEntry) (d : DirEntry) :
    ScanM σ (DirEntry × List (Option DirEntry)) := do
  match old with
  | none =>
    emitAll (d.dirs.map fun c => ⟨some .added, .directory c.id (childPath path d.name c.name)⟩)
    emitAll (d.files.map (FileEntry.entryLine (some .added) d.id))
    pure (d, d.dirs.map fun _ => none)
  | some o =>
    modify fun s => { s with ids := ⟨s.batchStart⟩ }
    let kept ← mergeDirs path d (pairByName DirEntry.name DirEntry.name d.dirs o.dirs)
    mergeFiles d (pairByName FileEntry.name FileEntry.name d.files o.files)
    pure ({ d with dirs := kept.map (·.1) }, kept.map (·.2))

/-- Writes the removal of everything a directory held in the baseline, for a
directory at `path` with id `id` that the scan could not enter. -/
def removeContents (id : Nat) (path : String) (b : DirEntry) : ScanM σ Unit := do
  let lines := b.dirs.flatMap (fun c => c.replay (some .removed) (childPath path b.name c.name) id) ++
    b.files.map (FileEntry.entryLine (some .removed) id)
  if !lines.isEmpty then
    emit ⟨some .changed, .directory id path⟩
    emitAll lines

/-- Writes the removal of what the child `c` of `d` (found at `path`) held in the
baseline, when `c` was never entered and has a baseline directory. -/
def removeUnentered (path : String) (d c : DirEntry) : Option DirEntry → ScanM σ Unit
  | some unentered => do
    if !unentered.dirs.isEmpty || !unentered.files.isEmpty then announce
    removeContents c.id (childPath path d.name c.name) unentered
  | none => pure ()

/-- Writes the child directory `c` of `d` when it is new, or when its size differs
from its baseline directory's. -/
def compareChild (d c : DirEntry) : Option DirEntry → ScanM σ Unit
  | none => do
    announce
    emit (c.entryLine (some .added) d.id)
  | some old =>
    if old.size ≠ c.size then do
      announce
      emit (c.entryLine (some .changed) d.id)
    else pure ()

/-- After the children of `d` (found at `path`) were scanned: removes what a child
that could not be entered held in the baseline, and writes every child directory
that is new or changed its size. `pending` holds, for each child, its baseline
directory if the child was never entered; `before` its baseline directory. -/
def compareChildren (path : String) (d : DirEntry) :
    List DirEntry → List (Option DirEntry) → List (Option DirEntry) → ScanM σ Unit
  | c :: cs, p :: ps, b :: bs => do
    removeUnentered path d c p
    compareChild d c b
    compareChildren path d cs ps bs
  | _, _, _ => pure ()

/-- Moves the walker back up from the child directory at `path`, dropping the
child's level of the chain; failing to move back stops the scan. -/
def leaveChild (walker : Walker σ) (path : String) : ScanM σ Unit := do
  let s ← get
  match walker.leave s.walker with
  | .error reason => throw (.lostPosition path reason)
  | .ok state => set { s with walker := state, chain := s.chain.tail }

/-- Moves into each child directory in turn, scans it with `visitChild`, and moves
back; a child that cannot be entered is counted as skipped and kept as listed.
`baselines` gives each child's baseline directory; the result gives the scanned
children and, for each, its baseline directory if it was never entered. -/
def enterAll (walker : Walker σ)
    (visitChild : String → Option DirEntry → DirEntry → ScanM σ DirEntry)
    (path parentName : String) :
    List DirEntry → List (Option DirEntry) → ScanM σ (List DirEntry × List (Option DirEntry))
  | [], _ => pure ([], [])
  | c :: cs, baselines => do
    let baseline := baselines.head?.join
    let s ← get
    match walker.enter s.walker c.name with
    | none =>
      count fun st => { st with skipped := st.skipped + 1 }
      let (rest, pending) ← enterAll walker visitChild path parentName cs baselines.tail
      pure (c :: rest, baseline :: pending)
    | some state =>
      let childPathText := childPath path parentName c.name
      set { s with walker := state,
                   chain := { id := c.id, path := childPathText, announced := baseline.isNone } :: s.chain }
      let c ← visitChild childPathText baseline c
      leaveChild walker childPathText
      let (rest, pending) ← enterAll walker visitChild path parentName cs baselines.tail
      pure (c :: rest, none :: pending)

/-- Scans the directory `d` at `path`, which the walker has just entered, against
its baseline directory `old`; at most `fuel` levels deep. -/
def visit (walker : Walker σ) (limits : Limits) (firstFresh : Nat) :
    Nat → String → Option DirEntry → DirEntry → ScanM σ DirEntry
  | 0, _, _, _ => throw .tooDeep
  | fuel + 1, path, old, d => do
    let d ← readDir walker limits firstFresh d
    let (d, baselines) ← merge path old d
    dumpAll (d.openingLines none path)
    let (dirs, pending) ← enterAll walker (visit walker limits firstFresh fuel) path d.name d.dirs baselines
    let size ← checked .size (addWithin sizeRange d.size ((dirs.map (·.size)).foldl (· + ·) 0))
    let d := { d with dirs, size }
    compareChildren path d d.dirs pending baselines
    dumpAll (d.closingLines none)
    pure d

end Scan

/-- What a scan produced: the tree, the statistics, the patch against the baseline,
the dump written along the way and the walker's final state. -/
structure Scan (σ : Type) where
  tree : DirEntry
  stats : WalkStats
  patch : List Line
  dump : List Line
  walker : σ

namespace Scan

/-- The depth budget of a scan against `baseline`. Below the root, the directories
of a chain that kept baseline ids follow a path of the baseline, and the others
have fresh ids, strictly increasing downward and all below `2 ^ 32`; so no chain is
longer than this budget. -/
def depthBudget (baseline : Option DirEntry) : Nat :=
  idRange + (baseline.map DirEntry.height).getD 0 + 2

/-- Opens the patch of a scan: without a baseline, the root is a new directory. -/
def openRoot {σ : Type} (root : DirEntry) (baseline : Option DirEntry) : ScanM σ Unit :=
  if baseline.isNone then emit ⟨some .added, .directory root.id root.name⟩ else pure ()

/-- Closes the patch of a scan with the root's entry `d`: written as added without a
baseline, as changed when its size differs from the baseline root's. -/
def closeRoot {σ : Type} (d : DirEntry) : Option DirEntry → ScanM σ Unit
  | none => emit (d.entryLine (some .added) 0)
  | some old => if old.size ≠ d.size then emit (d.entryLine (some .changed) 0) else pure ()

/-- Scans the tree below `root`, where the walker stands, against `baseline`,
handing out fresh ids from `ids`. -/
def run {σ : Type} (walker : Walker σ) (limits : Limits) (state : σ) (root : DirEntry)
    (baseline : Option DirEntry) (ids : IdSupply) : Except ScanError (Scan σ) :=
  let start : ScanState σ :=
    { walker := state, ids, batchStart := ids.next,
      chain := [{ id := root.id, path := root.name, announced := baseline.isNone }] }
  let steps : ScanM σ DirEntry := do
    openRoot root baseline
    dumpAll [root.declaration none root.name]
    let d ← visit walker limits ids.next (depthBudget baseline) root.name baseline root
    closeRoot d baseline
    dumpAll [d.entryLine none 0]
    pure d
  (steps.run start).map fun (tree, s) => ⟨tree, s.stats, s.patch.toList, s.dump.toList, s.walker⟩

end Scan

end TreeDump
