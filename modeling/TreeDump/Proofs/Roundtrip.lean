import Mathlib
import TreeDump.Walkers.Memory
import TreeDump.Proofs.Rebuild
import TreeDump.Proofs.ScanTree
import TreeDump.Proofs.Dump
import TreeDump.Proofs.InStep
import TreeDump.Proofs.StoredReading

/-!
Reading back what the program writes.

Owns: the dump of a replayable tree within the reader's table reads back as the
tree without its fingerprints, its largest id and the fingerprint of the dump, and
writing the tree read back gives the dump again; the reverse inventory of an
in-memory tree is the dump of the tree its scan builds, which is replayable; and a
tree past the table's capacity, whose dump does not read back.
-/

namespace TreeDump

/-! ### In-memory trees -/

/-- No name below the root of an in-memory tree holds a line break. -/
def MemNode.PlainBelow (root : MemNode) : Prop :=
  ∀ path : List Nat, ∀ child ∈ (root.follow path).children, '\n' ∉ child.name.toList

instance (root : MemNode) : Decidable root.PlainBelow :=
  decidable_of_iff
    (root.allNodes (fun node => node.children.all fun child => decide ('\n' ∉ child.name.toList)) = true)
    (by rw [MemNode.allNodes_iff]; simp [MemNode.PlainBelow])

theorem MemNode.name_item (node : MemNode) : node.item.name = node.name := by
  cases node <;> rfl

/-- The in-memory walker never leaves its tree, so it lists only names of the tree. -/
theorem memWalker_plainNames : memWalker.PlainNames fun w : MemWalk => w.root.PlainBelow where
  list _ _ plain := plain
  names w n plain item listed := by
    obtain ⟨child, member, rfl⟩ := List.mem_map.mp (List.mem_of_mem_take listed)
    rw [MemNode.name_item]
    exact plain w.position child member
  enter w n w' plain entered := by
    simp only [memWalker] at entered
    split at entered
    · cases entered
      exact plain
    · cases entered
  leave w w' plain left := by
    simp only [memWalker] at left
    split at left
    · cases left
    · split at left
      · cases left
      · cases left
        exact plain

/-! ### The reverse inventory -/

theorem DirEntry.dumpText_undigested (d : DirEntry) : d.undigested.dumpText = d.dumpText := by
  rw [dumpText, dumpText, undigested_name, replay_undigested]

theorem DirEntry.blank_root {name : String} (nameNoBreak : '\n' ∉ name.toList) :
    (DirEntry.root name).Blank :=
  ⟨rfl, rfl, show 0 < idRange by decide, show 0 < sizeRange by decide,
    show 0 < idRange by decide, nameNoBreak⟩

theorem inventory_reverse_eq_ok {σ : Type} {walker : Walker σ} {limits : Limits} {state : σ}
    {name : String} {r : Report σ}
    (h : inventory walker limits state .reverse (DirEntry.root name) none = .ok r) :
    ∃ scan, Scan.run walker limits state (DirEntry.root name) none IdSupply.fresh = .ok scan ∧
      r.output = scan.tree.dumpText := by
  unfold inventory at h
  cases ran : Scan.run walker limits state (DirEntry.root name) none IdSupply.fresh with
  | error e =>
      rw [ran] at h
      cases h
  | ok scan =>
      rw [ran] at h
      cases h
      refine ⟨scan, rfl, ?_⟩
      show Wire.text scan.dump = _
      rw [Scan.run_dump ran rfl rfl]
      rfl

/-- A scan from a fresh root that goes through is what the reverse inventory reports:
the dump of its tree, its statistics and the walker's final state. -/
theorem inventory_reverse_of_run {σ : Type} {walker : Walker σ} {limits : Limits} {state : σ}
    {name : String} {scan : Scan σ}
    (ran : Scan.run walker limits state (DirEntry.root name) none IdSupply.fresh = .ok scan) :
    inventory walker limits state .reverse (DirEntry.root name) none =
      .ok ⟨scan.tree.dumpText, scan.stats, scan.walker⟩ := by
  unfold inventory
  rw [ran]
  show (Except.ok ⟨Wire.text scan.dump, scan.stats, scan.walker⟩ : Except ScanError (Report σ)) = _
  rw [Scan.run_dump ran rfl rfl]
  rfl

/-- A scan without a baseline, from a fresh root, builds a replayable tree. -/
theorem run_fresh_replayable {σ : Type} {walker : Walker σ} {good : σ → Prop}
    (plain : walker.PlainNames good) {limits : Limits} {state : σ} {name : String}
    {scan : Scan σ}
    (h : Scan.run walker limits state (DirEntry.root name) none IdSupply.fresh = .ok scan)
    (nameNoBreak : '\n' ∉ name.toList) (goodNow : good state) : scan.tree.Replayable := by
  have built := Scan.run_spec plain h (DirEntry.blank_root nameNoBreak)
    (show rootId ≠ 0 by decide) (show rootId < idRange by decide)
    (fun id member => by simp [baselineIds, baselineDirs] at member)
    (show rootId + 1 ≠ 0 by decide) (show rootId + 1 ≤ idRange by decide) goodNow
  exact built.replayable (by simp [baselineIds, baselineDirs])
    (by simp [baselineIds, baselineDirs]) (show rootId < rootId + 1 by decide)
    (fun id member => by simp [baselineIds, baselineDirs] at member)

/-! ### Reading inverts writing -/

/-- Reading inverts writing. The dump of a replayable tree, when the directories the
reader holds at once fit its table, reads back as the tree without fingerprints,
with its largest id and the fingerprint of the dump, so that writing what was read
gives the dump again; the reader over the store reads it back alike, whatever its
random source, unless it gives up on its store. Past the table's capacity both
readers refuse the dump. The reverse inventory of an in-memory tree with no line
break in its names is the dump of the tree its scan builds; that tree is replayable,
and both readers read it back from the inventory whenever it fits the table. -/
theorem read_inverts_dump :
    (∀ T : DirEntry, T.Replayable →
      (1 + T.breadth < IdTable.limit →
        Snapshot.read T.dumpText.toUTF8.toList =
            .ok ⟨T.undigested, T.largestId, Md5.digest T.dumpText.toUTF8.toList⟩ ∧
          (Snapshot.read T.dumpText.toUTF8.toList).map (·.root.dumpText) = .ok T.dumpText ∧
          ∀ rng, (Snapshot.readStored rng T.dumpText.toUTF8.toList).1 =
              .ok ⟨T.undigested, T.largestId, Md5.digest T.dumpText.toUTF8.toList⟩ ∨
            Snapshot.GaveUp (Snapshot.readStored rng T.dumpText.toUTF8.toList)) ∧
      (IdTable.limit ≤ 1 + T.breadth →
        (∃ err, Snapshot.read T.dumpText.toUTF8.toList = .error err) ∧
          ∀ rng, ∃ err, (Snapshot.readStored rng T.dumpText.toUTF8.toList).1 = .error err)) ∧
    ∀ (limits : Limits) (w : MemWalk) (name : String) (r : Report MemWalk),
      w.root.PlainBelow → '\n' ∉ name.toList →
      inventory memWalker limits w .reverse (DirEntry.root name) none = .ok r →
      ∃ scan : Scan MemWalk,
        Scan.run memWalker limits w (DirEntry.root name) none IdSupply.fresh = .ok scan ∧
        r.output = scan.tree.dumpText ∧ scan.tree.Replayable ∧
        (1 + scan.tree.breadth < IdTable.limit →
          Snapshot.read r.output.toUTF8.toList =
              .ok ⟨scan.tree.undigested, scan.tree.largestId, Md5.digest r.output.toUTF8.toList⟩ ∧
            (Snapshot.read r.output.toUTF8.toList).map (·.root.dumpText) = .ok r.output ∧
            ∀ rng, (Snapshot.readStored rng r.output.toUTF8.toList).1 =
                .ok ⟨scan.tree.undigested, scan.tree.largestId, Md5.digest r.output.toUTF8.toList⟩ ∨
              Snapshot.GaveUp (Snapshot.readStored rng r.output.toUTF8.toList)) := by
  have readBack : ∀ T : DirEntry, T.Replayable → 1 + T.breadth < IdTable.limit →
      Snapshot.read T.dumpText.toUTF8.toList =
          .ok ⟨T.undigested, T.largestId, Md5.digest T.dumpText.toUTF8.toList⟩ ∧
        (Snapshot.read T.dumpText.toUTF8.toList).map (·.root.dumpText) = .ok T.dumpText ∧
        ∀ rng, (Snapshot.readStored rng T.dumpText.toUTF8.toList).1 =
            .ok ⟨T.undigested, T.largestId, Md5.digest T.dumpText.toUTF8.toList⟩ ∨
          Snapshot.GaveUp (Snapshot.readStored rng T.dumpText.toUTF8.toList) := by
    intro T replayable room
    have read := Snapshot.read_dumpText replayable room
    refine ⟨read, ?_, Snapshot.readStored_of_read read⟩
    rw [read]
    exact congrArg Except.ok (DirEntry.dumpText_undigested T)
  refine ⟨fun T replayable => ⟨readBack T replayable, fun full => ?_⟩, ?_⟩
  · obtain ⟨err, failed⟩ := Snapshot.read_dumpText_error replayable full
    exact ⟨⟨err, failed⟩, Snapshot.readStored_error_of_read failed⟩
  intro limits w name r plain nameNoBreak h
  obtain ⟨scan, ran, output⟩ := inventory_reverse_eq_ok h
  have replayable := run_fresh_replayable memWalker_plainNames ran nameNoBreak plain
  refine ⟨scan, ran, output, replayable, fun room => ?_⟩
  rw [output]
  exact readBack scan.tree replayable room

/-- A share holding a directory with a directory of its own, and files at every level. -/
def docsTree : MemNode :=
  .dir "share" [.dir "docs" [.file "notes" 3, .dir "old" [.file "a" 1] false false] false false,
    .file "readme" 5] false false

/-- The reverse inventory of `docsTree` reads back as the tree its scan builds, into
the table and into the store under a fixed random source. -/
theorem share_inventory_reads_back :
    docsTree.PlainBelow ∧ ∃ r scan,
      inventory memWalker {} { root := docsTree } .reverse (DirEntry.root "share") none = .ok r ∧
      Scan.run memWalker {} { root := docsTree } (DirEntry.root "share") none IdSupply.fresh = .ok scan ∧
      r.output = scan.tree.dumpText ∧ scan.tree.Replayable ∧ scan.tree.dirs.length = 1 ∧
      Snapshot.read r.output.toUTF8.toList =
        .ok ⟨scan.tree.undigested, scan.tree.largestId, Md5.digest r.output.toUTF8.toList⟩ ∧
      (Snapshot.readStored { words := fun _ => 0x40000000 } r.output.toUTF8.toList).1 =
        .ok ⟨scan.tree.undigested, scan.tree.largestId, Md5.digest r.output.toUTF8.toList⟩ := by
  have plain : docsTree.PlainBelow := by decide
  have checked : (inventory memWalker {} { root := docsTree } .reverse (DirEntry.root "share") none).toOption.any
      (fun r => (Scan.run memWalker {} { root := docsTree } (DirEntry.root "share") none
          IdSupply.fresh).toOption.any fun scan =>
        scan.tree.dirs.length == 1 && (Snapshot.read r.output.toUTF8.toList).isOk &&
          (Snapshot.readStored { words := fun _ => 0x40000000 } r.output.toUTF8.toList).1.isOk) = true := by
    decide +kernel
  obtain ⟨r, inventoried, scans⟩ := Scan.exists_ok_of_toOption_any checked
  obtain ⟨scan, ran, fits⟩ := Scan.exists_ok_of_toOption_any scans
  simp only [Bool.and_eq_true, beq_iff_eq] at fits
  obtain ⟨⟨oneDir, readOk⟩, storedOk⟩ := fits
  obtain ⟨scan', ran', output, replayable, readBack⟩ :=
    read_inverts_dump.2 {} { root := docsTree } "share" r plain (by decide) inventoried
  obtain rfl : scan' = scan := Except.ok.inj (ran'.symm.trans ran)
  -- The dump reads back, so past the table's capacity it would not: the tree fits.
  have room : 1 + scan'.tree.breadth < IdTable.limit := by
    refine Nat.lt_of_not_le fun full => ?_
    obtain ⟨⟨err, failed⟩, -⟩ := (read_inverts_dump.1 scan'.tree replayable).2 full
    rw [output, failed] at readOk
    cases readOk
  obtain ⟨read, -, stored⟩ := readBack room
  refine ⟨plain, r, scan', inventoried, ran, output, replayable, oneDir, read, ?_⟩
  rcases stored { words := fun _ => 0x40000000 } with same | gaveUp
  · exact same
  · obtain ⟨e, failed⟩ := gaveUp.failed
    rw [failed] at storedOk
    cases storedOk

/-! ### Past the table's capacity -/

/-- A root holding one directory fewer than the table's limit, all of them named
`d`: reading its dump holds every one of them at once. -/
def wideRoot : DirEntry :=
  { name := "share", id := rootId,
    dirs := (List.range' 2 (IdTable.limit - 1)).map fun id => { name := "d", id } }

theorem allDirs_wideRoot_children : wideRoot.dirs.flatMap DirEntry.allDirs = wideRoot.dirs := by
  simp only [wideRoot, List.flatMap_map]
  rw [List.map_eq_flatMap]
  congr 1
  funext id
  rw [DirEntry.allDirs_eq]
  rfl

theorem wideRoot_replayable : wideRoot.Replayable := by
  have limitFits : IdTable.limit < idRange := by decide
  have childSound : ∀ c ∈ wideRoot.dirs, c.Sound := by
    intro c child
    obtain ⟨id, listed, rfl⟩ := List.mem_map.mp child
    have bounds := List.mem_range'_1.mp listed
    exact { idPos := by dsimp only; omega, idFits := by dsimp only; omega,
            fidFits := show 0 < idRange by decide, sizeFits := show 0 < sizeRange by decide,
            itemsFits := show 0 < idRange by decide,
            nameNoBreak := show '\n' ∉ "d".toList by decide,
            dirsSorted := List.Pairwise.nil, filesSorted := List.Pairwise.nil,
            filesFit := by simp }
  have rootSound : wideRoot.Sound :=
    { idPos := show rootId ≠ 0 by decide, idFits := show rootId < idRange by decide,
      fidFits := show 0 < idRange by decide, sizeFits := show 0 < sizeRange by decide,
      itemsFits := show 0 < idRange by decide, nameNoBreak := by decide,
      dirsSorted := List.pairwise_map.mpr (List.pairwise_of_forall_sublist fun _ => le_refl _),
      filesSorted := List.Pairwise.nil, filesFit := by simp [wideRoot] }
  refine ⟨?_, ?_⟩
  · rw [DirEntry.allDirs_eq, allDirs_wideRoot_children, List.map_cons]
    simp only [wideRoot, List.map_map, Function.comp_def, List.map_id']
    refine List.nodup_cons.mpr ⟨fun listed => ?_, List.nodup_range'⟩
    have := (List.mem_range'_1.mp listed).1
    exact absurd this (by decide)
  · intro e member
    rw [DirEntry.allDirs_eq, allDirs_wideRoot_children, List.mem_cons] at member
    rcases member with rfl | child
    · exact rootSound
    · exact childSound e child

theorem breadth_wideRoot : wideRoot.breadth = IdTable.limit - 1 := by
  have flat : (wideRoot.dirs.map DirEntry.breadth).foldr max 0 = 0 := by
    refine Nat.eq_zero_of_not_pos fun positive => ?_
    obtain ⟨c, child, deeper⟩ := DirEntry.exists_lt_of_lt_foldr_max positive
    obtain ⟨id, -, rfl⟩ := List.mem_map.mp child
    rw [DirEntry.breadth_eq] at deeper
    exact absurd deeper (show ¬0 < 0 + 0 by decide)
  rw [DirEntry.breadth_eq, flat]
  simp [wideRoot]

/-- The dump of a replayable tree that fills the reader's table does not read back,
into the table nor into the store. -/
theorem wide_dump_unreadable :
    wideRoot.Replayable ∧ (∃ err, Snapshot.read wideRoot.dumpText.toUTF8.toList = .error err) ∧
      ∀ rng, ∃ err, (Snapshot.readStored rng wideRoot.dumpText.toUTF8.toList).1 = .error err := by
  have full : IdTable.limit ≤ 1 + wideRoot.breadth := by
    rw [breadth_wideRoot]
    have : 0 < IdTable.limit := by decide
    omega
  obtain ⟨err, failed⟩ := Snapshot.read_dumpText_error wideRoot_replayable full
  exact ⟨wideRoot_replayable, ⟨err, failed⟩, Snapshot.readStored_error_of_read failed⟩

end TreeDump
