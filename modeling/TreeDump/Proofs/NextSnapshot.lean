import Mathlib
import TreeDump.Proofs.Shape
import TreeDump.Proofs.Roundtrip
import TreeDump.Proofs.StoredReading

/-!
The output of a diff is the next snapshot.

Owns: the header of a diff stays on one line; what a diff inventory is made of; the
reader refusing a dump whose first child directory repeats its root's id; and
`NextSnapshot`, what the output of a diff of an in-memory tree is as the next
snapshot. Main statement (`diff_reads_as_next_snapshot`): against a snapshot the
reader accepted, whose ids below the root are distinct and apart from the root's
id, the output reads back as the tree of the diff's scan; that tree has distinct
positive ids, a largest id at most the snapshot's (or the root's) plus the number of
directories below its root, and the shape of the tree a plain build gives whenever
neither scan leaves a directory unread past `maxDirs`.

Why the hypotheses are needed: the live root always takes the root's id, while a
directory matched in the snapshot keeps its id from there, so a snapshot that gives
the root's id to a directory below its root has that id handed out twice, and the
output does not read back (`diff_repeats_root_id`).

Does not own: a bound in terms of the in-memory tree itself, whose two sibling
directories of one name are both scanned as the first of them.
-/

namespace TreeDump

open Wire

/-! ### The header -/

/-- A hex digit of a byte is never a line break. -/
theorem Md5.newline_not_mem_hexByte (b : UInt8) : '\n' ∉ (Md5.hexByte b).toList := by
  -- Each digit is read off the sixteen hex digits, with `'0'` past their end.
  have digit : ∀ n, "0123456789abcdef".toList.getD n '0' ≠ '\n' := by
    intro n
    rw [List.getD_eq_getElem?_getD]
    cases looked : "0123456789abcdef".toList[n]? with
    | none => decide
    | some c =>
        have member := List.mem_of_getElem? looked
        rintro rfl
        exact absurd member (by decide)
  simp only [Md5.hexByte, String.toList_ofList, List.mem_cons, List.not_mem_nil, or_false, not_or]
  exact ⟨(digit _).symm, (digit _).symm⟩

theorem Md5.Digest.newline_not_mem_toHex (d : Md5.Digest) : '\n' ∉ d.toHex.toList := by
  simp only [Md5.Digest.toHex, String.toList_join, List.mem_flatMap, List.mem_map]
  rintro ⟨_, ⟨b, -, rfl⟩, inByte⟩
  exact Md5.newline_not_mem_hexByte b inByte

/-! ### A diff inventory -/

section Inventory

variable {σ : Type} {walker : Walker σ} {limits : Limits} {state : σ} {root : DirEntry} {S : Snapshot}

/-- A diff continues the ids after the snapshot's largest, scans against its tree, and
writes the header naming it, the patch and the scan's dump. -/
theorem inventory_diff_of_run {ids : IdSupply} {scan : Scan σ} (after : IdSupply.after S.maxId = .ok ids)
    (ran : Scan.run walker limits state root (some S.root) ids = .ok scan) :
    inventory walker limits state .diff root (some S) =
      .ok ⟨"* " ++ S.digest.toHex ++ "\n" ++ Wire.text scan.patch ++ Wire.text scan.dump,
        { scan.stats with patch := some (Wire.LineCounts.ofLines scan.patch) }, scan.walker⟩ := by
  unfold inventory
  simp only [Option.map_some, Option.getD_some, after, ran, bind, Except.bind, pure, Except.pure]

theorem inventory_diff_eq_ok {r : Report σ} (h : inventory walker limits state .diff root (some S) = .ok r) :
    ∃ ids scan, IdSupply.after S.maxId = .ok ids ∧
      Scan.run walker limits state root (some S.root) ids = .ok scan ∧
      r.output = "* " ++ S.digest.toHex ++ "\n" ++ Wire.text scan.patch ++ Wire.text scan.dump := by
  cases after : IdSupply.after S.maxId with
  | error e =>
      unfold inventory at h
      simp only [Option.map_some, Option.getD_some, after, bind, Except.bind] at h
      cases h
  | ok ids =>
      cases ran : Scan.run walker limits state root (some S.root) ids with
      | error e =>
          unfold inventory at h
          simp only [Option.map_some, Option.getD_some, after, ran, bind, Except.bind, pure,
            Except.pure] at h
          cases h
      | ok scan =>
          rw [inventory_diff_of_run after ran] at h
          cases h
          exact ⟨ids, scan, rfl, ran, rfl⟩

end Inventory

theorem IdSupply.after_fits {maxId : Nat} {ids : IdSupply} (h : IdSupply.after maxId = .ok ids) :
    ids.next < idRange := by
  unfold IdSupply.after addWithin at h
  split at h
  · cases h
    assumption
  · cases h

/-! ### Largest ids -/

/-- A bound on every id of a tree bounds its largest id. -/
theorem DirEntry.largestId_le {k : Nat} :
    ∀ d : DirEntry, (∀ e ∈ d.allDirs, e.id ≤ k) → d.largestId ≤ k := by
  intro d
  induction d using DirEntry.induction with
  | step d inductionHypothesis =>
      intro bounded
      rw [largestId_eq, largestBelow]
      refine max_le (bounded d (mem_allDirs_self d)) (Nat.le_of_not_lt fun above => ?_)
      obtain ⟨c, child, larger⟩ := exists_lt_of_lt_foldr_max above
      have within := inductionHypothesis c child fun e below => bounded e (allDirs_subset_of_mem child below)
      omega

/-- A scan hands out fresh ids only as far as the directories below its root go: with
the root's id and the baseline's below the first fresh id, its largest id is below
the first fresh id plus the number of directories below the root. -/
theorem Scan.Built.largestId_lt {σ : Type} {good : σ → Prop} {baseline : Option DirEntry}
    {root : DirEntry} {ids : IdSupply} {scan : Scan σ} (built : Scan.Built good baseline root ids scan)
    (rootBelow : root.id < ids.next) (baselineBelow : ∀ id ∈ baselineIds baseline, id < ids.next) :
    scan.tree.largestId < ids.next + scan.tree.idsBelow.length := by
  obtain ⟨fresh, carried, within, perm⟩ := built.ids
  have counted : fresh ≤ scan.tree.idsBelow.length := by
    rw [perm.length_eq, List.length_append, List.length_range']
    omega
  have bounded : ∀ e ∈ scan.tree.allDirs, e.id ≤ ids.next + scan.tree.idsBelow.length - 1 := by
    intro e member
    rw [DirEntry.allDirs_eq, List.mem_cons] at member
    rcases member with rfl | below
    · rw [built.id]
      omega
    · -- Below the root every id is fresh from the supply or carried from the baseline.
      have listed : e.id ∈ List.range' ids.next fresh ++ carried :=
        perm.subset (List.mem_map_of_mem below)
      rcases List.mem_append.mp listed with fromSupply | fromBaseline
      · have := (List.mem_range'_1.mp fromSupply).2
        omega
      · have := baselineBelow e.id (within.subset fromBaseline)
        omega
  have := DirEntry.largestId_le scan.tree bounded
  omega

/-! ### A diff scan against an accepted snapshot -/

section DiffScan

variable {limits : Limits} {w : MemWalk} {name : String} {S : Snapshot} {scan : Scan MemWalk}

/-- A diff scan of an in-memory tree against the tree of an accepted snapshot, from
the ids after the snapshot's largest, writes a patch the reader passes over, builds a
tree of sound directories from the root's id, fresh ids and ids carried from below
the snapshot's root, and dumps that tree. -/
theorem diff_run_built (rebuilt : S.root.Rebuilt S.maxId) (fits : max S.maxId rootId + 1 < idRange)
    (plain : w.root.PlainBelow) (nameNoBreak : '\n' ∉ name.toList)
    (ran : Scan.run memWalker limits w (DirEntry.root name) (some S.root) ⟨max S.maxId rootId + 1⟩ = .ok scan) :
    (∀ line ∈ scan.patch, line.Passed) ∧
      Scan.Built (fun w : MemWalk => w.root.PlainBelow) (some S.root) (DirEntry.root name)
        ⟨max S.maxId rootId + 1⟩ scan ∧
      Wire.text scan.dump = scan.tree.dumpText := by
  have carried : ∀ id ∈ baselineIds (some S.root), id ≠ 0 ∧ id < max S.maxId rootId + 1 := by
    intro id member
    obtain ⟨e, below, rfl⟩ := List.mem_map.mp member
    obtain ⟨idPos, idWithin, -⟩ := rebuilt.below e below
    exact ⟨idPos, by omega⟩
  have built := Scan.run_spec memWalker_plainNames ran (DirEntry.blank_root nameNoBreak)
    (show rootId ≠ 0 by decide) (show rootId < idRange by decide) carried
    (show max S.maxId rootId + 1 ≠ 0 by omega) (show max S.maxId rootId + 1 ≤ idRange by omega) plain
  refine ⟨Scan.passed_run memWalker_plainNames ran (DirEntry.blank_root nameNoBreak)
    (fun o same => Option.some.inj same ▸ rebuilt) plain, built, ?_⟩
  rw [Scan.run_dump ran rfl rfl]
  rfl

end DiffScan

/-! ### A dump that repeats its root's id -/

namespace Snapshot

/-- A dump whose first child directory repeats its root's id does not read back, after
any header and marked lines: the reader still holds the root's declaration when the
child's comes. -/
theorem read_patchedDump_clash {T c : DirEntry} {cs : List DirEntry} (sound : ∀ e ∈ T.allDirs, e.Sound)
    (children : T.dirs = c :: cs) (clash : c.id = T.id) {hex : String} (hexNoBreak : '\n' ∉ hex.toList)
    {patch : List Line} (marked : ∀ line ∈ patch, line.marker.isSome ∧ '\n' ∉ line.render.toList) :
    ∃ err, read ("* " ++ hex ++ "\n" ++ text patch ++ T.dumpText).toUTF8.toList = .error err := by
  have soundSelf := sound T (DirEntry.mem_allDirs_self T)
  have soundChild : c.Sound :=
    sound c (DirEntry.allDirs_subset_of_mem (children ▸ List.mem_cons_self) (DirEntry.mem_allDirs_self c))
  have noBreak : ∀ line ∈ patch ++ T.replay none T.name 0, '\n' ∉ line.render.toList := by
    intro line member
    rcases List.mem_append.mp member with inPatch | inDump
    · exact (marked line inPatch).2
    · exact (DirEntry.readable_replay sound soundSelf.nameNoBreak (show 0 < idRange by decide) none line
        inDump).noBreak
  -- The root's declaration comes first and the child's right after it.
  obtain ⟨rest, lines⟩ : ∃ rest, T.replay none T.name 0 =
      T.declaration none T.name :: c.declaration none (childPath T.name T.name c.name) :: rest := by
    rw [DirEntry.replay, DirEntry.replayInside_eq, children, List.map_cons]
    exact ⟨_, rfl⟩
  obtain ⟨t, inserted⟩ := IdTable.exists_insert_eq_ok IdTable.wellFormed_empty soundSelf.idPos
    (IdTable.get?_empty _) ({ name := "" } : DirEntry) (by rw [IdTable.size_empty]; decide)
  have declared : ∀ n, ({} : Progress).readLine n (lineBytes (T.declaration none T.name)) =
      .ok ⟨t, max 0 T.id, none⟩ := by
    intro n
    rw [Progress.readLine_unmarked _ n
      (DirEntry.readable_declaration soundSelf soundSelf.nameNoBreak none) rfl]
    exact Progress.apply_directory _ inserted
  have held : t.get? c.id = some { name := "" } := by
    rw [IdTable.get?_of_insert_eq_ok inserted, if_pos clash]
  have refused : ∀ n, (⟨t, max 0 T.id, none⟩ : Progress).readLine n
      (lineBytes (c.declaration none (childPath T.name T.name c.name))) =
        .error (.table n (.duplicate c.id)) := by
    intro n
    rw [Progress.readLine_unmarked _ n (DirEntry.readable_declaration soundChild
      (newline_not_mem_childPath soundSelf.nameNoBreak soundChild.nameNoBreak _) none) rfl]
    exact Progress.apply_directory_error _ (IdTable.insert_of_get?_eq_some held _)
  have reads : ({} : Progress).readLines 1
      (splitLines ("* " ++ hex ++ "\n" ++ text patch ++ T.dumpText).toUTF8.toList) =
        .error (.table (1 + 1 + (patch.map lineBytes).length + 1) (.duplicate c.id)) := by
    rw [DirEntry.dumpText, splitLines_patchedDump hexNoBreak noBreak,
      Progress.readLines_cons_ok (readLine_header {} 1 hex), List.map_append,
      Progress.readLines_append_ok
        (Progress.readLines_marked {} (1 + 1) fun line member => (marked line member).1), lines,
      List.map_cons,
      List.map_cons, Progress.readLines_cons_ok (declared _), Progress.readLines_cons_error (refused _)]
  exact ⟨_, read_eq_error_of_readLines reads⟩

end Snapshot

/-! ### The next snapshot -/

/-- What the output of a diff of the in-memory tree `w` against the snapshot `S` is as
the next snapshot, `scan` the scan the diff ran from the ids after the snapshot's
largest: the header, the patch and the scan's dump, which reads back as the scanned
tree when the reader's table has room; that tree has distinct positive ids, its
largest past the snapshot's largest (or the root's) by at most the number of
directories below its root; and, when neither it nor the tree of a plain build
leaves a directory unread past `maxDirs`, it has the plain build's shape. -/
structure NextSnapshot (limits : Limits) (w : MemWalk) (name : String) (S : Snapshot) (output : String)
    (scan : Scan MemWalk) : Prop where
  ran : Scan.run memWalker limits w (DirEntry.root name) (some S.root) ⟨max S.maxId rootId + 1⟩ = .ok scan
  written : output = "* " ++ S.digest.toHex ++ "\n" ++ Wire.text scan.patch ++ scan.tree.dumpText
  reads : 1 + scan.tree.breadth < IdTable.limit →
    Snapshot.read output.toUTF8.toList =
      .ok ⟨scan.tree.undigested, scan.tree.largestId, Md5.digest output.toUTF8.toList⟩
  readsStored : 1 + scan.tree.breadth < IdTable.limit → ∀ rng,
    (Snapshot.readStored rng output.toUTF8.toList).1 =
        .ok ⟨scan.tree.undigested, scan.tree.largestId, Md5.digest output.toUTF8.toList⟩ ∨
      Snapshot.GaveUp (Snapshot.readStored rng output.toUTF8.toList)
  idsNodup : (scan.tree.allDirs.map (·.id)).Nodup
  idsPos : ∀ e ∈ scan.tree.allDirs, e.id ≠ 0
  largest : scan.tree.largestId ≤ max S.maxId rootId + scan.tree.idsBelow.length
  sameShape : ∀ tree stats final,
    buildTree memWalker limits w (DirEntry.root name) = .ok (tree, stats, final) →
    scan.tree.ReadWithin limits (max S.maxId rootId + 1) → tree.ReadWithin limits (rootId + 1) →
    scan.tree.shape = tree.shape

/-- The output of a diff of an in-memory tree without line breaks in its names, against
a snapshot the reader accepted whose ids below the root are distinct and apart from
the root's id, is the next snapshot. -/
theorem diff_reads_as_next_snapshot {limits : Limits} {w : MemWalk} {name : String}
    {bytes : List UInt8} {S : Snapshot} {r : Report MemWalk} (accepted : Snapshot.read bytes = .ok S)
    (distinct : S.root.idsBelow.Nodup) (rootApart : rootId ∉ S.root.idsBelow)
    (plain : w.root.PlainBelow) (nameNoBreak : '\n' ∉ name.toList)
    (diffed : inventory memWalker limits w .diff (DirEntry.root name) (some S) = .ok r) :
    ∃ scan, NextSnapshot limits w name S r.output scan := by
  obtain ⟨ids, scan, after, ran, written⟩ := inventory_diff_eq_ok diffed
  have supply : ids = ⟨max S.maxId rootId + 1⟩ := by
    have next := IdSupply.after_eq_ok after
    cases ids
    rw [IdSupply.mk.injEq]
    exact next
  subst supply
  have rebuilt := Snapshot.rebuilt_read accepted
  -- Every id below the snapshot's root is at most its largest id, so below the first fresh one.
  have baselineBelow : ∀ id ∈ baselineIds (some S.root), id < max S.maxId rootId + 1 := by
    intro id member
    obtain ⟨e, below, rfl⟩ := List.mem_map.mp member
    have := (rebuilt.below e below).2.1
    omega
  obtain ⟨passed, built, dumped⟩ := diff_run_built rebuilt (IdSupply.after_fits after) plain nameNoBreak ran
  have replayable := built.replayable distinct rootApart (show rootId < max S.maxId rootId + 1 by omega)
    baselineBelow
  rw [dumped] at written
  have reads : 1 + scan.tree.breadth < IdTable.limit → Snapshot.read r.output.toUTF8.toList =
      .ok ⟨scan.tree.undigested, scan.tree.largestId, Md5.digest r.output.toUTF8.toList⟩ := by
    intro room
    rw [written]
    exact Snapshot.read_patchedDump replayable (Md5.Digest.newline_not_mem_toHex _) passed room
  refine ⟨scan, ran, written, reads, fun room => Snapshot.readStored_of_read (reads room),
    replayable.idsNodup, fun e member => (replayable.sound e member).idPos, ?_, ?_⟩
  · have := built.largestId_lt (show rootId < max S.maxId rootId + 1 by omega) baselineBelow
    dsimp only at this
    omega
  · -- The plain build is a scan without a baseline from the first ids after the root's.
    intro tree stats final builtTree within within'
    unfold buildTree at builtTree
    obtain ⟨plainScan, plainRan, same⟩ := Scan.except_map_eq_ok builtTree
    simp only [Prod.mk.injEq] at same
    obtain ⟨rfl, -, -⟩ := same
    exact (Scan.run_twin rfl rfl ran plainRan within within').1

/-! ### Concrete diffs -/

/-- A root `r` holding one empty directory `a`. -/
def pairTree : MemNode := .dir "r" [.dir "a" [] false false] false false

/-- No name in `pairTree` holds a line break. -/
theorem pairTree_plainBelow : pairTree.PlainBelow := by
  decide

/-- Over child directories that hold none, the ids below a root are its children's. -/
theorem DirEntry.idsBelow_of_leaves {d : DirEntry} (leaves : ∀ c ∈ d.dirs, c.dirs = []) :
    d.idsBelow = d.dirs.map (·.id) := by
  have flat : d.dirs.flatMap DirEntry.allDirs = d.dirs.flatMap fun c => [c] :=
    List.flatMap_congr fun c child => by rw [DirEntry.allDirs_eq, leaves c child]; rfl
  rw [DirEntry.idsBelow, flat, List.flatMap_singleton']

/-- A root `r` holding a file `g` and a directory `a`, which holds a file `f`. -/
def forkTree : MemNode :=
  .dir "r" [.dir "a" [.file "f" 2] false false, .file "g" 1] false false

/-- The diff of `forkTree` against the snapshot of a root holding an empty directory
`a` with id `2`: `a` keeps its id below the root, both files are new, and the output
is the next snapshot, which the store under a fixed random source reads back. -/
theorem fork_diff_reads_as_next_snapshot :
    ∃ S r, Snapshot.read "0 1 r\n0 2 r/a\n1 1 0 0 2 0 a\n1 0 0 0 1 1 r\n".toUTF8.toList = .ok S ∧
      S.root.idsBelow = [2] ∧ S.root.idsBelow.Nodup ∧ rootId ∉ S.root.idsBelow ∧
      forkTree.PlainBelow ∧ '\n' ∉ "r".toList ∧
      inventory memWalker {} { root := forkTree } .diff (DirEntry.root "r") (some S) = .ok r ∧
      (∃ scan, NextSnapshot {} { root := forkTree } "r" S r.output scan) ∧
      (Snapshot.readStored { words := fun _ => 0x40000000 } r.output.toUTF8.toList).1.isOk = true := by
  have checked : (Snapshot.read "0 1 r\n0 2 r/a\n1 1 0 0 2 0 a\n1 0 0 0 1 1 r\n".toUTF8.toList).toOption.any
      (fun S => S.root.dirs.map (·.id) == [2] && S.root.dirs.all (·.dirs.isEmpty) &&
        (inventory memWalker {} { root := forkTree } .diff (DirEntry.root "r") (some S)).toOption.any
          fun r => (Snapshot.readStored { words := fun _ => 0x40000000 } r.output.toUTF8.toList).1.isOk) =
      true := by
    decide +kernel
  obtain ⟨S, accepted, fits⟩ := Scan.exists_ok_of_toOption_any checked
  simp only [Bool.and_eq_true, beq_iff_eq, List.all_eq_true, List.isEmpty_iff] at fits
  obtain ⟨⟨ids, leaves⟩, diffs⟩ := fits
  obtain ⟨r, diffed, storedOk⟩ := Scan.exists_ok_of_toOption_any diffs
  -- The snapshot's root holds `a` alone, itself empty: the one id below the root is `2`.
  have below : S.root.idsBelow = [2] := by rw [DirEntry.idsBelow_of_leaves leaves, ids]
  have distinct : S.root.idsBelow.Nodup := by rw [below]; decide
  have apart : rootId ∉ S.root.idsBelow := by rw [below]; decide
  have plain : forkTree.PlainBelow := by decide
  exact ⟨S, r, accepted, below, distinct, apart, plain, by decide, diffed,
    diff_reads_as_next_snapshot accepted distinct apart plain (by decide) diffed, storedOk⟩

/-- A snapshot the reader accepts, whose root has id `5` and whose directory `a` has the
root's id `1`: a diff of `pairTree` gives the live root id `1` and keeps id `1` for `a`,
so its output declares id `1` twice and does not read back. -/
theorem diff_repeats_root_id :
    ∃ S, Snapshot.read "0 5 r\n0 1 r/a\n1 5 0 0 1 0 a\n1 0 0 0 5 1 r\n".toUTF8.toList = .ok S ∧
      ∃ r, inventory memWalker {} { root := pairTree } .diff (DirEntry.root "r") (some S) = .ok r ∧
        ∃ err, Snapshot.read r.output.toUTF8.toList = .error err := by
  have checked : (Snapshot.read "0 5 r\n0 1 r/a\n1 5 0 0 1 0 a\n1 0 0 0 5 1 r\n".toUTF8.toList).toOption.any
      (fun S => (inventory memWalker {} { root := pairTree } .diff (DirEntry.root "r") (some S)).toOption.any
        fun r => !(Snapshot.read r.output.toUTF8.toList).isOk) = true := by
    decide +kernel
  obtain ⟨S, accepted, diffs⟩ := Scan.exists_ok_of_toOption_any checked
  obtain ⟨r, diffed, unread⟩ := Scan.exists_ok_of_toOption_any diffs
  exact ⟨S, accepted, r, diffed, Scan.exists_error_of_isOk (by simpa using unread)⟩

end TreeDump
