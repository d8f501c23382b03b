import Mathlib
import TreeDump.Proofs.ScanSteps
import TreeDump.Proofs.Order
import TreeDump.Proofs.Tree

/-!
The tree a scan builds.

Owns: what reading, merging and entering do to a directory's entry, and the
invariant that a scan carries down the tree (`Scanned`): every directory it builds
is sound, keeps the name, id and position it was entered with, and the ids below
it are fresh ids of the scan or ids of the baseline below its baseline directory,
each at most once.

From it, the tree of a whole scan is replayable when the baseline's ids are
distinct, positive, below the first fresh id and apart from the root's id.
-/

namespace TreeDump

open Wire

/-- The name of an item of a listing. -/
def Item.name : Item → String
  | .dir name => name
  | .file name _ => name

theorem lt_of_addWithin_eq_ok {range a b total : Nat} (added : addWithin range a b = .ok total) :
    total < range := by
  unfold addWithin at added
  split at added
  · rename_i fits
    cases added
    exact fits
  · cases added

/-- Every term of a sum that fits is below the bound. -/
theorem lt_of_sumWithin_eq_ok {range total : Nat} {xs : List Nat}
    (summed : sumWithin range xs = .ok total) : ∀ x ∈ xs, x < range := by
  intro x member
  unfold sumWithin addWithin at summed
  split at summed
  · rename_i fits
    have below := List.le_sum_of_mem member
    rw [List.sum_eq_foldl_nat] at below
    omega
  · cases summed

/-- A directory as a listing gives it: nothing below it read yet, and its fields
within their words. -/
structure DirEntry.Blank (d : DirEntry) : Prop where
  noDirs : d.dirs = []
  noFiles : d.files = []
  itemsFit : d.items < idRange
  sizeFits : d.size < sizeRange
  fidFits : d.fid < idRange
  nameNoBreak : '\n' ∉ d.name.toList

/-- A blank directory with an id in its word is a sound tree of one directory. -/
theorem DirEntry.Blank.sound {d : DirEntry} (blank : d.Blank) (idPos : d.id ≠ 0)
    (idFits : d.id < idRange) : ∀ e ∈ d.allDirs, e.Sound := by
  intro e member
  rw [allDirs_eq, blank.noDirs, List.flatMap_nil, List.mem_singleton] at member
  subst member
  exact { idPos, idFits, fidFits := blank.fidFits, sizeFits := blank.sizeFits,
          itemsFits := blank.itemsFit, nameNoBreak := blank.nameNoBreak,
          dirsSorted := by simp [blank.noDirs], filesSorted := by simp [blank.noFiles],
          filesFit := by simp [blank.noFiles] }

/-- A directory with its id set aside: what merging with a baseline keeps. -/
def DirEntry.withoutId (d : DirEntry) : DirEntry := { d with id := 0 }

/-- The ids of the directories strictly below a directory. -/
def DirEntry.idsBelow (d : DirEntry) : List Nat := (d.dirs.flatMap DirEntry.allDirs).map (·.id)

/-- The child directories of a baseline directory, if there is one. -/
def baselineDirs : Option DirEntry → List DirEntry
  | none => []
  | some o => o.dirs

/-- The ids strictly below a baseline directory, if there is one. -/
def baselineIds (old : Option DirEntry) : List Nat :=
  ((baselineDirs old).flatMap DirEntry.allDirs).map (·.id)

theorem DirEntry.Blank.idsBelow {d : DirEntry} (blank : d.Blank) : d.idsBelow = [] := by
  simp [DirEntry.idsBelow, blank.noDirs]

/-- The baseline ids a walk over children hands to the first child and to the
others. -/
theorem baselineIds_head_append_tail (baselines : List (Option DirEntry)) :
    baselineIds baselines.head?.join ++ baselines.tail.flatMap baselineIds =
      baselines.flatMap baselineIds := by
  cases baselines with
  | nil => simp [baselineIds, baselineDirs]
  | cons b bs => simp

/-- Two consecutive runs of ids make one run. -/
theorem range'_sub_append {a b c : Nat} (ab : a ≤ b) (bc : b ≤ c) :
    List.range' a (b - a) ++ List.range' b (c - b) = List.range' a (c - a) := by
  obtain ⟨m, rfl⟩ := Nat.exists_eq_add_of_le ab
  obtain ⟨n, rfl⟩ := Nat.exists_eq_add_of_le bc
  rw [show a + m + n - a = m + n by omega, show a + m - a = m by omega,
    show a + m + n - (a + m) = n by omega, List.range'_append_1]

/-- Two consecutive runs of fresh ids, each with ids carried beside it, make one
run with both lots carried. -/
theorem perm_range'_append {a b c : Nat} (ab : a ≤ b) (bc : b ≤ c)
    {first second carried carried' : List Nat}
    (firstPerm : first.Perm (List.range' a (b - a) ++ carried))
    (secondPerm : second.Perm (List.range' b (c - b) ++ carried')) :
    (first ++ second).Perm (List.range' a (c - a) ++ (carried ++ carried')) := by
  rw [← range'_sub_append ab bc, List.append_assoc]
  refine (firstPerm.append secondPerm).trans ?_
  rw [List.append_assoc]
  exact (List.perm_append_comm_assoc _ _ _).append_left _

theorem DirEntry.Blank.of_withoutId {c e : DirEntry} (same : c.withoutId = e.withoutId)
    (blank : e.Blank) : c.Blank := by
  have fields := congrArg (fun d => (d.dirs, d.files, d.items, d.size, d.fid, d.name)) same
  simp only [DirEntry.withoutId, Prod.mk.injEq] at fields
  obtain ⟨dirs, files, items, size, fid, name⟩ := fields
  exact ⟨dirs.trans blank.noDirs, files.trans blank.noFiles, items ▸ blank.itemsFit,
    size ▸ blank.sizeFits, fid ▸ blank.fidFits, name ▸ blank.nameNoBreak⟩

/-- The ids of a list of trees: the roots' ids and the ids below each root. -/
theorem flatMap_allDirs_ids_perm (ds : List DirEntry) :
    ((ds.flatMap DirEntry.allDirs).map (·.id)).Perm
      (ds.map (·.id) ++ ds.flatMap DirEntry.idsBelow) := by
  induction ds with
  | nil => simp
  | cons c cs inductionHypothesis =>
      rw [List.flatMap_cons, List.map_append, DirEntry.allDirs_eq, List.map_cons, List.map_cons,
        List.flatMap_cons, List.cons_append, List.cons_append]
      refine List.Perm.cons _ ?_
      exact (List.Perm.append_left c.idsBelow inductionHypothesis).trans
        (List.perm_append_comm_assoc _ _ _)

theorem flatMap_baselineIds (baselines : List (Option DirEntry)) :
    baselines.flatMap baselineIds = (baselines.filterMap id).flatMap DirEntry.idsBelow := by
  induction baselines with
  | nil => rfl
  | cons b bs inductionHypothesis =>
      cases b <;> simp [baselineIds, baselineDirs, DirEntry.idsBelow, inductionHypothesis]

/-- Baseline directories matched among the children of the baseline directory
carry ids below it, each at most once. -/
theorem matched_ids_subperm {old : Option DirEntry} {matched : List DirEntry}
    (sub : matched.Sublist (baselineDirs old)) :
    (matched.map (·.id) ++ matched.flatMap DirEntry.idsBelow).Subperm (baselineIds old) :=
  (flatMap_allDirs_ids_perm matched).symm.subperm.trans
    ((sub.flatMap DirEntry.allDirs).map (·.id)).subperm

/-- A walker whose states satisfying `good` stay so under every move, and list only
names without a line break. -/
structure Walker.PlainNames {σ : Type} (walker : Walker σ) (good : σ → Prop) : Prop where
  list : ∀ w n, good w → good (walker.list w n).1
  names : ∀ w n, good w → ∀ item ∈ (walker.list w n).2, '\n' ∉ item.name.toList
  enter : ∀ w n w', good w → walker.enter w n = some w' → good w'
  leave : ∀ w w', good w → walker.leave w = .ok w' → good w'

namespace Scan

variable {σ : Type} {walker : Walker σ} {good : σ → Prop}

/-! ### Reading a directory -/

theorem Item.mem_dirEntries {items : List Item} {e : DirEntry}
    (member : e ∈ items.filterMap Item.dirEntry?) : ∃ item ∈ items, e = { name := item.name } := by
  obtain ⟨item, listed, found⟩ := List.mem_filterMap.mp member
  cases item <;> simp only [Item.dirEntry?, reduceCtorEq, Option.some.injEq] at found
  exact ⟨_, listed, found.symm⟩

theorem Item.mem_fileEntries {items : List Item} {f : FileEntry}
    (member : f ∈ items.filterMap Item.fileEntry?) : ∃ item ∈ items, f.name = item.name := by
  obtain ⟨item, listed, found⟩ := List.mem_filterMap.mp member
  cases item <;> simp only [Item.fileEntry?, reduceCtorEq, Option.some.injEq] at found
  exact ⟨_, listed, by rw [← found]; rfl⟩


/-- What reading a directory that holds nothing yet leaves. -/
structure ReadDir (good : σ → Prop) (d d₁ : DirEntry) (s s₁ : ScanState σ) : Prop where
  name : d₁.name = d.name
  id : d₁.id = d.id
  fid : d₁.fid = d.fid
  start : s₁.batchStart = s.ids.next
  childIds : d₁.dirs.map (·.id) = List.range' s.ids.next d₁.dirs.length
  supply : s₁.ids.next = s.ids.next + d₁.dirs.length
  children : ∀ c ∈ d₁.dirs, c.Blank ∧ c.id + 1 < idRange
  dirsSorted : d₁.dirs.Pairwise (fun a b => a.name ≤ b.name)
  filesSorted : d₁.files.Pairwise (fun a b => a.name ≤ b.name)
  filesFit : ∀ f ∈ d₁.files, f.fid < idRange ∧ f.size < sizeRange ∧ '\n' ∉ f.name.toList
  items : d₁.items < idRange
  walker : good s₁.walker

theorem readDir_spec (plain : walker.PlainNames good) {limits : Limits} {firstFresh : Nat}
    {d d₁ : DirEntry} {s s₁ : ScanState σ}
    (h : (readDir walker limits firstFresh d).run s = .ok (d₁, s₁))
    (blank : d.dirs = [] ∧ d.files = []) (items : d.items < idRange) (goodNow : good s.walker) :
    ReadDir good d d₁ s s₁ := by
  unfold readDir at h
  rw [run_modify_bind] at h
  split at h
  · -- Past `maxDirs`: the directory is not read.
    rw [run_count_bind, run_pure_eq_ok] at h
    obtain ⟨rfl, rfl⟩ := h
    obtain ⟨noDirs, noFiles⟩ := blank
    exact { name := rfl, id := rfl, fid := rfl, start := rfl, childIds := by simp [noDirs],
            supply := by simp [noDirs], children := by simp [noDirs],
            dirsSorted := by simp [noDirs], filesSorted := by simp [noFiles],
            filesFit := by simp [noFiles], items := items, walker := goodNow }
  · rw [run_bind_eq_ok] at h
    obtain ⟨kept, s₂, listed, h⟩ := h
    rw [run_listChildren, Except.ok.injEq, Prod.mk.injEq] at listed
    obtain ⟨rfl, rfl⟩ := listed
    rw [run_get_bind, run_bind_eq_ok] at h
    obtain ⟨⟨d₂, ids₂⟩, s₃, ordered, h⟩ := h
    rw [run_checked_eq_ok] at ordered
    obtain ⟨ordered, rfl⟩ := ordered
    dsimp only at h
    rw [run_modify_bind, run_bind_eq_ok] at h
    obtain ⟨size, s₄, summed, h⟩ := h
    rw [run_checked_eq_ok] at summed
    obtain ⟨summed, rfl⟩ := summed
    rw [run_bind_of_eq_ok (run_recordListing _ _), run_bind_eq_ok] at h
    obtain ⟨d₃, s₅, pruned, h⟩ := h
    rw [run_get_bind, run_bind_eq_ok] at h
    obtain ⟨bytes, s₆, added, h⟩ := h
    rw [run_checked_eq_ok] at added
    obtain ⟨-, rfl⟩ := added
    rw [run_count_bind, run_pure_eq_ok] at h
    obtain ⟨rfl, rfl⟩ := h
    obtain ⟨walkerKept, startKept, prunedOrKept⟩ := pruneIfRepeats_eq_ok pruned
    obtain ⟨sameName, sameId, sameFid, -, shape, childIds, supply, childFits, fileShape, fileFits,
      itemsFit⟩ := orderChildren_eq_ok ordered
    dsimp only at walkerKept startKept sameName sameId sameFid shape childIds supply fileShape
    obtain ⟨noDirs, noFiles⟩ := blank
    rw [noDirs, List.nil_append] at shape
    rw [noFiles, List.nil_append] at fileShape
    have goodAfter : good (walker.list s.walker (limits.maxItems + 1)).1 := plain.list _ _ goodNow
    rcases prunedOrKept with ⟨rfl, idsBack⟩ | ⟨rfl, idsKept⟩
    · -- Pruned: the children are dropped and their ids handed back.
      dsimp only at idsBack
      exact { name := sameName, id := sameId, fid := sameFid, start := startKept,
              childIds := by simp, supply := by simp [idsBack],
              children := by simp, dirsSorted := by simp, filesSorted := by simp,
              filesFit := by simp, items := by show 0 < idRange; decide, walker := walkerKept ▸ goodAfter }
    · dsimp only at idsKept
      -- Every child comes from the listing, which names nothing with a line break.
      have listedName : ∀ item ∈ (walker.list s.walker (limits.maxItems + 1)).2.take limits.maxItems,
          '\n' ∉ item.name.toList := fun item listed =>
        plain.names _ _ goodNow item (List.mem_of_mem_take listed)
      have dirNames : d₂.dirs.map DirEntry.name = ((List.filterMap Item.dirEntry?
          ((walker.list s.walker (limits.maxItems + 1)).2.take limits.maxItems)).mergeSort DirEntry.nameLe).map
            DirEntry.name := by
        have names := congrArg (List.map DirEntry.name) shape
        rw [List.map_map, List.map_map] at names
        exact names
      have fileNames : d₂.files.map FileEntry.name = ((List.filterMap Item.fileEntry?
          ((walker.list s.walker (limits.maxItems + 1)).2.take limits.maxItems)).mergeSort FileEntry.nameLe).map
            FileEntry.name := by
        have names := congrArg (List.map Prod.fst) fileShape
        rw [List.map_map, List.map_map] at names
        exact names
      refine { name := sameName, id := sameId, fid := sameFid, start := startKept,
               childIds := childIds, supply := by rw [idsKept, supply], children := ?_,
               dirsSorted := ?_, filesSorted := ?_, filesFit := ?_, items := itemsFit,
               walker := walkerKept ▸ goodAfter }
      · intro c child
        obtain ⟨e, sorted, same⟩ := List.mem_map.mp
          (shape ▸ List.mem_map_of_mem (f := DirEntry.unnumbered) child)
        obtain ⟨item, listed, rfl⟩ := Item.mem_dirEntries (List.mem_mergeSort.mp sorted)
        have fields := congrArg (fun e => (e.dirs, e.files, e.items, e.size, e.name)) same
        simp only [DirEntry.dirs_unnumbered, DirEntry.files_unnumbered, DirEntry.items_unnumbered,
          DirEntry.size_unnumbered, DirEntry.name_unnumbered, Prod.mk.injEq] at fields
        obtain ⟨noDirs, noFiles, noItems, noSize, sameName⟩ := fields
        refine ⟨⟨noDirs.symm, noFiles.symm, ?_, ?_, (childFits c child).1,
          sameName ▸ listedName item listed⟩, (childFits c child).2⟩
        · rw [← noItems]
          decide
        · rw [← noSize]
          decide
      · exact List.pairwise_map.mp (dirNames ▸ List.pairwise_map.mpr (pairwise_name_mergeSort_dirs _))
      · exact List.pairwise_map.mp (fileNames ▸ List.pairwise_map.mpr (pairwise_name_mergeSort_files _))
      · intro f file
        obtain ⟨g, sorted, same⟩ := List.mem_map.mp (fileNames ▸ List.mem_map_of_mem file)
        obtain ⟨item, listed, named⟩ := Item.mem_fileEntries (List.mem_mergeSort.mp sorted)
        exact ⟨fileFits f file, lt_of_sumWithin_eq_ok summed _ (List.mem_map_of_mem file),
          same ▸ named ▸ listedName item listed⟩

/-- What reading a directory that holds nothing yet leaves, whatever names the
walker lists: the directory's name, id and position kept, its child directories
numbered from the supply with nothing below them, and neither the patch nor the
dump written. -/
structure Numbered (d d₁ : DirEntry) (s s₁ : ScanState σ) : Prop where
  name : d₁.name = d.name
  id : d₁.id = d.id
  fid : d₁.fid = d.fid
  start : s₁.batchStart = s.ids.next
  childIds : d₁.dirs.map (·.id) = List.range' s.ids.next d₁.dirs.length
  supply : s₁.ids.next = s.ids.next + d₁.dirs.length
  childFits : ∀ c ∈ d₁.dirs, c.id + 1 < idRange
  childrenEmpty : ∀ c ∈ d₁.dirs, c.dirs = [] ∧ c.files = []
  childrenUnread : ∀ c ∈ d₁.dirs, c.items = 0
  patch : s₁.patch = s.patch
  dump : s₁.dump = s.dump

/-- The children a listing gives hold nothing and count no child. -/
theorem Item.empty_of_mem_dirEntries {items : List Item} {e : DirEntry}
    (member : e ∈ items.filterMap Item.dirEntry?) : e.dirs = [] ∧ e.files = [] ∧ e.items = 0 := by
  obtain ⟨item, -, rfl⟩ := Item.mem_dirEntries member
  exact ⟨rfl, rfl, rfl⟩

theorem readDir_numbered {limits : Limits} {firstFresh : Nat} {d d₁ : DirEntry}
    {s s₁ : ScanState σ} (h : (readDir walker limits firstFresh d).run s = .ok (d₁, s₁))
    (empty : d.dirs = [] ∧ d.files = []) : Numbered d d₁ s s₁ := by
  obtain ⟨start, patch, dump, outcome⟩ := readDir_eq_ok h
  rcases outcome with ⟨-, rfl, -, ids, -, -⟩ | ⟨-, -, -, ordered, ids, size, orderedEq, -, kept⟩
  · -- Past `maxDirs`: the directory stays empty.
    exact { name := rfl, id := rfl, fid := rfl, start, childIds := by simp [empty.1],
            supply := by simp [ids, empty.1], childFits := by simp [empty.1],
            childrenEmpty := by simp [empty.1], childrenUnread := by simp [empty.1], patch, dump }
  · obtain ⟨sameName, sameId, sameFid, -, shape, childIds, supply, childFits, -, -, -⟩ :=
      orderChildren_eq_ok orderedEq
    have childrenBlank : ∀ c ∈ ordered.dirs, c.dirs = [] ∧ c.files = [] ∧ c.items = 0 := by
      intro c child
      obtain ⟨e, sorted, same⟩ := List.mem_map.mp
        (shape ▸ List.mem_map_of_mem (f := DirEntry.unnumbered) child)
      have listed : e ∈ (walker.kept limits s.walker).filterMap Item.dirEntry? := by
        simpa [DirEntry.withListing, empty.1] using List.mem_mergeSort.mp sorted
      have fields := congrArg (fun e => (e.dirs, e.files, e.items)) same
      simp only [DirEntry.dirs_unnumbered, DirEntry.files_unnumbered, DirEntry.items_unnumbered,
        Prod.mk.injEq] at fields
      rw [← fields.1, ← fields.2.1, ← fields.2.2]
      exact Item.empty_of_mem_dirEntries listed
    rcases kept with ⟨-, rfl, idsKept, -⟩ | ⟨-, rfl, idsBack, -⟩
    · exact { name := sameName, id := sameId, fid := sameFid, start, childIds,
              supply := by rw [idsKept, supply], childFits := fun c child => (childFits c child).2,
              childrenEmpty := fun c child => ⟨(childrenBlank c child).1, (childrenBlank c child).2.1⟩,
              childrenUnread := fun c child => (childrenBlank c child).2.2, patch, dump }
    · -- Pruned: the children are dropped and their ids handed back.
      exact { name := sameName, id := sameId, fid := sameFid, start, childIds := by simp,
              supply := by simp [idsBack], childFits := by simp, childrenEmpty := by simp,
              childrenUnread := by simp, patch, dump }

/-! ### Merging with the baseline -/

theorem mergeDir_live_eq_ok {path : String} {d c : DirEntry} {r : Option (DirEntry × Option DirEntry)}
    {s s' : ScanState σ} (h : (mergeDir path d (.live c)).run s = .ok (r, s')) :
    r = some ({ c with id := s.ids.next }, none) ∧ s.ids.next + 1 < idRange ∧
      s'.ids.next = s.ids.next + 1 ∧ s'.walker = s.walker ∧ s'.batchStart = s.batchStart ∧
      s'.dump = s.dump ∧ s'.stats = s.stats := by
  unfold mergeDir at h
  rw [run_bind_eq_ok] at h
  obtain ⟨id, s₁, taken, h⟩ := h
  obtain ⟨room, rfl, rfl⟩ := run_takeId_eq_ok taken
  dsimp only at h
  rw [run_bind_of_eq_ok (run_announce _), run_emit_bind, run_pure_eq_ok] at h
  obtain ⟨rfl, rfl⟩ := h
  exact ⟨rfl, room, rfl, rfl, rfl, rfl, rfl⟩

theorem mergeDir_old_eq_ok {path : String} {d b : DirEntry} {r : Option (DirEntry × Option DirEntry)}
    {s s' : ScanState σ} (h : (mergeDir path d (.old b)).run s = .ok (r, s')) :
    r = none ∧ s'.ids = s.ids ∧ s'.walker = s.walker ∧ s'.batchStart = s.batchStart ∧
      s'.dump = s.dump ∧ s'.stats = s.stats := by
  unfold mergeDir at h
  rw [run_bind_of_eq_ok (run_announce _), run_emitAll_bind, run_pure_eq_ok] at h
  obtain ⟨rfl, rfl⟩ := h
  exact ⟨rfl, rfl, rfl, rfl, rfl, rfl⟩

/-- What merging the pairs of child directories leaves: the live children in order
with only their ids changed, each matched one carrying its baseline directory and
its id, the others fresh ids handed out in order. -/
structure MergedDirs (pairs : List (Pairing DirEntry DirEntry))
    (kept : List (DirEntry × Option DirEntry)) (s s' : ScanState σ) : Prop where
  shape : kept.map (·.1.withoutId) = (pairs.filterMap Pairing.live?).map DirEntry.withoutId
  baselines : kept.filterMap (·.2) = pairs.filterMap Pairing.matched?
  ids : (kept.map (·.1.id)).Perm (List.range' s.ids.next (s'.ids.next - s.ids.next) ++
    (pairs.filterMap Pairing.matched?).map (·.id))
  fresh : ∀ p ∈ kept, (s.ids.next ≤ p.1.id ∧ p.1.id + 1 < idRange) ∨
    p.1.id ∈ (pairs.filterMap Pairing.matched?).map (·.id)
  supply : s.ids.next ≤ s'.ids.next
  walker : s'.walker = s.walker
  start : s'.batchStart = s.batchStart
  dump : s'.dump = s.dump
  stats : s'.stats = s.stats

theorem mergeDirs_spec {path : String} {d : DirEntry} :
    ∀ {pairs : List (Pairing DirEntry DirEntry)} {kept : List (DirEntry × Option DirEntry)}
      {s s' : ScanState σ}, (mergeDirs path d pairs).run s = .ok (kept, s') →
      MergedDirs pairs kept s s' := by
  intro pairs
  induction pairs with
  | nil =>
      intro kept s s' h
      rw [mergeDirs, run_pure_eq_ok] at h
      obtain ⟨rfl, rfl⟩ := h
      exact ⟨rfl, rfl, by simp, by simp, le_refl _, rfl, rfl, rfl, rfl⟩
  | cons pair pairs inductionHypothesis =>
      intro kept s s' h
      rw [mergeDirs, run_bind_eq_ok] at h
      obtain ⟨first, s₁, merged, h⟩ := h
      rw [run_bind_eq_ok] at h
      obtain ⟨rest, s₂, mergedRest, h⟩ := h
      rw [run_pure_eq_ok] at h
      obtain ⟨rfl, rfl⟩ := h
      have restSpec := inductionHypothesis mergedRest
      cases pair with
      | both c b =>
          -- A matched child keeps its baseline's id and takes no fresh one.
          rw [mergeDir, run_pure_eq_ok] at merged
          obtain ⟨rfl, rfl⟩ := merged
          refine ⟨?_, ?_, ?_, ?_, restSpec.supply, restSpec.walker, restSpec.start, restSpec.dump,
            restSpec.stats⟩
          · simp only [Option.toList, List.singleton_append, List.map_cons, List.filterMap_cons,
              Pairing.live?, restSpec.shape]
            rfl
          · simp [Pairing.matched?, restSpec.baselines]
          · simp only [Option.toList, List.singleton_append, List.map_cons, List.filterMap_cons,
              Pairing.matched?]
            exact (restSpec.ids.cons _).trans List.perm_middle.symm
          · intro p member
            simp only [Option.toList, List.singleton_append, List.mem_cons] at member
            simp only [List.filterMap_cons, Pairing.matched?, List.map_cons, List.mem_cons]
            rcases member with rfl | member
            · exact .inr (.inl rfl)
            · exact (restSpec.fresh p member).imp_right .inr
      | live c =>
          -- A new child takes the next fresh id.
          obtain ⟨rfl, room, next, walker, start, dump, stats⟩ := mergeDir_live_eq_ok merged
          have restSupply := restSpec.supply
          have count : s'.ids.next - s.ids.next = (s'.ids.next - s₁.ids.next) + 1 := by omega
          refine ⟨?_, ?_, ?_, ?_, by omega, restSpec.walker.trans walker,
            restSpec.start.trans start, restSpec.dump.trans dump, restSpec.stats.trans stats⟩
          · simp only [Option.toList, List.singleton_append, List.map_cons, List.filterMap_cons,
              Pairing.live?, restSpec.shape]
            rfl
          · simp [List.filterMap_cons, restSpec.baselines]
          · simp only [Option.toList, List.singleton_append, List.map_cons, List.filterMap_cons,
              Pairing.matched?]
            rw [count, List.range'_succ, List.cons_append, ← next]
            exact restSpec.ids.cons _
          · intro p member
            simp only [Option.toList, List.singleton_append, List.mem_cons] at member
            simp only [List.filterMap_cons, Pairing.matched?]
            rcases member with rfl | member
            · exact .inl ⟨le_refl _, room⟩
            · exact (restSpec.fresh p member).imp_left fun fresh => ⟨by have := fresh.1; omega, fresh.2⟩
      | old b =>
          -- A vanished child is dropped, and takes no id.
          obtain ⟨rfl, ids, walker, start, dump, stats⟩ := mergeDir_old_eq_ok merged
          have restIds := restSpec.ids
          have restFresh := restSpec.fresh
          rw [ids] at restIds restFresh
          refine ⟨?_, ?_, ?_, ?_, ids ▸ restSpec.supply, restSpec.walker.trans walker,
            restSpec.start.trans start, restSpec.dump.trans dump, restSpec.stats.trans stats⟩
          · simp [List.filterMap_cons, restSpec.shape]
          · simp [List.filterMap_cons, restSpec.baselines]
          · simpa [List.filterMap_cons] using restIds
          · simpa [List.filterMap_cons] using restFresh


/-- What merging a read directory with its baseline directory leaves: only the
child directories change, and only in their ids; the children's baseline
directories are distinct children of the baseline; every child id is fresh from
the start of the batch or carried from its baseline directory. -/
structure Merged (old : Option DirEntry) (d d₂ : DirEntry) (baselines : List (Option DirEntry))
    (s s₂ : ScanState σ) : Prop where
  same : d₂ = { d with dirs := d₂.dirs }
  shape : d₂.dirs.map DirEntry.withoutId = d.dirs.map DirEntry.withoutId
  aligned : baselines.length = d₂.dirs.length
  matched : (baselines.filterMap id).Sublist (baselineDirs old)
  ids : (d₂.dirs.map (·.id)).Perm (List.range' s.batchStart (s₂.ids.next - s.batchStart) ++
    (baselines.filterMap id).map (·.id))
  fresh : ∀ c ∈ d₂.dirs,
    (s.batchStart ≤ c.id ∧ c.id < idRange) ∨ c.id ∈ (baselineDirs old).map (·.id)
  supply : s.batchStart ≤ s₂.ids.next
  walker : s₂.walker = s.walker
  start : s₂.batchStart = s.batchStart
  dump : s₂.dump = s.dump
  stats : s₂.stats = s.stats

theorem merge_spec {path : String} {old : Option DirEntry} {d d₂ : DirEntry}
    {baselines : List (Option DirEntry)} {s s₂ : ScanState σ}
    (h : (merge path old d).run s = .ok ((d₂, baselines), s₂))
    (childIds : d.dirs.map (·.id) = List.range' s.batchStart (s.ids.next - s.batchStart))
    (childFits : ∀ c ∈ d.dirs, c.id < idRange) (started : s.batchStart ≤ s.ids.next) :
    Merged old d d₂ baselines s s₂ := by
  cases old with
  | none =>
      -- Without a baseline every child keeps the fresh id it was read with.
      unfold merge at h
      rw [run_bind_eq_ok] at h
      obtain ⟨_, s₁, added, h⟩ := h
      rw [run_bind_eq_ok] at h
      obtain ⟨_, s₃, addedFiles, h⟩ := h
      obtain ⟨walker₁, ids₁, start₁, dump₁, stats₁⟩ := keeps_emitAll _ _ _ _ added
      obtain ⟨walker₃, ids₃, start₃, dump₃, stats₃⟩ := keeps_emitAll _ _ _ _ addedFiles
      rw [run_pure_eq_ok, Prod.mk.injEq] at h
      obtain ⟨⟨rfl, rfl⟩, rfl⟩ := h
      refine ⟨by cases d₂; rfl, rfl, by simp, by simp [baselineDirs], ?_, ?_, by rw [ids₃, ids₁]; exact started,
        walker₃.trans walker₁, start₃.trans start₁, dump₃.trans dump₁, stats₃.trans stats₁⟩
      · simp only [List.filterMap_map, Function.comp_def, id, List.filterMap_none, List.map_nil,
          List.append_nil, ids₃, ids₁]
        rw [childIds]
      · intro c child
        have listed : c.id ∈ List.range' s.batchStart (s.ids.next - s.batchStart) :=
          childIds ▸ List.mem_map_of_mem child
        exact .inl ⟨(List.mem_range'_1.mp listed).1, childFits c child⟩
  | some o =>
      -- With a baseline the fresh ids are handed out again, to the new children only.
      unfold merge at h
      rw [run_modify_bind, run_bind_eq_ok] at h
      obtain ⟨kept, s₁, mergedDirs, h⟩ := h
      rw [run_bind_eq_ok] at h
      obtain ⟨_, s₃, mergedFiles, h⟩ := h
      have spec := mergeDirs_spec mergedDirs
      obtain ⟨walker₃, ids₃, start₃, dump₃, stats₃⟩ := keeps_mergeFiles _ _ _ _ _ mergedFiles
      rw [run_pure_eq_ok, Prod.mk.injEq] at h
      obtain ⟨⟨rfl, rfl⟩, rfl⟩ := h
      have baselines : (kept.map (·.2)).filterMap id = (pairByName DirEntry.name DirEntry.name d.dirs o.dirs).filterMap Pairing.matched? := by
        rw [List.filterMap_map]
        exact spec.baselines
      refine ⟨rfl, ?_, by simp, ?_, ?_, ?_, ?_, walker₃.trans spec.walker, start₃.trans spec.start,
        dump₃.trans spec.dump, stats₃.trans spec.stats⟩
      · rw [List.map_map]
        exact spec.shape.trans (by rw [filterMap_live?_pairByName])
      · rw [baselines]
        exact filterMap_matched?_sublist _ _ _ _
      · rw [baselines, ids₃, List.map_map]
        exact spec.ids
      · intro c child
        obtain ⟨p, member, rfl⟩ := List.mem_map.mp child
        rcases spec.fresh p member with ⟨above, fits⟩ | carried
        · exact .inl ⟨above, by omega⟩
        · exact .inr (((filterMap_matched?_sublist _ _ _ _).map _).subset carried)
      · rw [ids₃]
        exact spec.supply

/-- Merging a directory as reading left it. -/
theorem Numbered.merged {d d₁ d₂ : DirEntry} {path : String} {old : Option DirEntry}
    {baselines : List (Option DirEntry)} {s s₁ s₂ : ScanState σ} (numbered : Numbered d d₁ s s₁)
    (h : (merge path old d₁).run s₁ = .ok ((d₂, baselines), s₂)) : Merged old d₁ d₂ baselines s₁ s₂ :=
  merge_spec h (by rw [numbered.childIds, numbered.start, numbered.supply, Nat.add_sub_cancel_left])
    (fun c child => by have := numbered.childFits c child; omega)
    (by rw [numbered.start, numbered.supply]; omega)

/-- Merging keeps the names of the child directories. -/
theorem Merged.names {old : Option DirEntry} {d d₂ : DirEntry} {baselines : List (Option DirEntry)}
    {s s₂ : ScanState σ} (merged : Merged old d d₂ baselines s s₂) :
    d₂.dirs.map (·.name) = d.dirs.map (·.name) := by
  have names := congrArg (List.map DirEntry.name) merged.shape
  simpa [List.map_map, Function.comp_def, DirEntry.withoutId] using names

/-- Merging keeps child directories that hold nothing so. -/
theorem Merged.empty_of_mem {old : Option DirEntry} {d d₂ : DirEntry}
    {baselines : List (Option DirEntry)} {s s₂ : ScanState σ} (merged : Merged old d d₂ baselines s s₂)
    (empty : ∀ c ∈ d.dirs, c.dirs = [] ∧ c.files = []) : ∀ c ∈ d₂.dirs, c.dirs = [] ∧ c.files = [] := by
  intro c child
  obtain ⟨e, read, same⟩ := List.mem_map.mp (merged.shape ▸ List.mem_map_of_mem child)
  have fields := congrArg (fun e => (e.dirs, e.files)) same
  simp only [DirEntry.withoutId, Prod.mk.injEq] at fields
  rw [← fields.1, ← fields.2]
  exact empty e read

/-! ### Entering the children -/

theorem leaveChild_eq_ok {path : String} {r : Unit} {s s' : ScanState σ}
    (h : (leaveChild walker path).run s = .ok (r, s')) :
    walker.leave s.walker = .ok s'.walker ∧ s'.ids = s.ids ∧ s'.batchStart = s.batchStart ∧
      s'.dump = s.dump ∧ s'.stats = s.stats ∧ s'.chain = s.chain.tail := by
  unfold leaveChild at h
  rw [run_get_bind] at h
  split at h
  · cases h
  · rename_i state left
    rw [run_set, Except.ok.injEq, Prod.mk.injEq] at h
    obtain ⟨-, rfl⟩ := h
    exact ⟨left, rfl, rfl, rfl, rfl, rfl⟩

/-- What a directory needs before it is scanned: it is blank with an id in its
word; the ids below its baseline directory are positive and below the first fresh
id, which is positive and within the word; the supply has reached the first fresh
id; and the walker is good. -/
structure Ready (good : σ → Prop) (firstFresh : Nat) (old : Option DirEntry) (d : DirEntry)
    (s : ScanState σ) : Prop where
  blank : d.Blank
  idPos : d.id ≠ 0
  idFits : d.id < idRange
  baseline : ∀ id ∈ baselineIds old, id ≠ 0 ∧ id < firstFresh
  firstPos : firstFresh ≠ 0
  firstFits : firstFresh ≤ idRange
  fresh : firstFresh ≤ s.ids.next
  walker : good s.walker

/-- What scanning a directory leaves: its name, id and position kept, every
directory of its tree sound, and the ids below it the fresh ids the supply moved
over, each once, together with ids carried from below its baseline directory,
each at most once. -/
structure Scanned (good : σ → Prop) (old : Option DirEntry) (d d' : DirEntry)
    (s s' : ScanState σ) : Prop where
  name : d'.name = d.name
  id : d'.id = d.id
  fid : d'.fid = d.fid
  sound : ∀ e ∈ d'.allDirs, e.Sound
  supply : s.ids.next ≤ s'.ids.next
  ids : ∃ carried : List Nat, carried.Subperm (baselineIds old) ∧
    d'.idsBelow.Perm (List.range' s.ids.next (s'.ids.next - s.ids.next) ++ carried)
  walker : good s'.walker

/-- What entering every child leaves: the children keep their names, ids and
positions, their trees are sound, and the ids below them are the fresh ids the
supply moved over, each once, together with ids carried from below their baseline
directories, each at most once. -/
structure EnteredAll (good : σ → Prop) (cs : List DirEntry) (baselines : List (Option DirEntry))
    (cs' : List DirEntry) (s s' : ScanState σ) : Prop where
  same : cs'.map (fun c => (c.name, c.id, c.fid)) = cs.map (fun c => (c.name, c.id, c.fid))
  sound : ∀ c ∈ cs', ∀ e ∈ c.allDirs, e.Sound
  supply : s.ids.next ≤ s'.ids.next
  ids : ∃ carried : List Nat, carried.Subperm (baselines.flatMap baselineIds) ∧
    (cs'.flatMap DirEntry.idsBelow).Perm
      (List.range' s.ids.next (s'.ids.next - s.ids.next) ++ carried)
  walker : good s'.walker

theorem enterAll_spec (plain : walker.PlainNames good)
    {visitChild : String → Option DirEntry → DirEntry → ScanM σ DirEntry} {firstFresh : Nat}
    (visitSpec : ∀ path b c c' (s s' : ScanState σ), Ready good firstFresh b c s →
      (visitChild path b c).run s = .ok (c', s') → Scanned good b c c' s s')
    {path parentName : String} (firstPos : firstFresh ≠ 0) (firstFits : firstFresh ≤ idRange) :
    ∀ {cs : List DirEntry} {baselines : List (Option DirEntry)}
      {result : List DirEntry × List (Option DirEntry)} {s s' : ScanState σ},
      (enterAll walker visitChild path parentName cs baselines).run s = .ok (result, s') →
      (∀ c ∈ cs, c.Blank ∧ c.id ≠ 0 ∧ c.id < idRange) →
      (∀ id ∈ baselines.flatMap baselineIds, id ≠ 0 ∧ id < firstFresh) →
      firstFresh ≤ s.ids.next → good s.walker → EnteredAll good cs baselines result.1 s s' := by
  intro cs
  induction cs with
  | nil =>
      intro baselines result s s' h _ _ _ goodNow
      rw [enterAll, run_pure_eq_ok] at h
      obtain ⟨rfl, rfl⟩ := h
      exact ⟨rfl, by simp, le_refl _, ⟨[], List.nil_subperm, by simp⟩, goodNow⟩
  | cons c cs inductionHypothesis =>
      intro baselines result s s' h children baselineFits fresh goodNow
      have headFits : ∀ id ∈ baselineIds baselines.head?.join, id ≠ 0 ∧ id < firstFresh :=
        fun id member => baselineFits id
          (baselineIds_head_append_tail baselines ▸ List.mem_append_left _ member)
      have tailFits : ∀ id ∈ baselines.tail.flatMap baselineIds, id ≠ 0 ∧ id < firstFresh :=
        fun id member => baselineFits id
          (baselineIds_head_append_tail baselines ▸ List.mem_append_right _ member)
      have restChildren := fun c' member => children c' (List.mem_cons_of_mem c member)
      obtain ⟨blank, idPos, idFits⟩ := children c List.mem_cons_self
      rw [enterAll] at h
      dsimp only at h
      rw [run_get_bind] at h
      split at h
      · -- The walker refused the child: it stays as listed, with nothing below it.
        rw [run_count_bind, run_bind_eq_ok] at h
        obtain ⟨⟨rest, pending⟩, s₁, restRun, h⟩ := h
        dsimp only at h
        rw [run_pure_eq_ok] at h
        obtain ⟨rfl, rfl⟩ := h
        have restSpec := inductionHypothesis restRun restChildren tailFits fresh goodNow
        obtain ⟨carried, within, perm⟩ := restSpec.ids
        refine ⟨by simp [restSpec.same], ?_, restSpec.supply, ⟨carried, ?_, ?_⟩, restSpec.walker⟩
        · intro e member
          rcases List.mem_cons.mp member with rfl | member
          · exact blank.sound idPos idFits
          · exact restSpec.sound e member
        · exact within.trans (baselineIds_head_append_tail baselines ▸
            (List.sublist_append_right _ _).subperm)
        · simpa [blank.idsBelow] using perm
      · -- The child was entered: it is scanned, and the walker moves back up.
        rename_i state entered
        rw [run_set_bind, run_bind_eq_ok] at h
        obtain ⟨c', s₁, visited, h⟩ := h
        rw [run_bind_eq_ok] at h
        obtain ⟨_, s₂, left, h⟩ := h
        rw [run_bind_eq_ok] at h
        obtain ⟨⟨rest, pending⟩, s₃, restRun, h⟩ := h
        dsimp only at h
        rw [run_pure_eq_ok] at h
        obtain ⟨rfl, rfl⟩ := h
        have childSpec := visitSpec _ _ _ _ _ _
          (by exact ⟨blank, idPos, idFits, headFits, firstPos, firstFits, fresh,
            plain.enter _ _ _ goodNow entered⟩) visited
        obtain ⟨leftOk, ids₂, -⟩ := leaveChild_eq_ok left
        have childSupply : s.ids.next ≤ s₁.ids.next := childSpec.supply
        have restSpec := inductionHypothesis restRun restChildren tailFits
          (by rw [ids₂]; omega) (plain.leave _ _ childSpec.walker leftOk)
        have restSupply := restSpec.supply
        rw [ids₂] at restSupply
        obtain ⟨carriedChild, childWithin, childPerm⟩ := childSpec.ids
        obtain ⟨carriedRest, restWithin, restPerm⟩ := restSpec.ids
        rw [ids₂] at restPerm
        refine ⟨?_, ?_, by omega,
          ⟨carriedChild ++ carriedRest, ?_, ?_⟩, restSpec.walker⟩
        · simp [childSpec.name, childSpec.id, childSpec.fid, restSpec.same]
        · intro e member
          rcases List.mem_cons.mp member with rfl | member
          · exact childSpec.sound
          · exact restSpec.sound e member
        · rw [← baselineIds_head_append_tail baselines]
          exact childWithin.append restWithin
        · rw [List.flatMap_cons]
          exact perm_range'_append childSupply restSupply childPerm restPerm
/-! ### Scanning a directory -/

section Scanning

variable {firstFresh : Nat} {old : Option DirEntry} {d d₁ d₂ : DirEntry}
  {baselines : List (Option DirEntry)} {s s₁ s₂ : ScanState σ}

/-- The baseline directories merged with the children of a ready directory lie below its
baseline, so their ids fit below the first fresh id. -/
theorem Merged.baselinesFit (ready : Ready good firstFresh old d s)
    (mergeSpec : Merged old d₁ d₂ baselines s₁ s₂) :
    ∀ id ∈ baselines.flatMap baselineIds, id ≠ 0 ∧ id < firstFresh := by
  intro id member
  rw [flatMap_baselineIds] at member
  exact ready.baseline id
    ((matched_ids_subperm mergeSpec.matched).subset (List.mem_append_right _ member))

/-- The children of a ready directory, read and merged, are ready in turn: they hold
nothing, and each id is either fresh or carried from the baseline. -/
theorem Merged.childrenReady (ready : Ready good firstFresh old d s) (readSpec : ReadDir good d d₁ s s₁)
    (mergeSpec : Merged old d₁ d₂ baselines s₁ s₂) :
    ∀ c ∈ d₂.dirs, c.Blank ∧ c.id ≠ 0 ∧ c.id < idRange := by
  intro c child
  obtain ⟨e, read, same⟩ := List.mem_map.mp (mergeSpec.shape ▸ List.mem_map_of_mem child)
  refine ⟨(readSpec.children e read).1.of_withoutId same.symm, ?_⟩
  rcases mergeSpec.fresh c child with ⟨above, fits⟩ | carried
  · have := ready.firstPos
    have := ready.fresh
    have := readSpec.start
    have := readSpec.supply
    exact ⟨by omega, fits⟩
  · obtain ⟨b, baselineChild, same⟩ := List.mem_map.mp carried
    have fits := ready.baseline b.id
      (List.mem_map_of_mem (DirEntry.mem_flatMap_allDirs_of_mem baselineChild))
    have := ready.firstFits
    exact ⟨same ▸ fits.1, by omega⟩

/-- A ready directory read (from `s` to `s₁`) and merged (to `s₂`), whose children were
then scanned (from `t`, where the ids stand as at `s₂`, to `s₃`), is scanned once its size
is summed: only its children and its size changed since reading. -/
theorem scanned_of_children {dirs : List DirEntry} {size : Nat} {t s₃ s' : ScanState σ}
    (ready : Ready good firstFresh old d s) (readSpec : ReadDir good d d₁ s s₁)
    (mergeSpec : Merged old d₁ d₂ baselines s₁ s₂)
    (enterSpec : EnteredAll good d₂.dirs baselines dirs t s₃) (opened : t.ids = s₂.ids)
    (summed : addWithin sizeRange d₂.size ((dirs.map (·.size)).foldl (· + ·) 0) = .ok size)
    (ids : s'.ids = s₃.ids) (walker : s'.walker = s₃.walker) :
    Scanned good old d { d₂ with dirs, size } s s' := by
  have nameKept : d₂.name = d.name := (congrArg DirEntry.name mergeSpec.same).trans readSpec.name
  have idKept : d₂.id = d.id := (congrArg DirEntry.id mergeSpec.same).trans readSpec.id
  have fidKept : d₂.fid = d.fid := (congrArg DirEntry.fid mergeSpec.same).trans readSpec.fid
  have itemsKept : d₂.items = d₁.items := (congrArg DirEntry.items mergeSpec.same :)
  have filesKept : d₂.files = d₁.files := (congrArg DirEntry.files mergeSpec.same :)
  have childNames : dirs.map DirEntry.name = d₁.dirs.map DirEntry.name := by
    have entered := congrArg (List.map Prod.fst) enterSpec.same
    have merged := congrArg (List.map DirEntry.name) mergeSpec.shape
    rw [List.map_map, List.map_map] at entered merged
    exact entered.trans merged
  have childIds : dirs.map (·.id) = d₂.dirs.map (·.id) := by
    have entered := congrArg (List.map fun c => c.2.1) enterSpec.same
    rw [List.map_map, List.map_map] at entered
    exact entered
  have soundSelf : DirEntry.Sound { d₂ with dirs, size } :=
    { idPos := idKept ▸ ready.idPos, idFits := idKept ▸ ready.idFits,
      fidFits := fidKept ▸ ready.blank.fidFits, sizeFits := lt_of_addWithin_eq_ok summed,
      itemsFits := itemsKept ▸ readSpec.items, nameNoBreak := nameKept ▸ ready.blank.nameNoBreak,
      dirsSorted := List.pairwise_map.mp
        (childNames ▸ List.pairwise_map.mpr readSpec.dirsSorted),
      filesSorted := filesKept ▸ readSpec.filesSorted,
      filesFit := filesKept ▸ readSpec.filesFit }
  -- the ids below: the fresh ids merging took, then those the children took or carried
  have mergeSupply := mergeSpec.supply
  have enterSupply := enterSpec.supply
  obtain ⟨carried, carriedWithin, carriedPerm⟩ := enterSpec.ids
  rw [opened] at enterSupply carriedPerm
  have mergedIds := mergeSpec.ids
  rw [readSpec.start] at mergedIds mergeSupply
  refine ⟨nameKept, idKept, fidKept, ?_, by rw [ids]; have := readSpec.supply; omega,
    ⟨(baselines.filterMap id).map (·.id) ++ carried, ?_, ?_⟩, by rw [walker]; exact enterSpec.walker⟩
  · intro e member
    rw [DirEntry.allDirs_eq, List.mem_cons] at member
    rcases member with rfl | below
    · exact soundSelf
    · obtain ⟨c, child, inside⟩ := List.mem_flatMap.mp below
      exact enterSpec.sound c child e inside
  · refine List.Subperm.trans ?_ (matched_ids_subperm mergeSpec.matched)
    rw [← flatMap_baselineIds]
    exact (List.Subperm.refl _).append carriedWithin
  · refine (flatMap_allDirs_ids_perm dirs).trans ?_
    rw [childIds, ids]
    exact perm_range'_append mergeSupply enterSupply mergedIds carriedPerm

end Scanning

/-- Scanning a ready directory builds a sound tree below it, keeps its name, id and
position, and uses below it the fresh ids the supply moves over, each once, and ids
carried from below its baseline directory, each at most once. -/
theorem visit_spec (plain : walker.PlainNames good) {limits : Limits} {firstFresh : Nat}
    (fuel : Nat) : ∀ {path : String} {old : Option DirEntry} {d d' : DirEntry}
      {s s' : ScanState σ}, Ready good firstFresh old d s →
      (visit walker limits firstFresh fuel path old d).run s = .ok (d', s') →
      Scanned good old d d' s s' := by
  induction fuel with
  | zero =>
      intro path old d d' s s' _ h
      rw [visit, run_throw] at h
      cases h
  | succ fuel inductionHypothesis =>
      intro path old d d' s s' ready h
      rw [visit, run_bind_eq_ok] at h
      obtain ⟨d₁, s₁, read, h⟩ := h
      have readSpec := readDir_spec plain read ⟨ready.blank.noDirs, ready.blank.noFiles⟩
        ready.blank.itemsFit ready.walker
      rw [run_bind_eq_ok] at h
      obtain ⟨⟨d₂, baselines⟩, s₂, merged, h⟩ := h
      dsimp only at h
      have readStart := readSpec.start
      have mergeSpec := merge_spec merged
        (by rw [readSpec.childIds, readStart, readSpec.supply, Nat.add_sub_cancel_left])
        (fun c child => by have := (readSpec.children c child).2; omega)
        (by have := readSpec.supply; omega)
      rw [run_bind_eq_ok] at h
      obtain ⟨_, s₂', opened, h⟩ := h
      obtain ⟨walkerOpened, idsOpened, -⟩ := dumpAll_eq_ok opened
      rw [run_bind_eq_ok] at h
      obtain ⟨⟨dirs, pending⟩, s₃, entered, h⟩ := h
      dsimp only at h
      -- the children are ready, and each is scanned as this directory is
      have enterSpec := enterAll_spec plain (fun _ _ _ _ _ _ => inductionHypothesis)
        ready.firstPos ready.firstFits entered (mergeSpec.childrenReady ready readSpec)
        (mergeSpec.baselinesFit ready)
        (by rw [idsOpened]; have := ready.fresh; have := mergeSpec.supply; omega)
        (by rw [walkerOpened, mergeSpec.walker]; exact readSpec.walker)
      rw [run_bind_eq_ok] at h
      obtain ⟨size, s₄, summed, h⟩ := h
      rw [run_checked_eq_ok] at summed
      obtain ⟨summed, rfl⟩ := summed
      rw [run_bind_eq_ok] at h
      obtain ⟨_, s₅, compared, h⟩ := h
      obtain ⟨walker₅, ids₅, -⟩ := keeps_compareChildren _ _ _ _ _ _ _ _ compared
      rw [run_bind_eq_ok] at h
      obtain ⟨_, s₆, closing, h⟩ := h
      obtain ⟨walker₆, ids₆, -⟩ := dumpAll_eq_ok closing
      rw [run_pure_eq_ok] at h
      obtain ⟨rfl, rfl⟩ := h
      exact scanned_of_children ready readSpec mergeSpec enterSpec idsOpened summed
        (ids₆.trans ids₅) (walker₆.trans walker₅)

/-! ### A whole scan -/

theorem except_map_eq_ok {ε α β : Type} {f : α → β} {x : Except ε α} {b : β}
    (h : x.map f = .ok b) : ∃ a, x = .ok a ∧ f a = b := by
  cases x with
  | error e => cases h
  | ok a =>
      cases h
      exact ⟨a, rfl, rfl⟩

/-- A check that a computation succeeds with a result passing `p`, read back. -/
theorem exists_ok_of_toOption_any {ε α : Type} {x : Except ε α} {p : α → Bool}
    (checked : x.toOption.any p = true) : ∃ a, x = .ok a ∧ p a = true := by
  cases x with
  | error e => simp [Except.toOption] at checked
  | ok a => exact ⟨a, rfl, checked⟩

theorem exists_error_of_isOk {ε α : Type} {x : Except ε α} (failed : x.isOk = false) :
    ∃ e, x = .error e := by
  cases x with
  | error e => exact ⟨e, rfl⟩
  | ok a => simp [Except.isOk, Except.toBool] at failed

/-- What a whole scan builds: a sound tree with the root's name, id and position,
whose ids below the root are fresh ids of the supply, each once, and ids carried
from below the baseline, each at most once. -/
structure Built (good : σ → Prop) (baseline : Option DirEntry) (root : DirEntry) (ids : IdSupply)
    (scan : Scan σ) : Prop where
  name : scan.tree.name = root.name
  id : scan.tree.id = root.id
  sound : ∀ e ∈ scan.tree.allDirs, e.Sound
  ids : ∃ (fresh : Nat) (carried : List Nat), carried.Subperm (baselineIds baseline) ∧
    scan.tree.idsBelow.Perm (List.range' ids.next fresh ++ carried)
  walker : good scan.walker

theorem run_spec (plain : walker.PlainNames good) {limits : Limits} {state : σ}
    {root : DirEntry} {baseline : Option DirEntry} {ids : IdSupply} {scan : Scan σ}
    (h : run walker limits state root baseline ids = .ok scan)
    (blank : root.Blank) (idPos : root.id ≠ 0) (idFits : root.id < idRange)
    (baselineFits : ∀ id ∈ baselineIds baseline, id ≠ 0 ∧ id < ids.next)
    (firstPos : ids.next ≠ 0) (firstFits : ids.next ≤ idRange) (goodNow : good state) :
    Built good baseline root ids scan := by
  unfold run at h
  obtain ⟨⟨tree, s'⟩, ran, rfl⟩ := except_map_eq_ok h
  rw [run_bind_eq_ok] at ran
  obtain ⟨_, s₁, opened, ran⟩ := ran
  obtain ⟨walker₁, ids₁, -⟩ := keeps_openRoot root baseline _ _ _ opened
  rw [run_bind_eq_ok] at ran
  obtain ⟨_, s₁', declared, ran⟩ := ran
  obtain ⟨walkerDeclared, idsDeclared, -⟩ := dumpAll_eq_ok declared
  rw [run_bind_eq_ok] at ran
  obtain ⟨d, s₂, visited, ran⟩ := ran
  have spec := visit_spec plain _ (by
    refine ⟨blank, idPos, idFits, baselineFits, firstPos, firstFits, ?_, ?_⟩
    · rw [idsDeclared, ids₁]
    · rw [walkerDeclared, walker₁]
      exact goodNow) visited
  rw [run_bind_eq_ok] at ran
  obtain ⟨_, s₃, closed, ran⟩ := ran
  obtain ⟨walker₃, -, -⟩ := keeps_closeRoot d baseline _ _ _ closed
  rw [run_bind_eq_ok] at ran
  obtain ⟨_, s₄, written, ran⟩ := ran
  obtain ⟨walker₄, -⟩ := dumpAll_eq_ok written
  rw [run_pure_eq_ok] at ran
  obtain ⟨rfl, rfl⟩ := ran
  obtain ⟨carried, within, perm⟩ := spec.ids
  rw [idsDeclared, ids₁] at perm
  refine ⟨spec.name, spec.id, spec.sound, ⟨_, carried, within, perm⟩, ?_⟩
  show good s'.walker
  rw [walker₄, walker₃]
  exact spec.walker

/-- A scan's tree is replayable when the ids below the baseline are distinct, apart
from the root's id and, with it, below the first fresh id. -/
theorem Built.replayable {baseline : Option DirEntry} {root : DirEntry} {ids : IdSupply}
    {scan : Scan σ} (built : Built good baseline root ids scan)
    (baselineNodup : (baselineIds baseline).Nodup) (rootApart : root.id ∉ baselineIds baseline)
    (rootBelow : root.id < ids.next) (baselineBelow : ∀ id ∈ baselineIds baseline, id < ids.next) :
    scan.tree.Replayable := by
  obtain ⟨fresh, carried, within, perm⟩ := built.ids
  have carriedNodup : carried.Nodup := by
    obtain ⟨l, same, sub⟩ := within
    exact (baselineNodup.sublist sub).perm same
  have belowNodup : (List.range' ids.next fresh ++ carried).Nodup := by
    refine List.nodup_append.mpr ⟨List.nodup_range', carriedNodup, ?_⟩
    intro a fromSupply b fromBaseline same
    have := (List.mem_range'_1.mp fromSupply).1
    have := baselineBelow b (within.subset fromBaseline)
    omega
  have rootNotBelow : scan.tree.id ∉ List.range' ids.next fresh ++ carried := by
    rw [built.id, List.mem_append]
    rintro (fromSupply | fromBaseline)
    · have := (List.mem_range'_1.mp fromSupply).1
      omega
    · exact rootApart (within.subset fromBaseline)
  refine ⟨?_, built.sound⟩
  rw [DirEntry.allDirs_eq, List.map_cons]
  exact List.nodup_cons.mpr ⟨fun below => rootNotBelow (perm.subset below),
    belowNodup.perm perm.symm⟩

end Scan

end TreeDump
