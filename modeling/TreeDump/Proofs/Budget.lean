import Mathlib
import TreeDump.Inventory
import TreeDump.Walkers.Memory
import TreeDump.Proofs.ScanTree
import TreeDump.Proofs.ScanErrors

/-!
What a scan reads, whatever the walker lists.

A walker may present a tree without end: a directory that holds itself again, or
a listing that never runs out. A scan still reads only so much of it:

* a listing reads at most `maxItems + 1` entries, and a directory is listed only
  if its place in the id order is within `maxDirs` (`readDir_directories`);
* the directories below the root carry the fresh ids the supply moved over, each
  once, and ids of the baseline, each at most once, although a pruned listing
  hands its ids back (`visit_walked`); so at most `maxDirs` listings are of the
  root and of directories with fresh ids, and at most one of each directory of the
  baseline (`run_directories_le`);
* below the root, a chain of directories first keeps baseline ids along a path of
  the baseline, then takes fresh ids, strictly increasing and below `idRange`; so
  no chain outgrows the depth budget, and the scan never stops for depth
  (`visit_ne_tooDeep`).

Main statement: `inventory_ends`: every inventory, over every walker and under
every limits, ends with its report, with a lost position or with an overflow, and
lists at most `maxDirs` directories, plus one for each directory of the previous
snapshot in a diff.
-/

namespace TreeDump

/-- Whether a scan lists the directory `d` once it enters it: its place in the id
order, with fresh ids counted from `firstFresh`, is within `maxDirs`. -/
def Limits.lists (limits : Limits) (firstFresh : Nat) (d : DirEntry) : Bool :=
  decide (ordinal firstFresh d.id ≤ limits.maxDirs)

theorem DirEntry.height_lt_of_mem {c d : DirEntry} (child : c ∈ d.dirs) :
    c.height < d.height := by
  cases d with
  | mk name size id fid items digest dirs files =>
      have := le_foldr_max (List.mem_map_of_mem (f := DirEntry.height) (show c ∈ dirs from child))
      rw [DirEntry.height]
      omega

theorem IdSupply.after_eq_ok {maxId : Nat} {ids : IdSupply} (h : IdSupply.after maxId = .ok ids) :
    ids.next = max maxId rootId + 1 := by
  unfold IdSupply.after addWithin at h
  split at h
  · cases h
    rfl
  · cases h

/-- Fresh ids from `firstFresh` on whose place in the id order is within `maxDirs`
are fewer than `maxDirs`: the root's place comes before them. -/
theorem countP_range'_ordinal_le (firstFresh count maxDirs : Nat) :
    (List.range' firstFresh count).countP (fun id => ordinal firstFresh id ≤ maxDirs) ≤
      maxDirs - 1 := by
  rw [List.countP_eq_length_filter]
  have within : (List.range' firstFresh count).filter (fun id => ordinal firstFresh id ≤ maxDirs) ⊆
      List.range' firstFresh (maxDirs - 1) := by
    intro id member
    rw [List.mem_filter] at member
    obtain ⟨fresh, listed⟩ := member
    have above := (List.mem_range'_1.mp fresh).1
    rw [ordinal, if_pos above, decide_eq_true_eq] at listed
    rw [List.mem_range'_1]
    omega
  simpa using ((List.Nodup.filter _ List.nodup_range').subperm within).length_le

/-- A tree rooted at the root id, whose ids below the root are fresh ids from
`firstFresh` on together with `carried`, has at most `maxDirs` directories that a
scan lists, besides those with carried ids. -/
theorem DirEntry.countP_lists_le (limits : Limits) {firstFresh fresh : Nat} {t : DirEntry}
    {carried : List Nat} (rootOne : t.id = rootId) (two : 2 ≤ firstFresh)
    (perm : t.idsBelow.Perm (List.range' firstFresh fresh ++ carried)) :
    t.allDirs.countP (limits.lists firstFresh) ≤ limits.maxDirs + carried.length := by
  have rootPlace : ordinal firstFresh t.id = 1 := by
    rw [ordinal, if_neg (by rw [rootOne, rootId]; omega), rootOne, rootId]
  have rootListed : (if limits.lists firstFresh t = true then 1 else 0) + (limits.maxDirs - 1) ≤
      limits.maxDirs := by
    simp only [Limits.lists, rootPlace, decide_eq_true_eq]
    split <;> omega
  have below : (t.dirs.flatMap allDirs).countP (limits.lists firstFresh) =
      t.idsBelow.countP (fun id => ordinal firstFresh id ≤ limits.maxDirs) := by
    rw [DirEntry.idsBelow, List.countP_map]
    rfl
  have freshListed := countP_range'_ordinal_le firstFresh fresh limits.maxDirs
  have carriedListed := List.countP_le_length (p := fun id => decide (ordinal firstFresh id ≤ limits.maxDirs)) (l := carried)
  rw [allDirs_eq, List.countP_cons, below, perm.countP_eq, List.countP_append]
  omega

namespace Scan

variable {σ : Type} {walker : Walker σ}

/-- Reading a directory counts one listing when the scan lists it, and none
otherwise. -/
theorem readDir_directories {limits : Limits} {firstFresh : Nat} {d d₁ : DirEntry}
    {s s₁ : ScanState σ} (h : (readDir walker limits firstFresh d).run s = .ok (d₁, s₁)) :
    s₁.stats.directories = s.stats.directories + if limits.lists firstFresh d then 1 else 0 := by
  obtain ⟨-, -, -, outcome⟩ := readDir_eq_ok h
  rcases outcome with ⟨past, -, -, -, -, counted⟩ | ⟨within, -, counted, -⟩
  · have unlisted : limits.lists firstFresh d = false := by
      simp only [Limits.lists, decide_eq_false_iff_not]
      omega
    rw [counted, unlisted]
    rfl
  · have listed : limits.lists firstFresh d = true := by
      simp only [Limits.lists, decide_eq_true_eq]
      exact within
    rw [counted, listed]
    rfl

/-- A directory that the scan lists stops the scan with an overflow of its size
when the files of its listing sum past the 64-bit word. -/
theorem readDir_size_overflow {limits : Limits} {firstFresh : Nat} {d ordered : DirEntry}
    {ids : IdSupply} {s : ScanState σ} (listed : ordinal firstFresh d.id ≤ limits.maxDirs)
    (numbered : (d.withListing (walker.kept limits s.walker)).orderChildren s.ids = .ok (ordered, ids))
    (beyond : sizeRange ≤
      ((d.withListing (walker.kept limits s.walker)).files.map (·.size)).foldl (· + ·) 0) :
    (readDir walker limits firstFresh d).run s = .error (.overflow .size) := by
  -- Sorting and numbering keep the files' sizes, so their sum.
  have sizes : (ordered.files.map (·.size)).Perm
      ((d.withListing (walker.kept limits s.walker)).files.map (·.size)) := by
    obtain ⟨-, -, -, -, -, -, -, -, files, -⟩ := orderChildren_eq_ok numbered
    have same := congrArg (List.map Prod.snd) files
    simp only [List.map_map] at same
    rw [show (Prod.snd ∘ fun f : FileEntry => (f.name, f.size)) = (·.size) from rfl] at same
    rw [same]
    exact (List.mergeSort_perm _ _).map _
  have summed : sumWithin sizeRange (ordered.files.map (·.size)) = .error .add := by
    unfold sumWithin
    rw [← List.sum_eq_foldl_nat] at beyond ⊢
    rw [sizes.sum_eq]
    exact addWithin_eq_error (by omega)
  unfold readDir
  rw [run_modify_bind, if_neg (Nat.not_lt.mpr listed),
    run_bind_of_eq_ok (run_listChildren walker limits _), run_get_bind]
  erw [numbered]
  rw [run_checked_ok_bind]
  dsimp only
  rw [run_modify_bind]
  erw [summed]
  rfl

/-! ### Ids and listings, whatever the names -/

/-- What scanning a directory leaves, whatever names the walker lists: its id kept,
the ids below it the fresh ids the supply moved over, each once, together with
ids carried from below its baseline directory, each at most once; and no more
listings read than its tree has directories the scan lists. -/
structure Walked (limits : Limits) (firstFresh : Nat) (old : Option DirEntry) (d d' : DirEntry)
    (s s' : ScanState σ) : Prop where
  id : d'.id = d.id
  supply : s.ids.next ≤ s'.ids.next
  ids : ∃ carried : List Nat, carried.Subperm (baselineIds old) ∧
    d'.idsBelow.Perm (List.range' s.ids.next (s'.ids.next - s.ids.next) ++ carried)
  listed : s'.stats.directories ≤ s.stats.directories + d'.allDirs.countP (limits.lists firstFresh)

/-- What entering every child leaves, whatever names the walker lists: the
children keep their ids, the ids below them are fresh ids of the supply, each
once, and ids carried from below their baseline directories, each at most once;
and no more listings read than their trees have directories the scan lists. -/
structure WalkedAll (limits : Limits) (firstFresh : Nat) (cs : List DirEntry)
    (baselines : List (Option DirEntry)) (cs' : List DirEntry) (s s' : ScanState σ) : Prop where
  childIds : cs'.map (·.id) = cs.map (·.id)
  supply : s.ids.next ≤ s'.ids.next
  ids : ∃ carried : List Nat, carried.Subperm (baselines.flatMap baselineIds) ∧
    (cs'.flatMap DirEntry.idsBelow).Perm
      (List.range' s.ids.next (s'.ids.next - s.ids.next) ++ carried)
  listed : s'.stats.directories ≤
    s.stats.directories + (cs'.flatMap DirEntry.allDirs).countP (limits.lists firstFresh)

theorem enterAll_walked {limits : Limits} {firstFresh : Nat}
    {visitChild : String → Option DirEntry → DirEntry → ScanM σ DirEntry}
    (visitWalked : ∀ path b c c' (t t' : ScanState σ), c.dirs = [] → c.files = [] →
      (visitChild path b c).run t = .ok (c', t') → Walked limits firstFresh b c c' t t')
    {path parentName : String} :
    ∀ {cs : List DirEntry} {baselines : List (Option DirEntry)}
      {result : List DirEntry × List (Option DirEntry)} {s s' : ScanState σ},
      (enterAll walker visitChild path parentName cs baselines).run s = .ok (result, s') →
      (∀ c ∈ cs, c.dirs = [] ∧ c.files = []) →
      WalkedAll limits firstFresh cs baselines result.1 s s' := by
  intro cs
  induction cs with
  | nil =>
      intro baselines result s s' h _
      rw [enterAll, run_pure_eq_ok] at h
      obtain ⟨rfl, rfl⟩ := h
      exact ⟨rfl, le_refl _, ⟨[], List.nil_subperm, by simp⟩, by simp⟩
  | cons c cs inductionHypothesis =>
      intro baselines result s s' h children
      obtain ⟨noDirs, noFiles⟩ := children c List.mem_cons_self
      have restChildren := fun c' member => children c' (List.mem_cons_of_mem c member)
      rw [enterAll] at h
      dsimp only at h
      rw [run_get_bind] at h
      split at h
      · -- The walker refused the child: it stays as listed, with nothing below it.
        rw [run_count_bind, run_bind_eq_ok] at h
        obtain ⟨⟨rest, pending⟩, s₁, restRun, h⟩ := h
        dsimp only at h
        rw [run_pure_eq_ok] at h
        obtain ⟨rfl, rfl⟩ := h
        have restWalked := inductionHypothesis restRun restChildren
        obtain ⟨carried, within, perm⟩ := restWalked.ids
        have restListed : s'.stats.directories ≤ s.stats.directories +
            (rest.flatMap DirEntry.allDirs).countP (limits.lists firstFresh) := restWalked.listed
        refine ⟨by simp [restWalked.childIds], restWalked.supply, ⟨carried, ?_, ?_⟩, ?_⟩
        · exact within.trans (baselineIds_head_append_tail baselines ▸
            (List.sublist_append_right _ _).subperm)
        · simpa [DirEntry.idsBelow, noDirs] using perm
        · rw [List.flatMap_cons, List.countP_append]
          omega
      · -- The child was entered: it is scanned, and the walker moves back up.
        rw [run_set_bind, run_bind_eq_ok] at h
        obtain ⟨c', s₁, visited, h⟩ := h
        rw [run_bind_eq_ok] at h
        obtain ⟨_, s₂, left, h⟩ := h
        rw [run_bind_eq_ok] at h
        obtain ⟨⟨rest, pending⟩, s₃, restRun, h⟩ := h
        dsimp only at h
        rw [run_pure_eq_ok] at h
        obtain ⟨rfl, rfl⟩ := h
        have childWalked := visitWalked _ _ _ _ _ _ noDirs noFiles visited
        obtain ⟨-, ids₂, -, -, stats₂, -⟩ := leaveChild_eq_ok left
        have restWalked := inductionHypothesis restRun restChildren
        have childSupply : s.ids.next ≤ s₁.ids.next := childWalked.supply
        have restSupply := restWalked.supply
        rw [ids₂] at restSupply
        obtain ⟨carriedChild, childWithin, childPerm⟩ := childWalked.ids
        obtain ⟨carriedRest, restWithin, restPerm⟩ := restWalked.ids
        rw [ids₂] at restPerm
        have childListed : s₁.stats.directories ≤ s.stats.directories +
            c'.allDirs.countP (limits.lists firstFresh) := childWalked.listed
        have restListed : s'.stats.directories ≤ s₂.stats.directories +
            (rest.flatMap DirEntry.allDirs).countP (limits.lists firstFresh) := restWalked.listed
        rw [stats₂] at restListed
        refine ⟨?_, by omega, ⟨carriedChild ++ carriedRest, ?_, ?_⟩, ?_⟩
        · simp [childWalked.id, restWalked.childIds]
        · rw [← baselineIds_head_append_tail baselines]
          exact childWithin.append restWithin
        · rw [List.flatMap_cons]
          exact perm_range'_append childSupply restSupply childPerm restPerm
        · rw [List.flatMap_cons, List.countP_append]
          omega

/-- Scanning a directory that holds nothing yet keeps its id, uses below it the
fresh ids the supply moves over, each once, and ids carried from below its
baseline directory, each at most once, and reads at most one listing for each
directory of its tree that the scan lists; whatever names the walker lists. -/
theorem visit_walked {limits : Limits} {firstFresh : Nat} (fuel : Nat) :
    ∀ {path : String} {old : Option DirEntry} {d d' : DirEntry} {s s' : ScanState σ},
      d.dirs = [] → d.files = [] →
      (visit walker limits firstFresh fuel path old d).run s = .ok (d', s') →
      Walked limits firstFresh old d d' s s' := by
  induction fuel with
  | zero =>
      intro path old d d' s s' _ _ h
      rw [visit, run_throw] at h
      cases h
  | succ fuel inductionHypothesis =>
      intro path old d d' s s' noDirs noFiles h
      rw [visit, run_bind_eq_ok] at h
      obtain ⟨d₁, s₁, read, h⟩ := h
      have numbered := readDir_numbered read ⟨noDirs, noFiles⟩
      have readListed := readDir_directories read
      rw [run_bind_eq_ok] at h
      obtain ⟨⟨d₂, baselines⟩, s₂, merged, h⟩ := h
      dsimp only at h
      have mergeSpec := numbered.merged merged
      have childrenEmpty := mergeSpec.empty_of_mem numbered.childrenEmpty
      rw [run_dumpAll_bind, run_bind_eq_ok] at h
      obtain ⟨⟨dirs, pending⟩, s₃, entered, h⟩ := h
      dsimp only at h
      have enterWalked := enterAll_walked (fun _ _ _ _ _ _ => inductionHypothesis) entered
        childrenEmpty
      have enterSupply : s₂.ids.next ≤ s₃.ids.next := enterWalked.supply
      obtain ⟨carried, carriedWithin, carriedPerm⟩ : ∃ carried : List Nat,
          carried.Subperm (baselines.flatMap baselineIds) ∧ (dirs.flatMap DirEntry.idsBelow).Perm
            (List.range' s₂.ids.next (s₃.ids.next - s₂.ids.next) ++ carried) := enterWalked.ids
      have enterListed : s₃.stats.directories ≤ s₂.stats.directories +
          (dirs.flatMap DirEntry.allDirs).countP (limits.lists firstFresh) := enterWalked.listed
      rw [run_bind_eq_ok] at h
      obtain ⟨size, s₄, summed, h⟩ := h
      rw [run_checked_eq_ok] at summed
      obtain ⟨-, rfl⟩ := summed
      rw [run_bind_eq_ok] at h
      obtain ⟨_, s₅, compared, h⟩ := h
      obtain ⟨-, ids₅, -, -, stats₅⟩ := keeps_compareChildren _ _ _ _ _ _ _ _ compared
      rw [run_dumpAll_bind, run_pure_eq_ok] at h
      obtain ⟨rfl, rfl⟩ := h
      have idKept : d₂.id = d.id := (congrArg DirEntry.id mergeSpec.same).trans numbered.id
      have mergeSupply := mergeSpec.supply
      have mergedIds := mergeSpec.ids
      rw [numbered.start] at mergedIds mergeSupply
      refine ⟨idKept, ?_, ⟨(baselines.filterMap id).map (·.id) ++ carried, ?_, ?_⟩, ?_⟩
      · show s.ids.next ≤ s₅.ids.next
        rw [ids₅]
        omega
      · refine List.Subperm.trans ?_ (matched_ids_subperm mergeSpec.matched)
        rw [← flatMap_baselineIds]
        exact (List.Subperm.refl _).append carriedWithin
      · refine (flatMap_allDirs_ids_perm dirs).trans ?_
        rw [enterWalked.childIds]
        show List.Perm _ (List.range' s.ids.next (s₅.ids.next - s.ids.next) ++ _)
        rw [ids₅]
        exact perm_range'_append mergeSupply enterSupply mergedIds carriedPerm
      · -- One listing for this directory if the scan lists it, then the children's.
        have selfListed : limits.lists firstFresh { d₂ with dirs, size } =
            limits.lists firstFresh d := by
          simp only [Limits.lists, idKept]
        show s₅.stats.directories ≤ _
        rw [DirEntry.allDirs_eq, List.countP_cons, selfListed, stats₅]
        rw [mergeSpec.stats] at enterListed
        dsimp only
        omega

/-! ### The depth budget -/

/-- A step that stops with no depth error, from any state. -/
theorem Throws.ne_tooDeep {α : Type} {x : ScanM σ α} (throws : Throws (· ≠ ScanError.tooDeep) x)
    (s : ScanState σ) : x.run s ≠ .error .tooDeep :=
  fun h => throws s _ h rfl

/-- The fuel that scanning a directory with baseline directory `old` needs when the
supply stands at `next`: below it, a chain of directories first keeps baseline ids
along a path of `old`, then takes fresh ids, strictly increasing and below
`idRange`. -/
def depthNeed (old : Option DirEntry) (next : Nat) : Nat :=
  (old.map DirEntry.height).getD 0 + (idRange - next)

theorem depthNeed_anti (old : Option DirEntry) {next next' : Nat} (moved : next ≤ next') :
    depthNeed old next' ≤ depthNeed old next := by
  unfold depthNeed
  omega

/-- Entering the children needs no more fuel than each child's scan, which only
moves the supply up. -/
theorem enterAll_ne_tooDeep {fuel : Nat}
    {visitChild : String → Option DirEntry → DirEntry → ScanM σ DirEntry}
    (childDepth : ∀ path b c (t : ScanState σ), c.dirs = [] → c.files = [] →
      depthNeed b t.ids.next < fuel → (visitChild path b c).run t ≠ .error .tooDeep)
    (childSupply : ∀ path b c c' (t t' : ScanState σ), c.dirs = [] → c.files = [] →
      (visitChild path b c).run t = .ok (c', t') → t.ids.next ≤ t'.ids.next)
    {path parentName : String} :
    ∀ {cs : List DirEntry} {baselines : List (Option DirEntry)} {s : ScanState σ},
      (∀ c ∈ cs, c.dirs = [] ∧ c.files = []) → baselines.length = cs.length →
      (∀ b ∈ baselines, depthNeed b s.ids.next < fuel) →
      (enterAll walker visitChild path parentName cs baselines).run s ≠ .error .tooDeep := by
  intro cs
  induction cs with
  | nil =>
      intro baselines s _ _ _ h
      rw [enterAll] at h
      cases h
  | cons c cs inductionHypothesis =>
      intro baselines s children aligned enough h
      obtain ⟨noDirs, noFiles⟩ := children c List.mem_cons_self
      have restChildren := fun c' member => children c' (List.mem_cons_of_mem c member)
      cases baselines with
      | nil => cases aligned
      | cons b bs =>
      have restAligned : bs.length = cs.length := Nat.succ.inj aligned
      have restEnough : ∀ b' ∈ bs, depthNeed b' s.ids.next < fuel :=
        fun b' member => enough b' (List.mem_cons_of_mem b member)
      rw [enterAll] at h
      dsimp only [List.head?_cons, Option.join_some, List.tail_cons] at h
      rw [run_get_bind] at h
      split at h
      · -- The walker refused the child.
        rw [run_count_bind, run_bind_eq_error] at h
        rcases h with failed | ⟨⟨rest, pending⟩, s₁, -, h⟩
        · refine inductionHypothesis restChildren restAligned ?_ failed
          exact restEnough
        · cases h
      · -- The child was entered: its scan, the move back up, then the others.
        rw [run_set_bind, run_bind_eq_error] at h
        rcases h with failed | ⟨c', s₁, visited, h⟩
        · refine childDepth _ _ _ _ noDirs noFiles ?_ failed
          exact enough b List.mem_cons_self
        have moved := childSupply _ _ _ _ _ _ noDirs noFiles visited
        rw [run_bind_eq_error] at h
        rcases h with failed | ⟨_, s₂, left, h⟩
        · exact (throws_leaveChild fun _ lost => ScanError.noConfusion lost).ne_tooDeep s₁ failed
        obtain ⟨-, ids₂, -⟩ := leaveChild_eq_ok left
        rw [run_bind_eq_error] at h
        rcases h with failed | ⟨_, s₃, -, h⟩
        · refine inductionHypothesis restChildren restAligned (fun b' member => ?_) failed
          have := restEnough b' member
          have := depthNeed_anti b' (ids₂ ▸ (moved : s.ids.next ≤ s₁.ids.next) : s.ids.next ≤ s₂.ids.next)
          omega
        · cases h

/-- A new child of a directory read with supply at `next` takes a fresh id, so the
supply has moved past `next` after merging, and `next` is below the last id. -/
theorem merge_fresh_moved {limits : Limits} {firstFresh : Nat} {path : String}
    {old : Option DirEntry} {d d₁ d₂ : DirEntry} {baselines : List (Option DirEntry)}
    {s s₁ s₂ : ScanState σ} (read : (readDir walker limits firstFresh d).run s = .ok (d₁, s₁))
    (noDirs : d.dirs = []) (noFiles : d.files = [])
    (merged : (merge path old d₁).run s₁ = .ok ((d₂, baselines), s₂))
    (fresh : none ∈ baselines) : s.ids.next < s₂.ids.next ∧ s.ids.next + 1 < idRange := by
  have numbered := readDir_numbered read ⟨noDirs, noFiles⟩
  have mergeSpec := numbered.merged merged
  -- Fewer matched children than children: the fresh ids fill the difference.
  have fewer : (baselines.filterMap id).length < baselines.length := by
    rw [List.length_filterMap_eq_countP]
    exact List.countP_lt_length_iff.mpr ⟨none, fresh, rfl⟩
  have lengths := mergeSpec.ids.length_eq
  simp only [List.length_map, List.length_append, List.length_range'] at lengths
  have aligned := mergeSpec.aligned
  have supply := mergeSpec.supply
  rw [numbered.start] at lengths supply
  refine ⟨by omega, ?_⟩
  -- There is a child, and the first child was numbered with the supply's `next`.
  have someChild : d₁.dirs ≠ [] := by
    intro none'
    have same := congrArg List.length mergeSpec.shape
    rw [none', List.map_nil, List.length_nil, List.length_map] at same
    omega
  obtain ⟨c, child⟩ := List.exists_mem_of_ne_nil _ someChild
  have first : s.ids.next ∈ d₁.dirs.map (·.id) := by
    rw [numbered.childIds, List.mem_range'_1]
    have := List.length_pos_of_mem child
    omega
  obtain ⟨c₀, child₀, named⟩ := List.mem_map.mp first
  have := numbered.childFits c₀ child₀
  omega

/-- A scan of a directory that holds nothing yet, given fuel beyond what it needs,
never stops for depth. -/
theorem visit_ne_tooDeep {limits : Limits} {firstFresh : Nat} (fuel : Nat) :
    ∀ {path : String} {old : Option DirEntry} {d : DirEntry} {s : ScanState σ},
      d.dirs = [] → d.files = [] → depthNeed old s.ids.next < fuel →
      (visit walker limits firstFresh fuel path old d).run s ≠ .error .tooDeep := by
  induction fuel with
  | zero =>
      intro path old d s _ _ enough
      omega
  | succ fuel inductionHypothesis =>
      intro path old d s noDirs noFiles enough h
      rw [visit, run_bind_eq_error] at h
      rcases h with failed | ⟨d₁, s₁, read, h⟩
      · exact (throws_readDir (fun _ tooDeep => ScanError.noConfusion tooDeep) limits firstFresh d).ne_tooDeep s failed
      rw [run_bind_eq_error] at h
      rcases h with failed | ⟨⟨d₂, baselines⟩, s₂, merged, h⟩
      · exact (throws_merge (fun tooDeep => ScanError.noConfusion tooDeep) path old d₁).ne_tooDeep s₁ failed
      dsimp only at h
      have numbered := readDir_numbered read ⟨noDirs, noFiles⟩
      have mergeSpec := numbered.merged merged
      have childrenEmpty := mergeSpec.empty_of_mem numbered.childrenEmpty
      -- Each child needs less fuel than its parent: a carried child's baseline is
      -- lower, and a new child's id moved the supply up.
      have childrenEnough : ∀ b ∈ baselines, depthNeed b s₂.ids.next < fuel := by
        intro b member
        have supply : s.ids.next ≤ s₂.ids.next := numbered.start ▸ mergeSpec.supply
        cases b with
        | none =>
            obtain ⟨moved, room⟩ := merge_fresh_moved read noDirs noFiles merged member
            unfold depthNeed at enough ⊢
            simp only [Option.map_none, Option.getD_none] at enough ⊢
            omega
        | some b' =>
            have matched : b' ∈ baselineDirs old :=
              mergeSpec.matched.subset (List.mem_filterMap.mpr ⟨_, member, rfl⟩)
            cases old with
            | none => cases matched
            | some o =>
                have lower := DirEntry.height_lt_of_mem (show b' ∈ o.dirs from matched)
                unfold depthNeed at enough ⊢
                simp only [Option.map_some, Option.getD_some] at enough ⊢
                omega
      rw [run_dumpAll_bind, run_bind_eq_error] at h
      rcases h with failed | ⟨⟨dirs, pending⟩, s₃, -, h⟩
      · refine enterAll_ne_tooDeep (fun _ _ _ _ => inductionHypothesis)
          (fun _ _ _ _ _ _ noDirs noFiles visited => (visit_walked _ noDirs noFiles visited).supply)
          childrenEmpty mergeSpec.aligned ?_ failed
        exact childrenEnough
      rw [run_bind_eq_error] at h
      rcases h with failed | ⟨size, s₄, -, h⟩
      · exact (throws_checked (fun tooDeep => ScanError.noConfusion tooDeep) _).ne_tooDeep s₃ failed
      rw [run_bind_eq_error] at h
      rcases h with failed | ⟨_, s₅, -, h⟩
      · exact (throws_compareChildren path _ _ _ _).ne_tooDeep s₄ failed
      rw [run_dumpAll_bind] at h
      cases h

theorem except_map_eq_error {ε α β : Type} {f : α → β} {x : Except ε α} {e : ε}
    (h : x.map f = .error e) : x = .error e := by
  cases x with
  | error e' =>
      cases h
      rfl
  | ok a => cases h

/-- A whole scan from a root that holds nothing yet never stops for depth. -/
theorem run_ne_tooDeep {limits : Limits} {state : σ} {root : DirEntry}
    {baseline : Option DirEntry} {ids : IdSupply} (noDirs : root.dirs = []) (noFiles : root.files = []) :
    run walker limits state root baseline ids ≠ .error .tooDeep := by
  intro h
  unfold run at h
  have ran := except_map_eq_error h
  rw [run_bind_eq_error] at ran
  rcases ran with failed | ⟨_, s₁, opened, ran⟩
  · exact (throws_openRoot root baseline).ne_tooDeep _ failed
  obtain ⟨-, ids₁, -⟩ := keeps_openRoot root baseline _ _ _ opened
  rw [run_dumpAll_bind, run_bind_eq_error] at ran
  rcases ran with failed | ⟨d, s₂, -, ran⟩
  · refine visit_ne_tooDeep _ noDirs noFiles ?_ failed
    show depthNeed baseline s₁.ids.next < depthBudget baseline
    unfold depthNeed depthBudget
    omega
  rw [run_bind_eq_error] at ran
  rcases ran with failed | ⟨_, s₃, -, ran⟩
  · exact (throws_closeRoot d baseline).ne_tooDeep _ failed
  rw [run_dumpAll_bind] at ran
  cases ran

/-- A whole scan from a root lists at most `maxDirs` directories, besides one for
each directory below the baseline's root. -/
theorem run_directories_le {limits : Limits} {state : σ} {name : String}
    {baseline : Option DirEntry} {ids : IdSupply} {scan : Scan σ}
    (h : run walker limits state (DirEntry.root name) baseline ids = .ok scan)
    (two : 2 ≤ ids.next) :
    scan.stats.directories ≤ limits.maxDirs + (baselineIds baseline).length := by
  unfold run at h
  obtain ⟨⟨tree, s'⟩, ran, rfl⟩ := except_map_eq_ok h
  rw [run_bind_eq_ok] at ran
  obtain ⟨_, s₁, opened, ran⟩ := ran
  obtain ⟨-, ids₁, -, -, stats₁⟩ := keeps_openRoot _ baseline _ _ _ opened
  rw [run_dumpAll_bind, run_bind_eq_ok] at ran
  obtain ⟨d, s₂, visited, ran⟩ := ran
  have walked := visit_walked _ rfl rfl visited
  rw [run_bind_eq_ok] at ran
  obtain ⟨_, s₃, closed, ran⟩ := ran
  obtain ⟨-, -, -, -, stats₃⟩ := keeps_closeRoot d baseline _ _ _ closed
  rw [run_dumpAll_bind, run_pure_eq_ok] at ran
  obtain ⟨rfl, rfl⟩ := ran
  have supplyStart : s₁.ids.next = ids.next := by rw [ids₁]
  obtain ⟨carried, within, perm⟩ : ∃ carried : List Nat, carried.Subperm (baselineIds baseline) ∧
      tree.idsBelow.Perm (List.range' s₁.ids.next (s₂.ids.next - s₁.ids.next) ++ carried) :=
    walked.ids
  rw [supplyStart] at perm
  have listed : s₂.stats.directories ≤ s₁.stats.directories +
      tree.allDirs.countP (limits.lists ids.next) := walked.listed
  have started : s₁.stats.directories = 0 := by rw [stats₁]
  have bound := DirEntry.countP_lists_le limits walked.id two perm
  have fewer := within.length_le
  show s₃.stats.directories ≤ _
  rw [stats₃]
  omega

end Scan

/-- A result that is not the depth error is a value, a lost position or an overflow. -/
theorem ends_of_ne_tooDeep {α : Type} {P : α → Prop} {r : Except ScanError α}
    (notDeep : r ≠ .error .tooDeep) (holds : ∀ a, r = .ok a → P a) :
    (∃ a, r = .ok a ∧ P a) ∨ (∃ path reason, r = .error (.lostPosition path reason)) ∨
      ∃ counter, r = .error (.overflow counter) := by
  cases r with
  | ok a => exact .inl ⟨a, rfl, holds a rfl⟩
  | error e =>
      cases e with
      | lostPosition path reason => exact .inr (.inl ⟨path, reason, rfl⟩)
      | overflow counter => exact .inr (.inr ⟨counter, rfl⟩)
      | tooDeep => exact absurd rfl notDeep

theorem except_bind_eq_error {ε α β : Type} {x : Except ε α} {f : α → Except ε β} {e : ε} :
    x >>= f = .error e ↔ x = .error e ∨ ∃ a, x = .ok a ∧ f a = .error e := by
  cases x <;> simp [bind, Except.bind]

/-- No inventory stops for depth. -/
theorem inventory_ne_tooDeep {σ : Type} (walker : Walker σ) (limits : Limits) (state : σ)
    (form : Form) (name : String) (previous : Option Snapshot) :
    inventory walker limits state form (DirEntry.root name) previous ≠ .error .tooDeep := by
  intro h
  cases form with
  | diff =>
      unfold inventory at h
      dsimp only at h
      split at h
      · rcases except_bind_eq_error.mp h with failed | ⟨ids, -, h⟩
        · cases failed
        rcases except_bind_eq_error.mp h with failed | ⟨scan, -, h⟩
        · exact Scan.run_ne_tooDeep rfl rfl failed
        · cases h
      · -- The previous snapshot leaves no fresh id.
        cases h
  | reverse =>
      unfold inventory at h
      dsimp only at h
      rcases except_bind_eq_error.mp h with failed | ⟨scan, -, h⟩
      · exact Scan.run_ne_tooDeep rfl rfl failed
      · cases h
  | full =>
      unfold inventory buildTree at h
      dsimp only at h
      rcases except_bind_eq_error.mp h with failed | ⟨built, -, h⟩
      · exact Scan.run_ne_tooDeep rfl rfl (Scan.except_map_eq_error failed)
      · cases h
  | json =>
      unfold inventory buildTree at h
      dsimp only at h
      rcases except_bind_eq_error.mp h with failed | ⟨built, -, h⟩
      · exact Scan.run_ne_tooDeep rfl rfl (Scan.except_map_eq_error failed)
      · cases h

theorem except_bind_eq_ok {ε α β : Type} {x : Except ε α} {f : α → Except ε β} {b : β} :
    x >>= f = .ok b ↔ ∃ a, x = .ok a ∧ f a = .ok b := by
  cases x <;> simp [bind, Except.bind]

/-- The directories below a previous snapshot's root, one id each. -/
theorem baselineIds_length_le (previous : Option Snapshot) :
    (baselineIds (previous.map (·.root))).length ≤
      (previous.map fun p => p.root.allDirs.length).getD 0 := by
  cases previous with
  | none => simp [baselineIds, baselineDirs]
  | some p => simp [baselineIds, baselineDirs, DirEntry.allDirs_eq p.root]

/-- An inventory lists at most `maxDirs` directories, plus, in a diff, one for each
directory of the previous snapshot. -/
theorem inventory_directories_le {σ : Type} {walker : Walker σ} {limits : Limits} {state : σ}
    {form : Form} {name : String} {previous : Option Snapshot} {report : Report σ}
    (h : inventory walker limits state form (DirEntry.root name) previous = .ok report) :
    report.stats.directories ≤ limits.maxDirs +
      if form = .diff then (previous.map fun p => p.root.allDirs.length).getD 0 else 0 := by
  have fresh : 2 ≤ IdSupply.fresh.next := by decide
  cases form with
  | diff =>
      unfold inventory at h
      dsimp only at h
      split at h
      · rename_i ids after
        obtain ⟨ids', same, h⟩ := except_bind_eq_ok.mp h
        cases same
        obtain ⟨scan, ran, h⟩ := except_bind_eq_ok.mp h
        cases h
        have two : 2 ≤ ids.next := by
          rw [IdSupply.after_eq_ok after, rootId]
          omega
        have listed := Scan.run_directories_le ran two
        have carried := baselineIds_length_le previous
        rw [if_pos rfl]
        show scan.stats.directories ≤ _
        omega
      · cases h
  | reverse =>
      unfold inventory at h
      dsimp only at h
      obtain ⟨scan, ran, h⟩ := except_bind_eq_ok.mp h
      cases h
      have listed := Scan.run_directories_le ran fresh
      simpa [baselineIds, baselineDirs] using listed
  | full =>
      unfold inventory buildTree at h
      dsimp only at h
      obtain ⟨⟨tree, stats, final⟩, built, h⟩ := except_bind_eq_ok.mp h
      cases h
      obtain ⟨scan, ran, same⟩ := Scan.except_map_eq_ok built
      cases same
      have listed := Scan.run_directories_le ran fresh
      simpa [baselineIds, baselineDirs] using listed
  | json =>
      unfold inventory buildTree at h
      dsimp only at h
      obtain ⟨⟨tree, stats, final⟩, built, h⟩ := except_bind_eq_ok.mp h
      cases h
      obtain ⟨scan, ran, same⟩ := Scan.except_map_eq_ok built
      cases same
      have listed := Scan.run_directories_le ran fresh
      simpa [baselineIds, baselineDirs] using listed

/-- Every inventory, over every walker and under every limits, ends: with its
report, having listed at most `maxDirs` directories, plus one for each directory of
the previous snapshot in a diff; with the position lost below a directory the
walker cannot leave; or with an overflow, of an id or of a size or count. -/
theorem inventory_ends {σ : Type} (walker : Walker σ) (limits : Limits) (state : σ) (form : Form)
    (name : String) (previous : Option Snapshot) :
    (∃ report, inventory walker limits state form (DirEntry.root name) previous = .ok report ∧
        report.stats.directories ≤ limits.maxDirs +
          if form = .diff then (previous.map fun p => p.root.allDirs.length).getD 0 else 0) ∨
      (∃ path reason, inventory walker limits state form (DirEntry.root name) previous =
        .error (.lostPosition path reason)) ∨
      ∃ counter, inventory walker limits state form (DirEntry.root name) previous =
        .error (.overflow counter) :=
  ends_of_ne_tooDeep (inventory_ne_tooDeep walker limits state form name previous)
    fun _ ran => inventory_directories_le ran

/-- A root listing two files whose sizes sum past the 64-bit word stops the
inventory with an overflow of the root's size, while no id comes near the end of
its word: a size overflow is one of the ends of an inventory. -/
theorem oversized_files_overflow :
    inventory memWalker ({} : Limits)
      ({ root := .dir "r" [.file "a" 18446744073709551615, .file "b" 1] false false } : MemWalk)
      .reverse (DirEntry.root "r") none = .error (.overflow .size) := by
  have read : ∀ s : ScanState MemWalk,
      s.walker = { root := .dir "r" [.file "a" 18446744073709551615, .file "b" 1] false false } →
      (Scan.readDir memWalker ({} : Limits) IdSupply.fresh.next (DirEntry.root "r")).run s =
        .error (.overflow .size) := by
    intro s walker
    -- The listing holds no directory, so ordering it hands out no id.
    obtain ⟨⟨ordered, next⟩, numbered⟩ : ∃ r, ((DirEntry.root "r").withListing
        (memWalker.kept ({} : Limits) s.walker)).orderChildren s.ids = .ok r := by
      unfold DirEntry.orderChildren
      rw [show ((DirEntry.root "r").withListing (memWalker.kept ({} : Limits) s.walker)).dirs = [] by
        rw [walker]; rfl, List.mergeSort_nil]
      exact ⟨_, rfl⟩
    refine Scan.readDir_size_overflow (by decide) numbered ?_
    rw [walker]
    decide
  have visited : ∀ s : ScanState MemWalk,
      s.walker = { root := .dir "r" [.file "a" 18446744073709551615, .file "b" 1] false false } →
      (Scan.visit memWalker ({} : Limits) IdSupply.fresh.next (Scan.depthBudget none)
        (DirEntry.root "r").name none (DirEntry.root "r")).run s = .error (.overflow .size) := by
    intro s walker
    rw [show Scan.depthBudget none = (idRange + 1) + 1 from rfl, Scan.visit]
    exact Scan.run_bind_of_eq_error (read s walker)
  have ran : Scan.run memWalker ({} : Limits)
      ({ root := .dir "r" [.file "a" 18446744073709551615, .file "b" 1] false false } : MemWalk)
      (DirEntry.root "r") none IdSupply.fresh = .error (.overflow .size) := by
    unfold Scan.run
    dsimp only
    rw [Scan.openRoot, Option.isNone_none, if_pos rfl, Scan.run_emit_bind, Scan.run_dumpAll_bind,
      Scan.run_bind_of_eq_error (visited _ rfl)]
    rfl
  unfold inventory
  dsimp only
  rw [ran]
  rfl

end TreeDump
