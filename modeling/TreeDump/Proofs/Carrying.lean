import Mathlib
import TreeDump.Inventory
import TreeDump.Walkers.Memory
import TreeDump.Proofs.Numbering
import TreeDump.Proofs.InStep
import TreeDump.Proofs.NextSnapshot

/-!
Which ids a diff carries from the previous snapshot.

A scan against a baseline numbers the child directories of each listing twice.
Reading the directory hands out a batch of fresh ids to all of them, in name
order; merging with the baseline directory then rewinds the supply to the start
of that batch, gives each child that the baseline has under the same name the
baseline's id, and hands the fresh ids out again to the other children only, in
name order. So along a whole scan the directories at paths the baseline tree has
keep its ids, and the others take the fresh ids one after another, listing by
listing in the order the listings are read, with no gap: a listing dropped by
recursion detection hands its batch back, and a directory left unread takes no
batch.

The merge walks the live and the previous listing in step, as two lists sorted by
name. It pairs a live child with the baseline directory of its name only when both
listings are sorted and hold each name once; the walker is asked for listings
with distinct directory names (`Walker.DistinctNames`), and the baseline for a
tree whose partitions are sorted with distinct names (`DirEntry.SortedNames`).

Owns: the paths of a tree (`DirEntry.dirAt`), the order a scan hands out its ids
with the paths they go to (`DirEntry.batches`), the ids a scan against a baseline
hands out fresh (`DirEntry.freshIds`), and the main statement
`diff_carries_ids`.
-/

namespace TreeDump

open Wire

/-! ### Paths and batches -/

namespace DirEntry

/-- The child directory of `d` called `name`, the first one if several are. -/
def child? (d : DirEntry) (name : String) : Option DirEntry := d.dirs.find? (·.name == name)

/-- The directory at a path of names below `d`. -/
def dirAt (d : DirEntry) : List String → Option DirEntry
  | [] => some d
  | name :: rest => (d.child? name).bind (·.dirAt rest)

/-- The directories below `d`, each with its path of names, in the order a scan
hands out their ids: the children of `d`, then the directories below each child
in turn. -/
def batches : DirEntry → List (List String × Nat)
  | ⟨_, _, _, _, _, _, dirs, _⟩ =>
    dirs.map (fun c => ([c.name], c.id)) ++
      dirs.flatMap fun c => c.batches.map fun e => (c.name :: e.1, e.2)

theorem batches_eq (d : DirEntry) :
    d.batches = d.dirs.map (fun c => ([c.name], c.id)) ++
      d.dirs.flatMap fun c => c.batches.map fun e => (c.name :: e.1, e.2) := by
  cases d
  rw [batches]

/-- The ids a scan against the baseline directory `old` hands out fresh below `d`,
in the order it hands them out: those of the directories at paths `old` lacks. -/
def freshIds (old : Option DirEntry) (d : DirEntry) : List Nat :=
  (d.batches.filter fun e => (old.bind (·.dirAt e.1)).isNone).map (·.2)

/-- Every partition of the tree sorted by name, each name once. -/
def SortedNames (d : DirEntry) : Prop :=
  ∀ e ∈ d.allDirs, e.dirs.Pairwise fun a b => a.name < b.name

theorem dirAt_cons (old : Option DirEntry) (name : String) (rest : List String) :
    old.bind (·.dirAt (name :: rest)) = (old.bind (·.child? name)).bind (·.dirAt rest) := by
  cases old <;> rfl

theorem dirAt_singleton (old : Option DirEntry) (name : String) :
    old.bind (·.dirAt [name]) = old.bind (·.child? name) := by
  rw [dirAt_cons]
  cases old.bind (·.child? name) <;> rfl

/-- The fresh ids below a directory: those of its children the baseline lacks, then
those below each child against the child's baseline directory. -/
theorem freshIds_eq (old : Option DirEntry) (d : DirEntry) :
    d.freshIds old =
      (d.dirs.filter fun c => (old.bind (·.child? c.name)).isNone).map (·.id) ++
        d.dirs.flatMap fun c => c.freshIds (old.bind (·.child? c.name)) := by
  rw [freshIds, batches_eq, List.filter_append, List.map_append]
  congr 1
  · rw [List.filter_map, List.map_map]
    simp only [Function.comp_def, dirAt_singleton]
  · -- Below a child, a path of the old tree is one below the child's baseline directory.
    rw [List.filter_flatMap, List.map_flatMap]
    refine List.flatMap_congr fun c _ => ?_
    rw [freshIds, List.filter_map, List.map_map]
    simp only [Function.comp_def, dirAt_cons]

theorem SortedNames.child {d c : DirEntry} (sorted : d.SortedNames) (child : c ∈ d.dirs) :
    c.SortedNames :=
  fun e member => sorted e (allDirs_subset_of_mem child member)

/-- A tree is sorted when its own partition is and each child's tree is. -/
theorem sortedNames_of_children {d : DirEntry} (sorted : d.dirs.Pairwise fun a b => a.name < b.name)
    (children : ∀ c ∈ d.dirs, c.SortedNames) : d.SortedNames := by
  intro e member
  rw [allDirs_eq, List.mem_cons] at member
  rcases member with rfl | below
  · exact sorted
  · obtain ⟨c, child, inside⟩ := List.mem_flatMap.mp below
    exact children c child e inside

theorem mem_of_child?_eq_some {d c : DirEntry} {name : String} (found : d.child? name = some c) :
    c ∈ d.dirs :=
  List.mem_of_find?_eq_some found

/-- Among directories with distinct names in name order, each is the one its name
finds. -/
theorem find?_name_eq_some {c : DirEntry} :
    ∀ {ds : List DirEntry}, ds.Pairwise (fun a b => a.name < b.name) → c ∈ ds →
      ds.find? (·.name == c.name) = some c := by
  intro ds
  induction ds with
  | nil => exact fun _ member => absurd member List.not_mem_nil
  | cons b bs inductionHypothesis =>
      intro sorted member
      rw [List.find?_cons]
      rcases List.mem_cons.mp member with rfl | later
      · simp
      · have earlier : b.name < c.name := List.rel_of_pairwise_cons sorted later
        rw [show (b.name == c.name) = false by simpa using ne_of_lt earlier]
        exact inductionHypothesis sorted.of_cons later

theorem child?_eq_some {d c : DirEntry} (sorted : d.dirs.Pairwise fun a b => a.name < b.name)
    (child : c ∈ d.dirs) : d.child? c.name = some c :=
  find?_name_eq_some sorted child

theorem child?_eq_none {d : DirEntry} {name : String} (absent : ∀ b ∈ d.dirs, b.name ≠ name) :
    d.child? name = none := by
  rw [child?, List.find?_eq_none]
  intro b member
  simpa using absent b member

end DirEntry

/-! ### Pairing sorted listings -/

section Pairing

variable {α β : Type} {liveName : α → String} {oldName : β → String}

/-- A pair of both sides pairs two entries of one name. -/
theorem name_eq_of_both_mem_pairByName {live : List α} {old : List β} {a : α} {b : β}
    (member : Pairing.both a b ∈ pairByName liveName oldName live old) : liveName a = oldName b := by
  fun_induction pairByName liveName oldName live old
  case case5 a' as b' bs same inductionHypothesis =>
    simp only [List.mem_cons, Pairing.both.injEq] at member
    rcases member with ⟨rfl, rfl⟩ | rest
    · exact same
    · exact inductionHypothesis rest
  all_goals simp_all

/-- Pairing two listings sorted by name, each name once on each side, leaves a live
entry alone only when the previous listing has no entry of its name. -/
theorem name_ne_of_live_mem_pairByName {live : List α} {old : List β}
    (liveSorted : live.Pairwise fun a a' => liveName a < liveName a')
    (oldSorted : old.Pairwise fun b b' => oldName b < oldName b') {a : α}
    (member : Pairing.live a ∈ pairByName liveName oldName live old) :
    ∀ b ∈ old, oldName b ≠ liveName a := by
  fun_induction pairByName liveName oldName live old with
  | case1 => simp at member
  | case2 => simp
  | case3 b bs inductionHypothesis =>
      -- No live entry is left to pair.
      rcases List.mem_cons.mp member with same | rest
      · cases same
      · exact absurd ((Scan.Pairing.mem_of_mem_pairByName rest).1 a rfl) List.not_mem_nil
  | case4 a' as b bs before inductionHypothesis =>
      rcases List.mem_cons.mp member with same | rest
      · -- `a` comes before the first previous entry, so before all of them.
        cases same
        intro b' listed
        rcases List.mem_cons.mp listed with rfl | later
        · exact ne_of_gt before
        · exact ne_of_gt (before.trans (List.rel_of_pairwise_cons oldSorted later))
      · exact inductionHypothesis liveSorted.of_cons oldSorted rest
  | case5 a' as b bs notBefore same inductionHypothesis =>
      rcases List.mem_cons.mp member with same' | rest
      · cases same'
      · -- `b` went with `a'`, which comes before `a`.
        have later : a ∈ as := (Scan.Pairing.mem_of_mem_pairByName rest).1 a rfl
        intro b' listed
        rcases List.mem_cons.mp listed with rfl | after
        · rw [← same]
          exact ne_of_lt (List.rel_of_pairwise_cons liveSorted later)
        · exact inductionHypothesis liveSorted.of_cons oldSorted.of_cons rest b' after
  | case6 a' as b bs notBefore notSame inductionHypothesis =>
      rcases List.mem_cons.mp member with same | rest
      · cases same
      · -- `b` comes before `a'`, so before every live entry left.
        have earlier : oldName b < liveName a' := lt_of_le_of_ne (le_of_not_gt notBefore) (Ne.symm notSame)
        have listedLive : a ∈ a' :: as := (Scan.Pairing.mem_of_mem_pairByName rest).1 a rfl
        intro b' listed
        rcases List.mem_cons.mp listed with rfl | after
        · rcases List.mem_cons.mp listedLive with rfl | later
          · exact ne_of_lt earlier
          · exact ne_of_lt (earlier.trans (List.rel_of_pairwise_cons liveSorted later))
        · exact inductionHypothesis liveSorted oldSorted.of_cons rest b' after

end Pairing

/-! ### Listings with distinct directory names -/

/-- A walker whose listings name each child directory once, in every state a scan
can reach from a good one. -/
structure Walker.DistinctNames {σ : Type} (walker : Walker σ) (good : σ → Prop) : Prop where
  list : ∀ w n, good w → good (walker.list w n).1
  names : ∀ w n, good w →
    (((walker.list w n).2.filterMap Scan.Item.dirEntry?).map (·.name)).Nodup
  enter : ∀ w n w', good w → walker.enter w n = some w' → good w'
  leave : ∀ w w', good w → walker.leave w = .ok w' → good w'

/-- The walker over an in-memory tree whose sibling directories have distinct names
lists distinct directory names wherever it stands in that tree. -/
theorem memWalker_distinctNames {T : MemNode} (distinct : T.DistinctDirs) :
    memWalker.DistinctNames fun w : MemWalk => w.root = T where
  list w n rooted := rooted
  names w n rooted := by
    have current : w.current = T.follow w.position := by rw [MemWalk.current, rooted]
    show ((((w.current.children.map MemNode.item).take n).filterMap Scan.Item.dirEntry?).map
      (·.name)).Nodup
    rw [current]
    exact (distinct w.position).sublist (((List.take_sublist _ _).filterMap _).map _)
  enter w n w' rooted entered := by
    simp only [memWalker] at entered
    split at entered
    · cases entered
      exact rooted
    · cases entered
  leave w w' rooted left := by
    simp only [memWalker] at left
    split at left
    · cases left
    · split at left
      · cases left
      · cases left
        exact rooted

/-- Sorted names that are distinct are strictly sorted. -/
theorem DirEntry.pairwise_lt_of_nodup {ds : List DirEntry}
    (sorted : ds.Pairwise fun a b => a.name ≤ b.name) (distinct : (ds.map (·.name)).Nodup) :
    ds.Pairwise fun a b => a.name < b.name :=
  (sorted.and (List.pairwise_map.mp distinct)).imp fun both => lt_of_le_of_ne both.1 both.2

namespace Scan

variable {σ : Type} {walker : Walker σ} {good : σ → Prop}

/-! ### Reading and merging a directory -/

/-- Reading an unread directory from a good state, over a walker that lists distinct
directory names, sorts its children strictly by name and leaves the walker good. -/
theorem readDir_sorted (distinct : walker.DistinctNames good) {limits : Limits} {firstFresh : Nat}
    {d d₁ : DirEntry} {s s₁ : ScanState σ} (h : (readDir walker limits firstFresh d).run s = .ok (d₁, s₁))
    (unread : d.Unread) (goodNow : good s.walker) :
    (d₁.dirs.Pairwise fun a b => a.name < b.name) ∧ good s₁.walker := by
  obtain ⟨-, -, -, outcome⟩ := readDir_eq_ok h
  rcases outcome with ⟨-, rfl, walker₁, -⟩ | ⟨-, walker₁, -, ordered, ids, size, orderedEq, -, kept⟩
  · rw [unread.noDirs, walker₁]
    exact ⟨List.Pairwise.nil, goodNow⟩
  · refine ⟨?_, by rw [walker₁]; exact distinct.list _ _ goodNow⟩
    rcases kept with ⟨-, rfl, -⟩ | ⟨-, rfl, -⟩
    · -- The listing's directory names are distinct, and sorting keeps them.
      obtain ⟨-, -, -, -, shape, -⟩ := orderChildren_eq_ok orderedEq
      have names : ordered.dirs.map (·.name) =
          (List.mergeSort ((walker.kept limits s.walker).filterMap Item.dirEntry?)
            DirEntry.nameLe).map (·.name) := by
        simpa [List.map_map, Function.comp_def, DirEntry.withListing, unread.noDirs] using
          congrArg (List.map DirEntry.name) shape
      have listed : (((walker.kept limits s.walker).filterMap Item.dirEntry?).map (·.name)).Sublist
          ((((walker.list s.walker (limits.maxItems + 1)).2).filterMap Item.dirEntry?).map (·.name)) :=
        ((List.take_sublist _ _).filterMap _).map _
      have nodup : (ordered.dirs.map (·.name)).Nodup := by
        rw [names]
        exact ((List.mergeSort_perm _ _).map _).nodup_iff.mpr
          ((distinct.names _ _ goodNow).sublist listed)
      exact DirEntry.pairwise_lt_of_nodup (orderChildren_ordered orderedEq).dirsSorted nodup
    · exact List.Pairwise.nil

/-- A kept child and the pair it came from: a live child with a fresh id and no
baseline directory, or a child paired with a baseline directory whose id it takes. -/
def KeptFrom (pairs : List (Pairing DirEntry DirEntry)) (x : DirEntry × Option DirEntry) : Prop :=
  ∃ a, a.name = x.1.name ∧
    (x.2 = none ∧ Pairing.live a ∈ pairs ∨ ∃ b, x.2 = some b ∧ x.1.id = b.id ∧ Pairing.both a b ∈ pairs)

theorem KeptFrom.cons {pairs : List (Pairing DirEntry DirEntry)} {x : DirEntry × Option DirEntry}
    (kept : KeptFrom pairs x) (pair : Pairing DirEntry DirEntry) : KeptFrom (pair :: pairs) x := by
  obtain ⟨a, name, side⟩ := kept
  refine ⟨a, name, ?_⟩
  rcases side with ⟨noBaseline, live⟩ | ⟨b, baseline, id, both⟩
  · exact .inl ⟨noBaseline, List.mem_cons_of_mem _ live⟩
  · exact .inr ⟨b, baseline, id, List.mem_cons_of_mem _ both⟩

/-- Merging the pairs of child directories keeps each live child, paired with its
baseline directory and carrying its id, or with a fresh id from the supply; the
fresh ids go out in order, with no gap. -/
theorem mergeDirs_carries {path : String} {d : DirEntry} :
    ∀ {pairs : List (Pairing DirEntry DirEntry)} {kept : List (DirEntry × Option DirEntry)}
      {s s' : ScanState σ}, (mergeDirs path d pairs).run s = .ok (kept, s') →
      (∀ x ∈ kept, KeptFrom pairs x) ∧
        (kept.filter (·.2.isNone)).map (·.1.id) = List.range' s.ids.next (s'.ids.next - s.ids.next) := by
  intro pairs
  induction pairs with
  | nil =>
      intro kept s s' h
      rw [mergeDirs, run_pure_eq_ok] at h
      obtain ⟨rfl, rfl⟩ := h
      simp
  | cons pair pairs inductionHypothesis =>
      intro kept s s' h
      rw [mergeDirs, run_bind_eq_ok] at h
      obtain ⟨first, s₁, mergedFirst, h⟩ := h
      rw [run_bind_eq_ok] at h
      obtain ⟨rest, s₂, mergedRest, h⟩ := h
      obtain ⟨restKept, restFresh⟩ := inductionHypothesis mergedRest
      have restSupply : s₁.ids.next ≤ s₂.ids.next := (mergeDirs_spec mergedRest).supply
      rw [run_pure_eq_ok] at h
      obtain ⟨rfl, rfl⟩ := h
      have keptRest : ∀ x ∈ rest, KeptFrom (pair :: pairs) x := fun x member => (restKept x member).cons _
      cases pair with
      | both c b =>
          rw [mergeDir, run_pure_eq_ok] at mergedFirst
          obtain ⟨rfl, rfl⟩ := mergedFirst
          refine ⟨?_, by simpa using restFresh⟩
          intro x member
          rcases List.mem_cons.mp member with rfl | member
          · exact ⟨c, rfl, .inr ⟨b, rfl, rfl, List.mem_cons_self⟩⟩
          · exact keptRest x member
      | live c =>
          obtain ⟨rfl, -, next, -⟩ := mergeDir_live_eq_ok mergedFirst
          refine ⟨?_, ?_⟩
          · intro x member
            rcases List.mem_cons.mp member with rfl | member
            · exact ⟨c, rfl, .inl ⟨rfl, List.mem_cons_self⟩⟩
            · exact keptRest x member
          · -- The new child takes the next id, the rest follow.
            rw [next] at restFresh restSupply
            simp only [Option.toList_some, List.singleton_append, List.filter_cons, Option.isNone_none,
              if_true, List.map_cons, restFresh]
            rw [← List.range'_succ]
            congr 1
            omega
      | old b =>
          obtain ⟨rfl, ids, -⟩ := mergeDir_old_eq_ok mergedFirst
          rw [ids] at restFresh
          exact ⟨fun x member => keptRest x (by simpa using member), by simpa using restFresh⟩

/-- Under sorted listings with distinct names, a kept child's baseline directory is the
baseline's child of its name. -/
theorem KeptFrom.baseline {live : List DirEntry} {o : DirEntry} {x : DirEntry × Option DirEntry}
    (liveSorted : live.Pairwise fun a b => a.name < b.name)
    (oldSorted : o.dirs.Pairwise fun a b => a.name < b.name)
    (kept : KeptFrom (pairByName DirEntry.name DirEntry.name live o.dirs) x) :
    x.2 = o.child? x.1.name := by
  obtain ⟨a, name, side⟩ := kept
  rcases side with ⟨noBaseline, live⟩ | ⟨b, baseline, -, both⟩
  · rw [noBaseline, ← name]
    exact (DirEntry.child?_eq_none (name_ne_of_live_mem_pairByName liveSorted oldSorted live)).symm
  · have listed : b ∈ o.dirs := (Pairing.mem_of_mem_pairByName both).2 b rfl
    rw [baseline, ← name, name_eq_of_both_mem_pairByName both]
    exact (DirEntry.child?_eq_some oldSorted listed).symm

/-- What merging a directory with its baseline directory leaves: each child paired
with the baseline's child of its name, if there is one, carrying its id; the other
children with the fresh ids from the start of the batch, in order. -/
structure MergeCarries (old : Option DirEntry) (d₂ : DirEntry) (baselines : List (Option DirEntry))
    (s₁ s₂ : ScanState σ) : Prop where
  baselines : baselines = d₂.dirs.map fun c => old.bind (·.child? c.name)
  carried : ∀ c ∈ d₂.dirs, ∀ b, old.bind (·.child? c.name) = some b → c.id = b.id
  fresh : (d₂.dirs.filter fun c => (old.bind (·.child? c.name)).isNone).map (·.id) =
    List.range' s₁.batchStart (s₂.ids.next - s₁.batchStart)

theorem merge_carries {path : String} {old : Option DirEntry} {d₁ d₂ : DirEntry}
    {baselines : List (Option DirEntry)} {s₁ s₂ : ScanState σ}
    (h : (merge path old d₁).run s₁ = .ok ((d₂, baselines), s₂))
    (childIds : d₁.dirs.map (·.id) = List.range' s₁.batchStart (s₁.ids.next - s₁.batchStart))
    (liveSorted : d₁.dirs.Pairwise fun a b => a.name < b.name)
    (oldSorted : ∀ o, old = some o → o.dirs.Pairwise fun a b => a.name < b.name) :
    MergeCarries old d₂ baselines s₁ s₂ := by
  cases old with
  | none =>
      -- Without a baseline every child keeps the fresh id it was read with.
      obtain ⟨rfl, rfl, ids⟩ := merge_none_eq_ok h
      refine ⟨by simp, by simp, ?_⟩
      rw [ids, ← childIds]
      simp
  | some o =>
      unfold merge at h
      rw [run_modify_bind, run_bind_eq_ok] at h
      obtain ⟨kept, s₃, mergedDirs, h⟩ := h
      rw [run_bind_eq_ok] at h
      obtain ⟨_, s₄, mergedFiles, h⟩ := h
      obtain ⟨-, ids₄, -⟩ := keeps_mergeFiles _ _ _ _ _ mergedFiles
      rw [run_pure_eq_ok, Prod.mk.injEq] at h
      obtain ⟨⟨rfl, rfl⟩, rfl⟩ := h
      obtain ⟨keptFrom, fresh⟩ := mergeDirs_carries mergedDirs
      have baseline : ∀ x ∈ kept, x.2 = o.child? x.1.name := fun x member =>
        (keptFrom x member).baseline liveSorted (oldSorted o rfl)
      refine ⟨?_, ?_, ?_⟩
      · simp only [List.map_map, Option.bind_some]
        exact List.map_congr_left baseline
      · intro c child b found
        obtain ⟨x, member, rfl⟩ := List.mem_map.mp child
        obtain ⟨a, -, side⟩ := keptFrom x member
        rw [Option.bind_some, ← baseline x member] at found
        rcases side with ⟨noBaseline, -⟩ | ⟨b', baseline', id, -⟩
        · rw [noBaseline] at found
          cases found
        · rw [baseline', Option.some.injEq] at found
          rw [id, found]
      · -- The children without a baseline directory are those kept with none.
        have sameFilter : kept.filter (fun x => (o.child? x.1.name).isNone) = kept.filter (·.2.isNone) :=
          List.filter_congr fun x member => by rw [baseline x member]
        simp only [Option.bind_some, List.filter_map, List.map_map, Function.comp_def]
        rw [ids₄]
        simpa [sameFilter] using fresh

end Scan

/-! ### Scanning against a baseline -/

theorem DirEntry.Unread.sortedNames {d : DirEntry} (unread : d.Unread) : d.SortedNames := by
  intro e member
  rw [unread.allDirs, List.mem_singleton] at member
  rw [member, unread.noDirs]
  exact List.Pairwise.nil

theorem DirEntry.Unread.batches {d : DirEntry} (unread : d.Unread) : d.batches = [] := by
  rw [DirEntry.batches_eq, unread.noDirs]
  rfl

theorem DirEntry.Unread.freshIds {d : DirEntry} (unread : d.Unread) (old : Option DirEntry) :
    d.freshIds old = [] := by
  rw [DirEntry.freshIds, unread.batches]
  rfl

/-- The baseline's child of a name, in a tree sorted by name, is sorted too. -/
theorem DirEntry.SortedNames.bind_child? {old : Option DirEntry} (sorted : ∀ o ∈ old, o.SortedNames)
    (name : String) : ∀ o ∈ old.bind (·.child? name), o.SortedNames := by
  intro o member
  obtain ⟨p, parent, found⟩ := Option.mem_bind_iff.mp member
  exact (sorted p parent).child (DirEntry.mem_of_child?_eq_some found)

namespace Scan

variable {σ : Type} {walker : Walker σ} {good : σ → Prop}

theorem Merged.unread_of_mem {old : Option DirEntry} {d d₂ : DirEntry}
    {baselines : List (Option DirEntry)} {s s₂ : ScanState σ} (merged : Merged old d d₂ baselines s s₂)
    (unread : ∀ c ∈ d.dirs, c.Unread) : ∀ c ∈ d₂.dirs, c.Unread := by
  intro c child
  obtain ⟨e, read, same⟩ := List.mem_map.mp (merged.shape ▸ List.mem_map_of_mem child)
  have fields := congrArg (fun e => (e.dirs, e.files, e.items)) same
  simp only [DirEntry.withoutId, Prod.mk.injEq] at fields
  obtain ⟨dirs, files, items⟩ := fields
  exact ⟨dirs ▸ (unread e read).noDirs, files ▸ (unread e read).noFiles, items ▸ (unread e read).noItems⟩

/-- What scanning an unread directory against its baseline directory `old` leaves:
its name and id kept, the walker good, every partition of its tree sorted with
distinct names; the directories below it at paths `old` has carry the ids they
have there, and the others take, in the order the scan hands them out, exactly the
ids the supply moved over. -/
structure Carried (good : σ → Prop) (old : Option DirEntry) (d d' : DirEntry) (s s' : ScanState σ) :
    Prop where
  name : d'.name = d.name
  id : d'.id = d.id
  supply : s.ids.next ≤ s'.ids.next
  walker : good s'.walker
  sorted : d'.SortedNames
  carried : ∀ e ∈ d'.batches, ∀ b, old.bind (·.dirAt e.1) = some b → e.2 = b.id
  fresh : d'.freshIds old = List.range' s.ids.next (s'.ids.next - s.ids.next)

/-- What entering unread children one after another leaves, each scanned against
the child of its name in the baseline directory `old`: their names and ids kept,
and what `Carried` says of each, the fresh ids of one child after another's. -/
structure CarriedAll (good : σ → Prop) (old : Option DirEntry) (cs cs' : List DirEntry)
    (s s' : ScanState σ) : Prop where
  namesIds : cs'.map (fun c => (c.name, c.id)) = cs.map (fun c => (c.name, c.id))
  supply : s.ids.next ≤ s'.ids.next
  walker : good s'.walker
  sorted : ∀ c ∈ cs', c.SortedNames
  carried : ∀ c ∈ cs', ∀ e ∈ c.batches, ∀ b,
    (old.bind (·.child? c.name)).bind (·.dirAt e.1) = some b → e.2 = b.id
  fresh : cs'.flatMap (fun c => c.freshIds (old.bind (·.child? c.name))) =
    List.range' s.ids.next (s'.ids.next - s.ids.next)

theorem enterAll_carries (distinct : walker.DistinctNames good)
    {visitChild : String → Option DirEntry → DirEntry → ScanM σ DirEntry}
    (visitCarries : ∀ path b (c c' : DirEntry) (t t' : ScanState σ), c.Unread → good t.walker →
      (∀ o ∈ b, o.SortedNames) → (visitChild path b c).run t = .ok (c', t') → Carried good b c c' t t')
    {path parentName : String} {old : Option DirEntry} (oldSorted : ∀ o ∈ old, o.SortedNames) :
    ∀ {cs : List DirEntry} {result : List DirEntry × List (Option DirEntry)} {s s' : ScanState σ},
      (enterAll walker visitChild path parentName cs
        (cs.map fun c => old.bind (·.child? c.name))).run s = .ok (result, s') →
      (∀ c ∈ cs, c.Unread) → good s.walker → CarriedAll good old cs result.1 s s' := by
  intro cs
  induction cs with
  | nil =>
      intro result s s' h _ goodNow
      rw [List.map_nil, enterAll, run_pure_eq_ok] at h
      obtain ⟨rfl, rfl⟩ := h
      exact ⟨rfl, le_refl _, goodNow, by simp, by simp, by simp⟩
  | cons c cs inductionHypothesis =>
      intro result s s' h children goodNow
      have unread := children c List.mem_cons_self
      have restChildren := fun c' member => children c' (List.mem_cons_of_mem c member)
      rw [List.map_cons, enterAll] at h
      dsimp only at h
      rw [List.head?_cons, Option.join_some, List.tail_cons, run_get_bind] at h
      split at h
      · -- The walker refused the child: it stays unread, below it nothing is numbered.
        rw [run_count_bind, run_bind_eq_ok] at h
        obtain ⟨⟨rest, pending⟩, s₁, restRun, h⟩ := h
        rw [run_pure_eq_ok] at h
        obtain ⟨rfl, rfl⟩ := h
        have restCarried := inductionHypothesis restRun restChildren goodNow
        refine ⟨by simp [restCarried.namesIds], restCarried.supply, restCarried.walker, ?_, ?_, ?_⟩
        · intro c' member
          rcases List.mem_cons.mp member with rfl | member
          · exact unread.sortedNames
          · exact restCarried.sorted c' member
        · intro c' member
          rcases List.mem_cons.mp member with rfl | member
          · rw [unread.batches]
            exact fun e listed => absurd listed List.not_mem_nil
          · exact restCarried.carried c' member
        · rw [List.flatMap_cons, unread.freshIds, List.nil_append]
          exact restCarried.fresh
      · -- The child was entered: it is scanned against the baseline's child of its
        -- name, and the walker moves back up.
        rename_i state entered
        rw [run_set_bind, run_bind_eq_ok] at h
        obtain ⟨c', s₁, visited, h⟩ := h
        rw [run_bind_eq_ok] at h
        obtain ⟨_, s₂, left, h⟩ := h
        rw [run_bind_eq_ok] at h
        obtain ⟨⟨rest, pending⟩, s₃, restRun, h⟩ := h
        rw [run_pure_eq_ok] at h
        obtain ⟨rfl, rfl⟩ := h
        have childCarried := visitCarries _ _ _ _ _ _ unread (distinct.enter _ _ _ goodNow entered)
          (DirEntry.SortedNames.bind_child? oldSorted c.name) visited
        obtain ⟨moved, ids₂, -⟩ := leaveChild_eq_ok left
        have restCarried := inductionHypothesis restRun restChildren
          (distinct.leave _ _ childCarried.walker moved)
        have childSupply : s.ids.next ≤ s₁.ids.next := childCarried.supply
        have restSupply : s₂.ids.next ≤ s'.ids.next := restCarried.supply
        have restFresh : rest.flatMap (fun c => c.freshIds (old.bind (·.child? c.name))) =
            List.range' s₂.ids.next (s'.ids.next - s₂.ids.next) := restCarried.fresh
        rw [ids₂] at restSupply restFresh
        refine ⟨by simp [childCarried.name, childCarried.id, restCarried.namesIds], by omega,
          restCarried.walker, ?_, ?_, ?_⟩
        · intro c'' member
          rcases List.mem_cons.mp member with rfl | member
          · exact childCarried.sorted
          · exact restCarried.sorted c'' member
        · intro c'' member
          rcases List.mem_cons.mp member with rfl | member
          · intro e listed b found
            rw [childCarried.name] at found
            exact childCarried.carried e listed b found
          · exact restCarried.carried c'' member
        · rw [List.flatMap_cons, childCarried.name, childCarried.fresh, restFresh]
          exact range'_sub_append childSupply restSupply

/-- Which of some directories a filter on their names keeps, and their ids, depend
only on their names and ids. -/
theorem filter_name_map_id_congr {cs cs' : List DirEntry}
    (same : cs'.map (fun c => (c.name, c.id)) = cs.map (fun c => (c.name, c.id))) (p : String → Bool) :
    (cs'.filter fun c => p c.name).map (·.id) = (cs.filter fun c => p c.name).map (·.id) := by
  have filtered := congrArg (fun l => (l.filter fun e => p e.1).map (·.2)) same
  simpa [List.filter_map, List.map_map, Function.comp_def] using filtered

/-- Scanning an unread directory against its baseline directory, over a walker that
lists distinct directory names, keeps the ids the baseline has at the same paths and
hands out the fresh ids, listing by listing in the order it reads them and in name
order within a listing, from one unbroken run of the supply; whatever the walker
refuses and whatever recursion detection or the limits leave unread. -/
theorem visit_carries (distinct : walker.DistinctNames good) {limits : Limits} {firstFresh : Nat}
    (fuel : Nat) :
    ∀ {path : String} {old : Option DirEntry} {d d' : DirEntry} {s s' : ScanState σ}, d.Unread →
      good s.walker → (∀ o ∈ old, o.SortedNames) →
      (visit walker limits firstFresh fuel path old d).run s = .ok (d', s') →
      Carried good old d d' s s' := by
  induction fuel with
  | zero =>
      intro path old d d' s s' _ _ _ h
      rw [visit, run_throw] at h
      cases h
  | succ fuel inductionHypothesis =>
      intro path old d d' s s' unread goodNow oldSorted h
      rw [visit, run_bind_eq_ok] at h
      obtain ⟨d₁, s₁, read, h⟩ := h
      have numbered := readDir_numbered read ⟨unread.noDirs, unread.noFiles⟩
      obtain ⟨liveSorted, good₁⟩ := readDir_sorted distinct read unread goodNow
      rw [run_bind_eq_ok] at h
      obtain ⟨⟨d₂, baselines⟩, s₂, mergedRun, h⟩ := h
      dsimp only at h
      have merged := numbered.merged mergedRun
      have carries := merge_carries mergedRun
        (by rw [numbered.childIds, numbered.start, numbered.supply, Nat.add_sub_cancel_left])
        liveSorted fun o same => oldSorted o same o (DirEntry.mem_allDirs_self o)
      have childrenUnread : ∀ c ∈ d₂.dirs, c.Unread := merged.unread_of_mem fun c child =>
        ⟨(numbered.childrenEmpty c child).1, (numbered.childrenEmpty c child).2,
          numbered.childrenUnread c child⟩
      rw [run_dumpAll_bind, run_bind_eq_ok, carries.baselines] at h
      obtain ⟨⟨dirs, pending⟩, s₃, entered, h⟩ := h
      dsimp only at h
      have enterCarried := enterAll_carries distinct (fun _ _ _ _ _ _ => inductionHypothesis)
        oldSorted entered childrenUnread (by rw [merged.walker]; exact good₁)
      rw [run_bind_eq_ok] at h
      obtain ⟨size, s₄, summed, h⟩ := h
      rw [run_checked_eq_ok] at summed
      obtain ⟨-, rfl⟩ := summed
      rw [run_bind_eq_ok] at h
      obtain ⟨_, s₅, compared, h⟩ := h
      obtain ⟨walker₅, ids₅, -⟩ := keeps_compareChildren _ _ _ _ _ _ _ _ compared
      rw [run_dumpAll_bind, run_pure_eq_ok] at h
      obtain ⟨rfl, rfl⟩ := h
      -- The supply: the batch of the listing, then the children's runs.
      have mergeSupply : s.ids.next ≤ s₂.ids.next := numbered.start ▸ merged.supply
      have enterSupply : s₂.ids.next ≤ s₄.ids.next := enterCarried.supply
      have enterFresh : dirs.flatMap (fun c => c.freshIds (old.bind (·.child? c.name))) =
          List.range' s₂.ids.next (s₄.ids.next - s₂.ids.next) := enterCarried.fresh
      have namesIds : dirs.map (fun c => (c.name, c.id)) = d₂.dirs.map (fun c => (c.name, c.id)) :=
        enterCarried.namesIds
      have names : dirs.map (·.name) = d₁.dirs.map (·.name) := by
        rw [← merged.names]
        simpa [List.map_map, Function.comp_def] using congrArg (List.map Prod.fst) namesIds
      refine ⟨(congrArg DirEntry.name merged.same).trans numbered.name,
        (congrArg DirEntry.id merged.same).trans numbered.id, by rw [ids₅]; omega,
        by rw [walker₅]; exact enterCarried.walker, ?_, ?_, ?_⟩
      · -- The children keep the names of the listing, sorted as it is.
        intro e member
        rw [DirEntry.allDirs_eq, List.mem_cons] at member
        rcases member with rfl | below
        · show dirs.Pairwise fun a b => a.name < b.name
          exact List.pairwise_map.mp (names ▸ List.pairwise_map.mpr liveSorted)
        · obtain ⟨c, child, inside⟩ := List.mem_flatMap.mp below
          exact enterCarried.sorted c child e inside
      · intro e member b found
        rw [DirEntry.batches_eq, List.mem_append] at member
        rcases member with child | below
        · -- A child carries the id merging gave it.
          obtain ⟨c, entered, rfl⟩ := List.mem_map.mp child
          rw [DirEntry.dirAt_singleton] at found
          have listed : (c.name, c.id) ∈ dirs.map fun c => (c.name, c.id) := List.mem_map_of_mem entered
          rw [namesIds] at listed
          obtain ⟨c₂, merged₂, same⟩ := List.mem_map.mp listed
          simp only [Prod.mk.injEq] at same
          rw [← same.1] at found
          rw [← same.2]
          exact carries.carried c₂ merged₂ b found
        · obtain ⟨c, child, inside⟩ := List.mem_flatMap.mp below
          obtain ⟨e', listed, rfl⟩ := List.mem_map.mp inside
          rw [DirEntry.dirAt_cons] at found
          exact enterCarried.carried c child e' listed b found
      · rw [DirEntry.freshIds_eq]
        dsimp only
        rw [filter_name_map_id_congr namesIds fun name => (old.bind (·.child? name)).isNone, carries.fresh,
          numbered.start, enterFresh, ids₅]
        exact range'_sub_append mergeSupply enterSupply

/-- A whole scan from an unread root against a sorted baseline tree, over a walker
that lists distinct directory names, returns a sorted tree with the root's id, whose
directories keep the ids the baseline has at the same paths and whose other
directories take the supply's ids from its first one on, with no gap. -/
theorem run_carries (distinct : walker.DistinctNames good) {limits : Limits} {state : σ}
    {root : DirEntry} {old : Option DirEntry} {ids : IdSupply} {scan : Scan σ}
    (h : run walker limits state root old ids = .ok scan) (unread : root.Unread)
    (goodNow : good state) (oldSorted : ∀ o ∈ old, o.SortedNames) :
    scan.tree.id = root.id ∧ scan.tree.SortedNames ∧
      (∀ e ∈ scan.tree.batches, ∀ b, old.bind (·.dirAt e.1) = some b → e.2 = b.id) ∧
      scan.tree.freshIds old = List.range' ids.next (scan.tree.freshIds old).length := by
  unfold run at h
  obtain ⟨⟨tree, s'⟩, ran, rfl⟩ := except_map_eq_ok h
  rw [run_bind_eq_ok] at ran
  obtain ⟨_, s₁, opened, ran⟩ := ran
  obtain ⟨walker₁, ids₁, -⟩ := keeps_openRoot root old _ _ _ opened
  rw [run_dumpAll_bind, run_bind_eq_ok] at ran
  obtain ⟨d, s₂, visited, ran⟩ := ran
  have carried := visit_carries distinct _ unread (by dsimp only; rw [walker₁]; exact goodNow)
    oldSorted visited
  rw [run_bind_eq_ok] at ran
  obtain ⟨_, s₃, -, ran⟩ := ran
  rw [run_dumpAll_bind, run_pure_eq_ok] at ran
  obtain ⟨rfl, -⟩ := ran
  have supplyStart : s₁.ids.next = ids.next := by rw [ids₁]
  refine ⟨carried.id, carried.sorted, carried.carried, ?_⟩
  rw [carried.fresh, List.length_range']
  dsimp only
  rw [supplyStart]

end Scan

/-! ### The diff -/

section Inventory

variable {σ : Type} {walker : Walker σ} {limits : Limits} {state : σ} {root : DirEntry}

/-- A diff continues the ids after the snapshot's largest (after the root's without a
snapshot), scans against the snapshot's tree, and writes the header naming the
snapshot, the patch and the scan's dump. -/
theorem inventory_diff_scans {previous : Option Snapshot} {r : Report σ}
    (h : inventory walker limits state .diff root previous = .ok r) :
    ∃ ids scan, IdSupply.after ((previous.map (·.maxId)).getD 0) = .ok ids ∧
      Scan.run walker limits state root (previous.map (·.root)) ids = .ok scan ∧
      r.output = "* " ++ ((previous.map (·.digest)).getD (Md5.digest [])).toHex ++ "\n" ++
        Wire.text scan.patch ++ Wire.text scan.dump := by
  unfold inventory at h
  cases after : IdSupply.after ((previous.map (·.maxId)).getD 0) with
  | error e =>
      simp only [after, bind, Except.bind] at h
      cases h
  | ok ids =>
      cases ran : Scan.run walker limits state root (previous.map (·.root)) ids with
      | error e =>
          simp only [after, ran, bind, Except.bind, pure, Except.pure] at h
          cases h
      | ok scan =>
          simp only [after, ran, bind, Except.bind, pure, Except.pure] at h
          cases h
          exact ⟨ids, scan, rfl, ran, rfl⟩

end Inventory

/-- What a diff against the snapshot `S` (none for no snapshot) wrote as `output`,
read with the tree it built and the patch it wrote: the header, the patch and the
tree's dump; the root with the root's id; every partition sorted by name; every
directory at a path of the snapshot's tree with that directory's id; and the other
directories with the ids after the snapshot's largest (after the root's), one after
another, listing by listing in the order they are read and in name order within a
listing. -/
structure CarriesIds (S : Option Snapshot) (output : String) (tree : DirEntry)
    (patch : List Wire.Line) : Prop where
  written : output = "* " ++ ((S.map (·.digest)).getD (Md5.digest [])).toHex ++ "\n" ++
    Wire.text patch ++ tree.dumpText
  root : tree.id = rootId
  sorted : tree.SortedNames
  carried : ∀ e ∈ tree.batches, ∀ b, (S.map (·.root)).bind (·.dirAt e.1) = some b → e.2 = b.id
  fresh : tree.freshIds (S.map (·.root)) =
    List.range' (max ((S.map (·.maxId)).getD 0) rootId + 1) (tree.freshIds (S.map (·.root))).length

/-- A diff of an in-memory tree with distinct sibling directory names, against no
snapshot or a snapshot whose partitions are sorted by name with each name once,
carries ids as `CarriesIds` says: the root takes the root's id, a directory at a path
of the snapshot's tree its id, and the others fresh ids after the snapshot's largest
with no gap, whatever the walker refuses, the limits leave unread and recursion
detection drops. -/
theorem diff_carries_ids {T : MemNode} (distinct : T.DistinctDirs) (limits : Limits)
    (name : String) {S : Option Snapshot} (sorted : ∀ o ∈ S, o.root.SortedNames)
    {r : Report MemWalk}
    (diffed : inventory memWalker limits { root := T } .diff (DirEntry.root name) S = .ok r) :
    ∃ tree patch, CarriesIds S r.output tree patch := by
  obtain ⟨ids, scan, after, ran, written⟩ := inventory_diff_scans diffed
  have oldSorted : ∀ o ∈ S.map (·.root), o.SortedNames := by
    intro o member
    obtain ⟨snapshot, kept, rfl⟩ := Option.mem_map.mp member
    exact sorted snapshot kept
  obtain ⟨root, treeSorted, carried, fresh⟩ :=
    Scan.run_carries (memWalker_distinctNames distinct) ran ⟨rfl, rfl, rfl⟩ rfl oldSorted
  refine ⟨scan.tree, scan.patch, ⟨?_, root, treeSorted, carried, ?_⟩⟩
  · rw [written, Scan.run_dump ran rfl rfl, DirEntry.dumpText]
  · rw [← IdSupply.after_eq_ok after]
    exact fresh

/-- Sibling directories of `pairTree` have distinct names. -/
theorem pairTree_distinctDirs : pairTree.DistinctDirs := by
  -- Every path ends at the root or inside its leaf `a`.
  have top : pairTree.dirNames.Nodup := by decide
  intro path
  rcases path with _ | ⟨_ | i, rest⟩
  · exact top
  · exact Scan.distinctDirs_leaf "a" false false rest
  · exact top

/-- The diff of `pairTree` against the snapshot of the same tree in which `a` has id
`5` carries ids as `CarriesIds` says. -/
theorem pair_diff_carries_ids :
    ∃ S r, Snapshot.read "0 1 r\n0 5 r/a\n1 1 0 0 5 0 a\n1 0 0 0 1 1 r\n".toUTF8.toList = .ok S ∧
      pairTree.DistinctDirs ∧ (∀ o ∈ some S, o.root.SortedNames) ∧
      inventory memWalker {} { root := pairTree } .diff (DirEntry.root "r") (some S) = .ok r ∧
      ∃ tree patch, CarriesIds (some S) r.output tree patch := by
  have checked : (Snapshot.read "0 1 r\n0 5 r/a\n1 1 0 0 5 0 a\n1 0 0 0 1 1 r\n".toUTF8.toList).toOption.any
      (fun S => decide (S.root.dirs.Pairwise fun a b => a.name < b.name) &&
        S.root.dirs.all (·.dirs.isEmpty) &&
        (inventory memWalker {} { root := pairTree } .diff (DirEntry.root "r") (some S)).toOption.any
          fun _ => true) = true := by
    decide +kernel
  obtain ⟨S, accepted, fits⟩ := Scan.exists_ok_of_toOption_any checked
  simp only [Bool.and_eq_true, decide_eq_true_eq, List.all_eq_true, List.isEmpty_iff] at fits
  obtain ⟨⟨rootSorted, leaves⟩, diffs⟩ := fits
  obtain ⟨r, diffed, -⟩ := Scan.exists_ok_of_toOption_any diffs
  -- The snapshot's tree is a sorted root over leaves.
  have sorted : ∀ o ∈ some S, o.root.SortedNames := by
    intro o member
    obtain rfl := Option.mem_some_iff.mp member
    refine DirEntry.sortedNames_of_children rootSorted fun c child => ?_
    refine DirEntry.sortedNames_of_children (by rw [leaves c child]; exact List.Pairwise.nil) ?_
    intro b below
    rw [leaves c child] at below
    exact absurd below List.not_mem_nil
  exact ⟨S, r, accepted, pairTree_distinctDirs, sorted, diffed,
    diff_carries_ids pairTree_distinctDirs {} "r" sorted diffed⟩

/-- A snapshot the reader accepts whose root lists `b` before `a`, each name once (the
root's entry comes before its children's, so the reader leaves them in the order they
come). The merge walks the two listings as if both were sorted, so it passes the old
`a` (id `3`) before it reaches the live one: the diff of `pairTree` gives the live `a`
the fresh id `4`. -/
theorem unsorted_snapshot_drops_id :
    ∃ S, Snapshot.read
        "0 1 r\n1 0 0 0 1 0 r\n0 2 r/b\n1 1 0 0 2 0 b\n0 3 r/a\n1 1 1 0 3 0 a\n".toUTF8.toList = .ok S ∧
      S.root.dirs.map (fun c => (c.name, c.id)) = [("b", 2), ("a", 3)] ∧
      ∃ r, inventory memWalker {} { root := pairTree } .diff (DirEntry.root "r") (some S) = .ok r ∧
        ∃ (tree : DirEntry) (patch : List Line),
          r.output = "* 6c953913dbe38f88bc980c4ab6bfe60f\n" ++ Wire.text patch ++ tree.dumpText ∧
          tree.dirs.map (fun c => (c.name, c.id)) = [("a", 4)] := by
  have checked : (Snapshot.read
      "0 1 r\n1 0 0 0 1 0 r\n0 2 r/b\n1 1 0 0 2 0 b\n0 3 r/a\n1 1 1 0 3 0 a\n".toUTF8.toList).toOption.any
      (fun S => S.root.dirs.map (fun c => (c.name, c.id)) == [("b", 2), ("a", 3)] && S.maxId == 3 &&
        S.digest.toHex == "6c953913dbe38f88bc980c4ab6bfe60f" &&
        (Scan.run memWalker {} { root := pairTree } (DirEntry.root "r") (some S.root) ⟨4⟩).toOption.any
          fun scan => scan.tree.dirs.map (fun c => (c.name, c.id)) == [("a", 4)]) = true := by
    decide +kernel
  obtain ⟨S, accepted, fits⟩ := Scan.exists_ok_of_toOption_any checked
  simp only [Bool.and_eq_true, beq_iff_eq] at fits
  obtain ⟨⟨⟨listed, largest⟩, hex⟩, ran⟩ := fits
  obtain ⟨scan, ran, renumbered⟩ := Scan.exists_ok_of_toOption_any ran
  rw [beq_iff_eq] at renumbered
  have after : IdSupply.after S.maxId = .ok ⟨4⟩ := by rw [largest]; rfl
  refine ⟨S, accepted, listed, _, inventory_diff_of_run after ran, scan.tree, scan.patch, ?_, renumbered⟩
  have header : "* " ++ "6c953913dbe38f88bc980c4ab6bfe60f" ++ "\n" = "* 6c953913dbe38f88bc980c4ab6bfe60f\n" := by
    decide
  rw [hex, Scan.run_dump ran rfl rfl, DirEntry.dumpText]
  dsimp only
  rw [header]

end TreeDump
