import Mathlib
import TreeDump.Entry.Replay

/-!
Views of a directory tree.

Owns: the induction principle of `DirEntry` (a property of every child directory
gives it for the parent); the directories of a tree in depth-first pre-order,
`allDirs`; the tree with its fingerprints erased, `undigested`; its largest
directory id; its `breadth`, the most directories a reader of its dump holds open
at once below the root; and `Replayable`, the trees the dump format carries.

A replayable tree is what a reader can rebuild from its dump: distinct positive
directory ids, every partition sorted by name (byte order, repeated names
allowed), no line break in any name, and every number within the word the wire
format gives it.
-/

namespace TreeDump.DirEntry

/-- A property of every directory follows from a property of each directory given
the property of its child directories. -/
theorem induction {motive : DirEntry → Prop} (step : ∀ d, (∀ c ∈ d.dirs, motive c) → motive d) :
    ∀ d, motive d :=
  -- The nested recursor, with "every directory of the list" as the motive for lists.
  @DirEntry.rec motive (fun l => ∀ c ∈ l, motive c)
    (fun _ _ _ _ _ _ _ _ inductionHypothesis => step _ inductionHypothesis)
    (fun _ member => absurd member List.not_mem_nil)
    (fun _ _ headHolds tailHolds c member => by
      rcases List.mem_cons.mp member with rfl | member
      · exact headHolds
      · exact tailHolds c member)

/-! ### Directories in pre-order -/

/-- The directories of a tree, its root first, in depth-first pre-order. -/
def allDirs : DirEntry → List DirEntry
  | ⟨name, size, id, fid, items, digest, dirs, files⟩ =>
    ⟨name, size, id, fid, items, digest, dirs, files⟩ :: dirs.flatMap allDirs

theorem allDirs_eq (d : DirEntry) : d.allDirs = d :: d.dirs.flatMap allDirs := by
  cases d
  rw [allDirs]

/-- The ids of the directories below the roots of `ds` include the roots' own. -/
theorem map_id_sublist_flatMap_allDirs (ds : List DirEntry) :
    (ds.map (·.id)).Sublist ((ds.flatMap allDirs).map (·.id)) := by
  induction ds with
  | nil => exact List.Sublist.slnil
  | cons d ds inductionHypothesis =>
      rw [List.flatMap_cons, allDirs_eq, List.map_append, List.map_cons, List.map_cons,
        List.cons_append]
      exact (inductionHypothesis.trans (List.sublist_append_right _ _)).cons_cons _

theorem mem_allDirs_self (d : DirEntry) : d ∈ d.allDirs := by
  rw [allDirs_eq]
  exact List.mem_cons_self

theorem allDirs_subset_of_mem {d c : DirEntry} (child : c ∈ d.dirs) : c.allDirs ⊆ d.allDirs := by
  intro e member
  rw [allDirs_eq]
  exact List.mem_cons_of_mem _ (List.mem_flatMap.mpr ⟨c, child, member⟩)

/-! ### Erasing fingerprints -/

/-- The tree with every fingerprint erased, as a reader rebuilds it from a dump. -/
def undigested : DirEntry → DirEntry
  | ⟨name, size, id, fid, items, _, dirs, files⟩ =>
    ⟨name, size, id, fid, items, none, dirs.map undigested, files⟩

section Undigested

variable (d : DirEntry)

@[simp] theorem undigested_name : d.undigested.name = d.name := by cases d; rw [undigested]
@[simp] theorem undigested_size : d.undigested.size = d.size := by cases d; rw [undigested]
@[simp] theorem undigested_id : d.undigested.id = d.id := by cases d; rw [undigested]
@[simp] theorem undigested_fid : d.undigested.fid = d.fid := by cases d; rw [undigested]
@[simp] theorem undigested_items : d.undigested.items = d.items := by cases d; rw [undigested]
@[simp] theorem undigested_digest : d.undigested.digest = none := by cases d; rw [undigested]
@[simp] theorem undigested_dirs : d.undigested.dirs = d.dirs.map undigested := by
  cases d; rw [undigested]
@[simp] theorem undigested_files : d.undigested.files = d.files := by cases d; rw [undigested]

end Undigested

/-- A dump does not depend on fingerprints. -/
theorem replayInside_undigested (marker : Option Wire.Marker) :
    ∀ (d : DirEntry) (path : String),
      d.undigested.replayInside marker path = d.replayInside marker path := by
  intro d
  induction d using DirEntry.induction with
  | step d inductionHypothesis =>
      intro path
      rcases d with ⟨name, size, id, fid, items, digest, dirs, files⟩
      simp only [undigested, replayInside, List.map_map, List.flatMap_map, Function.comp_def,
        declaration, entryLine, undigested_id, undigested_name, undigested_fid, undigested_size,
        undigested_items]
      congr 2
      exact List.flatMap_congr fun c member => inductionHypothesis c member _

theorem replayInside_eq (marker : Option Wire.Marker) (path : String) (d : DirEntry) :
    d.replayInside marker path =
      d.dirs.map (fun c => c.declaration marker (Wire.childPath path d.name c.name)) ++
        d.files.map (FileEntry.entryLine marker d.id) ++
        d.dirs.flatMap (fun c => c.replayInside marker (Wire.childPath path d.name c.name)) ++
        d.dirs.map (DirEntry.entryLine marker d.id) := by
  cases d
  rw [replayInside]

theorem replay_undigested (marker : Option Wire.Marker) (path : String) (parent : Nat)
    (d : DirEntry) : d.undigested.replay marker path parent = d.replay marker path parent := by
  simp [replay, replayInside_undigested, declaration, entryLine]

/-! ### Measures -/

/-- The largest directory id of a tree. -/
def largestId : DirEntry → Nat
  | ⟨_, _, id, _, _, _, dirs, _⟩ => max id ((dirs.map largestId).foldr max 0)

/-- The largest directory id below the root of a tree. -/
def largestBelow (d : DirEntry) : Nat := (d.dirs.map largestId).foldr max 0

theorem largestId_eq (d : DirEntry) : d.largestId = max d.id d.largestBelow := by
  cases d
  rw [largestId, largestBelow]

theorem foldr_max_map_max {α : Type} (f g : α → Nat) (xs : List α) :
    (xs.map fun x => max (f x) (g x)).foldr max 0 = max ((xs.map f).foldr max 0) ((xs.map g).foldr max 0) := by
  induction xs with
  | nil => rfl
  | cons x xs inductionHypothesis =>
      simp only [List.map_cons, List.foldr_cons, inductionHypothesis]
      omega

/-- Below the root, the largest id is that of a child or lies below a child. -/
theorem largestBelow_eq (d : DirEntry) :
    d.largestBelow = max ((d.dirs.map (·.id)).foldr max 0) ((d.dirs.map largestBelow).foldr max 0) := by
  rw [largestBelow, ← foldr_max_map_max]
  congr 1
  exact List.map_congr_left fun c _ => largestId_eq c

/-- The most directories a reader of the tree's dump holds open at once below the
root: every child directory of each directory on the way down. -/
def breadth : DirEntry → Nat
  | ⟨_, _, _, _, _, _, dirs, _⟩ => dirs.length + (dirs.map breadth).foldr max 0

theorem breadth_eq (d : DirEntry) :
    d.breadth = d.dirs.length + (d.dirs.map breadth).foldr max 0 := by
  cases d
  rw [breadth]

theorem le_foldr_max {xs : List Nat} {x : Nat} (member : x ∈ xs) : x ≤ xs.foldr max 0 := by
  induction xs with
  | nil => cases member
  | cons y ys inductionHypothesis =>
      rcases List.mem_cons.mp member with rfl | member
      · exact le_max_left _ _
      · exact le_trans (inductionHypothesis member) (le_max_right _ _)

theorem exists_lt_of_lt_foldr_max {α : Type} {f : α → Nat} {xs : List α} {k : Nat}
    (below : k < (xs.map f).foldr max 0) : ∃ x ∈ xs, k < f x := by
  induction xs with
  | nil => exact absurd below (Nat.not_lt_zero k)
  | cons x xs inductionHypothesis =>
      rw [List.map_cons, List.foldr_cons] at below
      by_cases head : k < f x
      · exact ⟨x, List.mem_cons_self, head⟩
      · obtain ⟨y, member, wide⟩ := inductionHypothesis (by omega)
        exact ⟨y, List.mem_cons_of_mem x member, wide⟩

theorem breadth_child_le {d c : DirEntry} (child : c ∈ d.dirs) :
    d.dirs.length + c.breadth ≤ d.breadth := by
  rw [breadth_eq d]
  have := le_foldr_max (List.mem_map.mpr ⟨c, child, rfl⟩ : c.breadth ∈ d.dirs.map breadth)
  omega

/-! ### Replayable trees -/

/-- What one directory's lines need: a positive id, numbers within their words,
names without a line break, and both partitions sorted by name. -/
structure Sound (d : DirEntry) : Prop where
  idPos : d.id ≠ 0
  idFits : d.id < idRange
  fidFits : d.fid < idRange
  sizeFits : d.size < sizeRange
  itemsFits : d.items < idRange
  nameNoBreak : '\n' ∉ d.name.toList
  dirsSorted : d.dirs.Pairwise (fun a b => a.name ≤ b.name)
  filesSorted : d.files.Pairwise (fun a b => a.name ≤ b.name)
  filesFit : ∀ f ∈ d.files, f.fid < idRange ∧ f.size < sizeRange ∧ '\n' ∉ f.name.toList

/-- A tree whose dump a reader rebuilds: its directories are sound and their ids
distinct. -/
structure Replayable (d : DirEntry) : Prop where
  idsNodup : (d.allDirs.map (·.id)).Nodup
  sound : ∀ e ∈ d.allDirs, e.Sound

theorem mem_flatMap_allDirs_of_mem {ds : List DirEntry} {x : DirEntry} (member : x ∈ ds) :
    x ∈ ds.flatMap allDirs :=
  List.mem_flatMap.mpr ⟨x, member, mem_allDirs_self x⟩

theorem mem_flatMap_allDirs_of_below {ds : List DirEntry} {x y : DirEntry} (member : x ∈ ds)
    (below : y ∈ x.dirs.flatMap allDirs) : y ∈ ds.flatMap allDirs :=
  List.mem_flatMap.mpr ⟨x, member, by
    rw [allDirs_eq]
    exact List.mem_cons_of_mem _ below⟩

/-- With distinct ids among the directories below `ds`, no directory strictly below
one of `ds` shares an id with one of `ds`. -/
theorem id_not_mem_of_mem_below {ds : List DirEntry} (idsNodup : ((ds.flatMap allDirs).map (·.id)).Nodup)
    {e x : DirEntry} (member : e ∈ ds) (below : x ∈ e.dirs.flatMap allDirs) :
    x.id ∉ ds.map (·.id) := by
  induction ds with
  | nil => cases member
  | cons d ds inductionHypothesis =>
      rw [List.flatMap_cons, List.map_append] at idsNodup
      obtain ⟨headNodup, tailNodup, apart⟩ := List.nodup_append.mp idsNodup
      have tailIds := map_id_sublist_flatMap_allDirs ds
      rw [List.map_cons, List.mem_cons, not_or]
      rcases List.mem_cons.mp member with rfl | member
      · rw [allDirs_eq, List.map_cons] at headNodup apart
        have belowId : x.id ∈ (e.dirs.flatMap allDirs).map (·.id) := List.mem_map_of_mem below
        refine ⟨fun same => (List.nodup_cons.mp headNodup).1 (same ▸ belowId), fun inTail => ?_⟩
        exact apart x.id (List.mem_cons_of_mem _ belowId) x.id (tailIds.subset inTail) rfl
      · refine ⟨fun same => ?_, inductionHypothesis tailNodup member⟩
        exact apart d.id (List.mem_map_of_mem (mem_allDirs_self d)) x.id
          (List.mem_map_of_mem (mem_flatMap_allDirs_of_below member below)) same.symm

theorem Replayable.child {d c : DirEntry} (replayable : d.Replayable) (child : c ∈ d.dirs) :
    c.Replayable where
  idsNodup := by
    have sub : c.allDirs.Sublist (d.dirs.flatMap allDirs) := by
      rw [List.flatMap_def]
      exact List.sublist_flatten_of_mem (List.mem_map_of_mem child)
    have nodup := replayable.idsNodup
    rw [allDirs_eq] at nodup
    exact nodup.sublist ((sub.map _).cons _)
  sound := fun e member => replayable.sound e (allDirs_subset_of_mem child member)

section Replayable

variable {d : DirEntry} (replayable : d.Replayable)
include replayable

theorem Replayable.soundSelf : d.Sound := replayable.sound d (mem_allDirs_self d)

theorem Replayable.soundChild {c : DirEntry} (child : c ∈ d.dirs) : c.Sound :=
  replayable.sound c (allDirs_subset_of_mem child (mem_allDirs_self c))

theorem Replayable.belowNodup : ((d.dirs.flatMap allDirs).map (·.id)).Nodup := by
  have nodup := replayable.idsNodup
  rw [allDirs_eq, List.map_cons] at nodup
  exact (List.nodup_cons.mp nodup).2

theorem Replayable.id_not_mem_below : d.id ∉ (d.dirs.flatMap allDirs).map (·.id) := by
  have nodup := replayable.idsNodup
  rw [allDirs_eq, List.map_cons] at nodup
  exact (List.nodup_cons.mp nodup).1

theorem Replayable.childNodup : (d.dirs.map (·.id)).Nodup :=
  replayable.belowNodup.sublist (map_id_sublist_flatMap_allDirs d.dirs)

theorem Replayable.id_not_mem_children : d.id ∉ d.dirs.map (·.id) := fun inChildren =>
  replayable.id_not_mem_below ((map_id_sublist_flatMap_allDirs d.dirs).subset inChildren)

end Replayable

end TreeDump.DirEntry
