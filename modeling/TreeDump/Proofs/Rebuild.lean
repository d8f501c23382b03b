import Mathlib
import TreeDump.Inventory
import TreeDump.Proofs.Reading

/-!
Rebuilding a tree from its dump.

Owns: what reading each part of a directory's lines does to the reader's table
(the declarations of its child directories, the entries of its files, the lines
inside each child, the entries of the children); the invariant that carries the
induction over the tree, `ReadsInside`, and its counterpart `FailsInside`; and the
two results on whole dumps: the dump of a replayable tree reads back as the tree
without its fingerprints when the reader's table has room for the directories it
holds at once (`read_dumpText`), and the read fails when it has not
(`read_dumpText_error`).

The room needed is `1 + breadth`: the root, and at every level on the way down
the child directories of each directory, all declared before any of them is
placed. The table holds fewer than `IdTable.limit` ids.
-/

namespace TreeDump

open Wire

/-- A directory as a reader holds it after the lines inside it and before its own
entry: a placeholder with its files and its child directories read back. -/
def DirEntry.unplaced (d : DirEntry) : DirEntry :=
  { name := "", files := d.files, dirs := d.dirs.map DirEntry.undigested }

namespace Snapshot

/-- Filling a directory read back gives it its own fields, and the sort leaves its
sorted partitions as they stand. -/
theorem fill_unplaced {d : DirEntry} (sound : d.Sound) :
    fill d.name d.fid d.size d.id d.items d.unplaced = d.undigested := by
  have dirsSorted : (d.dirs.map DirEntry.undigested).mergeSort DirEntry.nameLe =
      d.dirs.map DirEntry.undigested := by
    apply List.mergeSort_of_pairwise
    rw [List.pairwise_map]
    exact sound.dirsSorted.imp fun before => by simpa [DirEntry.nameLe] using before
  have filesSorted : d.files.mergeSort FileEntry.nameLe = d.files := by
    apply List.mergeSort_of_pairwise
    exact sound.filesSorted.imp fun before => by simpa [FileEntry.nameLe] using before
  simp only [fill, DirEntry.unplaced, dirsSorted, filesSorted]
  cases d
  rw [DirEntry.undigested]

namespace Progress

/-! ### A directory's lines, part by part -/

/-- Declaring directories that the table does not hold yet puts a placeholder under
each id, as long as the table has room for all of them. -/
theorem readLines_declarations (pathOf : DirEntry → String) (ds : List DirEntry) {p : Progress}
    (n : Nat)
    (wf : p.table.WellFormed) (idsNodup : (ds.map (·.id)).Nodup)
    (readable : ∀ e ∈ ds, (e.declaration none (pathOf e)).Readable)
    (idsPos : ∀ e ∈ ds, e.id ≠ 0) (fresh : ∀ e ∈ ds, p.table.get? e.id = none)
    (room : p.table.size + ds.length < IdTable.limit) :
    ∃ t, p.readLines n ((ds.map fun e => e.declaration none (pathOf e)).map lineBytes) =
        .ok ⟨t, max p.maxId ((ds.map (·.id)).foldr max 0), p.rootId⟩ ∧
      t.WellFormed ∧ t.size = p.table.size + ds.length ∧
      ∀ j, t.get? j = if j ∈ ds.map (·.id) then some { name := "" } else p.table.get? j := by
  induction ds generalizing p n with
  | nil =>
      refine ⟨p.table, ?_, wf, rfl, fun j => by simp⟩
      simp [readLines_nil]
  | cons e ds inductionHypothesis =>
      have member : e ∈ e :: ds := List.mem_cons_self
      have later : ∀ x ∈ ds, x ∈ e :: ds := fun x hx => List.mem_cons_of_mem e hx
      obtain ⟨headFresh, tailNodup⟩ := List.nodup_cons.mp idsNodup
      simp only [List.length_cons] at room
      obtain ⟨t₁, inserted⟩ := IdTable.exists_insert_eq_ok wf (idsPos e member) (fresh e member)
        ({ name := "" } : DirEntry) (by omega)
      have found₁ := IdTable.get?_of_insert_eq_ok inserted
      have step : p.readLine n (lineBytes (e.declaration none (pathOf e))) =
          .ok ⟨t₁, max p.maxId e.id, p.rootId⟩ := by
        rw [readLine_unmarked p n (readable e member) rfl]
        exact apply_directory _ inserted
      have tailFresh : ∀ x ∈ ds, t₁.get? x.id = none := by
        intro x hx
        have apart : x.id ≠ e.id := fun same => headFresh (List.mem_map.mpr ⟨x, hx, same⟩)
        rw [found₁, if_neg apart]
        exact fresh x (later x hx)
      obtain ⟨t, reads, wf', size', found⟩ :=
        inductionHypothesis (p := ⟨t₁, max p.maxId e.id, p.rootId⟩) (n + 1)
          (wf.of_insert inserted) tailNodup (fun x hx => readable x (later x hx))
          (fun x hx => idsPos x (later x hx)) tailFresh
          (by rw [IdTable.size_of_insert_eq_ok inserted]; omega)
      refine ⟨t, ?_, wf', ?_, fun j => ?_⟩
      · simp only [List.map_cons, List.foldr_cons]
        rw [readLines_cons_ok step, reads, max_assoc]
      · rw [size', IdTable.size_of_insert_eq_ok inserted, List.length_cons]
        omega
      · rw [found j, found₁ j]
        by_cases head : j = e.id
        · simp [head]
        · simp [head]

theorem readLines_declarations_error (pathOf : DirEntry → String) (ds : List DirEntry)
    {p : Progress} (n : Nat) (wf : p.table.WellFormed) (idsNodup : (ds.map (·.id)).Nodup)
    (readable : ∀ e ∈ ds, (e.declaration none (pathOf e)).Readable)
    (idsPos : ∀ e ∈ ds, e.id ≠ 0) (fresh : ∀ e ∈ ds, p.table.get? e.id = none)
    (full : IdTable.limit ≤ p.table.size + ds.length) :
    ∃ err, p.readLines n ((ds.map fun e => e.declaration none (pathOf e)).map lineBytes) =
      .error err := by
  induction ds generalizing p n with
  | nil =>
      have := wf.size_lt_limit
      simp only [List.length_nil] at full
      omega
  | cons e ds inductionHypothesis =>
      have member : e ∈ e :: ds := List.mem_cons_self
      have later : ∀ x ∈ ds, x ∈ e :: ds := fun x hx => List.mem_cons_of_mem e hx
      obtain ⟨headFresh, tailNodup⟩ := List.nodup_cons.mp idsNodup
      simp only [List.length_cons] at full
      simp only [List.map_cons]
      by_cases room : p.table.size + 1 < IdTable.limit
      · -- The first declaration fits; the table runs out further on.
        obtain ⟨t₁, inserted⟩ := IdTable.exists_insert_eq_ok wf (idsPos e member) (fresh e member)
          ({ name := "" } : DirEntry) room
        have found₁ := IdTable.get?_of_insert_eq_ok inserted
        have step : p.readLine n (lineBytes (e.declaration none (pathOf e))) =
            .ok ⟨t₁, max p.maxId e.id, p.rootId⟩ := by
          rw [readLine_unmarked p n (readable e member) rfl]
          exact apply_directory _ inserted
        rw [readLines_cons_ok step]
        exact inductionHypothesis (p := ⟨t₁, max p.maxId e.id, p.rootId⟩) (n + 1)
          (wf.of_insert inserted) tailNodup (fun x hx => readable x (later x hx))
          (fun x hx => idsPos x (later x hx))
          (fun x hx => by
            rw [found₁, if_neg fun same => headFresh (List.mem_map.mpr ⟨x, hx, same⟩)]
            exact fresh x (later x hx))
          (by rw [IdTable.size_of_insert_eq_ok inserted]; omega)
      · obtain ⟨err, refused⟩ := IdTable.exists_insert_eq_error wf (idsPos e member)
          (fresh e member) ({ name := "" } : DirEntry) (by omega)
        have step : p.readLine n (lineBytes (e.declaration none (pathOf e))) =
            .error (.table n err) := by
          rw [readLine_unmarked p n (readable e member) rfl]
          exact apply_directory_error _ refused
        exact ⟨_, readLines_cons_error step _⟩

/-- The entries of a directory's files append them to its placeholder, in order. -/
theorem readLines_files (fs : List FileEntry) {p : Progress} (id : Nat) (v : DirEntry) (n : Nat)
    (wf : p.table.WellFormed) (found : p.table.get? id = some v)
    (readable : ∀ f ∈ fs, (f.entryLine none id).Readable) :
    ∃ t, p.readLines n ((fs.map (FileEntry.entryLine none id)).map lineBytes) =
        .ok ⟨t, p.maxId, p.rootId⟩ ∧
      t.WellFormed ∧ t.size = p.table.size ∧ t.get? id = some { v with files := v.files ++ fs } ∧
      ∀ j ≠ id, t.get? j = p.table.get? j := by
  induction fs generalizing p v n with
  | nil =>
      refine ⟨p.table, ?_, wf, rfl, by rw [List.append_nil]; cases v; exact found,
        fun j _ => rfl⟩
      simp [readLines_nil]
  | cons f fs inductionHypothesis =>
      obtain ⟨t₁, modified⟩ := IdTable.exists_modify?_eq_some found
        (fun up => { up with files := up.files ++ [{ name := f.name, size := f.size, fid := f.fid }] })
      have found₁ := IdTable.get?_of_modify?_eq_some modified
      have step : p.readLine n (lineBytes (f.entryLine none id)) = .ok ⟨t₁, p.maxId, p.rootId⟩ := by
        rw [readLine_unmarked p n (readable f List.mem_cons_self) rfl]
        exact apply_fileEntry modified
      obtain ⟨t, reads, wf', size', foundId, others⟩ :=
        inductionHypothesis (p := ⟨t₁, p.maxId, p.rootId⟩) { v with files := v.files ++ [f] }
          (n + 1) (wf.of_modify? modified) (by rw [found₁ id, if_pos rfl, found]; rfl)
          (fun x hx => readable x (List.mem_cons_of_mem f hx))
      refine ⟨t, ?_, wf', ?_, ?_, fun j hj => ?_⟩
      · simp only [List.map_cons]
        rw [readLines_cons_ok step, reads]
      · rw [size', IdTable.size_of_modify?_eq_some modified]
      · rw [foundId]
        simp
      · rw [others j hj, found₁ j, if_neg hj]

/-- The entries of child directories, each held as read back, move them under their
parent in order. -/
theorem readLines_entries (ds : List DirEntry) {p : Progress} (id : Nat) (v : DirEntry) (n : Nat)
    (wf : p.table.WellFormed) (found : p.table.get? id = some v)
    (idsNodup : (ds.map (·.id)).Nodup) (notParent : ∀ e ∈ ds, e.id ≠ id)
    (held : ∀ e ∈ ds, p.table.get? e.id = some e.unplaced) (sound : ∀ e ∈ ds, e.Sound)
    (readable : ∀ e ∈ ds, (e.entryLine none id).Readable) :
    ∃ t, p.readLines n ((ds.map (DirEntry.entryLine none id)).map lineBytes) =
        .ok ⟨t, max p.maxId ((ds.map (·.id)).foldr max 0), p.rootId⟩ ∧
      t.WellFormed ∧ t.size + ds.length = p.table.size ∧
      t.get? id = some { v with dirs := v.dirs ++ ds.map DirEntry.undigested } ∧
      ∀ j ≠ id, t.get? j = if j ∈ ds.map (·.id) then none else p.table.get? j := by
  induction ds generalizing p v n with
  | nil =>
      refine ⟨p.table, ?_, wf, rfl, by rw [List.map_nil, List.append_nil]; cases v; exact found,
        fun j _ => by simp⟩
      simp [readLines_nil]
  | cons e ds inductionHypothesis =>
      have member : e ∈ e :: ds := List.mem_cons_self
      have later : ∀ x ∈ ds, x ∈ e :: ds := fun x hx => List.mem_cons_of_mem e hx
      obtain ⟨headFresh, tailNodup⟩ := List.nodup_cons.mp idsNodup
      have idPos : id ≠ 0 := by
        rintro rfl
        simp at found
      obtain ⟨t₁, erased⟩ := IdTable.exists_erase?_eq_some (held e member)
      have found₁ := IdTable.get?_of_erase?_eq_some erased
      obtain ⟨t₂, modified⟩ := IdTable.exists_modify?_eq_some (v := v)
        (by rw [found₁ id, if_neg (Ne.symm (notParent e member))]; exact found)
        (fun up => { up with dirs := up.dirs ++ [fill e.name e.fid e.size e.id e.items e.unplaced] })
      have found₂ := IdTable.get?_of_modify?_eq_some modified
      have step : p.readLine n (lineBytes (e.entryLine none id)) =
          .ok ⟨t₂, max p.maxId e.id, p.rootId⟩ := by
        rw [readLine_unmarked p n (readable e member) rfl]
        exact apply_dirEntry idPos (sound e member).idPos erased modified
      have unchanged : ∀ j ≠ id, t₂.get? j = if j = e.id then none else p.table.get? j := by
        intro j hj
        rw [found₂ j, if_neg hj, found₁ j]
      have tailHeld : ∀ x ∈ ds, t₂.get? x.id = some x.unplaced := by
        intro x hx
        have apart : x.id ≠ e.id := fun same => headFresh (List.mem_map.mpr ⟨x, hx, same⟩)
        rw [unchanged x.id (notParent x (later x hx)), if_neg apart]
        exact held x (later x hx)
      obtain ⟨t, reads, wf', size', foundId, others⟩ :=
        inductionHypothesis (p := ⟨t₂, max p.maxId e.id, p.rootId⟩)
          { v with dirs := v.dirs ++ [e.undigested] } (n + 1)
          ((wf.of_erase? erased).of_modify? modified)
          (by rw [found₂ id, if_pos rfl, found₁ id, if_neg (Ne.symm (notParent e member)), found,
                fill_unplaced (sound e member)]; rfl)
          tailNodup (fun x hx => notParent x (later x hx)) tailHeld (fun x hx => sound x (later x hx))
          (fun x hx => readable x (later x hx))
      refine ⟨t, ?_, wf', ?_, ?_, fun j hj => ?_⟩
      · simp only [List.map_cons, List.foldr_cons]
        rw [readLines_cons_ok step, reads, max_assoc]
      · have erasedSize := IdTable.size_of_erase?_eq_some wf erased
        have modifiedSize := IdTable.size_of_modify?_eq_some modified
        simp only [List.length_cons] at size' ⊢
        omega
      · rw [foundId]
        simp
      · rw [others j hj, unchanged j hj]
        by_cases head : j = e.id
        · simp [head]
        · simp [head]

section Opening

variable {d : DirEntry} (replayable : d.Replayable) {p : Progress} (n : Nat) {path : String}
  (wf : p.table.WellFormed) (fresh : ∀ e ∈ d.dirs.flatMap DirEntry.allDirs, p.table.get? e.id = none)
  (pathNoBreak : '\n' ∉ path.toList)
include replayable wf fresh pathNoBreak

/-- The lines that open a directory: the declarations of its child directories, then
the entries of its files. They leave each child declared and everything below the
children absent, as the lines inside the children need. -/
theorem readLines_opening (declared : p.table.get? d.id = some { name := "" })
    (width : p.table.size + d.dirs.length < IdTable.limit) :
    ∃ t, p.readLines n ((d.dirs.map fun e => e.declaration none (childPath path d.name e.name)).map
          lineBytes ++ (d.files.map (FileEntry.entryLine none d.id)).map lineBytes) =
        .ok ⟨t, max p.maxId ((d.dirs.map (·.id)).foldr max 0), p.rootId⟩ ∧
      t.WellFormed ∧ t.size = p.table.size + d.dirs.length ∧
      t.get? d.id = some { name := "", files := d.files } ∧
      (∀ e ∈ d.dirs, t.get? e.id = some { name := "" }) ∧
      (∀ e ∈ d.dirs, ∀ x ∈ e.dirs.flatMap DirEntry.allDirs, t.get? x.id = none) ∧
      ∀ j ≠ d.id, j ∉ d.dirs.map (·.id) → t.get? j = p.table.get? j := by
  obtain ⟨t₁, reads₁, wf₁, size₁, found₁⟩ :=
    readLines_declarations (fun e => childPath path d.name e.name) d.dirs n wf
      replayable.childNodup
      (fun e child => DirEntry.readable_declaration (replayable.soundChild child)
        (newline_not_mem_childPath pathNoBreak (replayable.soundChild child).nameNoBreak _) none)
      (fun e child => (replayable.soundChild child).idPos)
      (fun e child => fresh e (DirEntry.mem_flatMap_allDirs_of_mem child)) width
  obtain ⟨t₂, reads₂, wf₂, size₂, found₂, others₂⟩ :=
    readLines_files d.files (p := ⟨t₁, max p.maxId ((d.dirs.map (·.id)).foldr max 0), p.rootId⟩)
      d.id { name := "" } (n + d.dirs.length) wf₁
      (by rw [found₁, if_neg replayable.id_not_mem_children]; exact declared)
      (fun f file => FileEntry.readable_entryLine (replayable.soundSelf.filesFit f file)
        replayable.soundSelf.idFits none)
  -- Below `d`, the table changed only at the ids of its children.
  have kept : ∀ j ≠ d.id, t₂.get? j = if j ∈ d.dirs.map (·.id) then some { name := "" }
      else p.table.get? j := fun j hj => (others₂ j hj).trans (found₁ j)
  refine ⟨t₂, ?_, wf₂, size₂.trans size₁, found₂, fun e child => ?_, fun e child x below => ?_,
    fun j hj outside => ?_⟩
  · rw [readLines_append_ok reads₁, List.length_map, List.length_map, reads₂]
  · rw [kept e.id fun same => replayable.id_not_mem_children (List.mem_map.mpr ⟨e, child, same⟩),
      if_pos (List.mem_map_of_mem child)]
  · have deep := DirEntry.mem_flatMap_allDirs_of_below child below
    rw [kept x.id fun same => replayable.id_not_mem_below (List.mem_map.mpr ⟨x, deep, same⟩),
      if_neg (DirEntry.id_not_mem_of_mem_below replayable.belowNodup child below)]
    exact fresh x deep
  · rw [kept j hj, if_neg outside]

/-- Without room for all child directories at once, their declarations fail. -/
theorem readLines_opening_error (full : IdTable.limit ≤ p.table.size + d.dirs.length) :
    ∃ err, p.readLines n ((d.dirs.map fun e => e.declaration none (childPath path d.name e.name)).map
      lineBytes ++ (d.files.map (FileEntry.entryLine none d.id)).map lineBytes) = .error err := by
  obtain ⟨err, fails⟩ :=
    readLines_declarations_error (fun e => childPath path d.name e.name) d.dirs n wf
      replayable.childNodup
      (fun e child => DirEntry.readable_declaration (replayable.soundChild child)
        (newline_not_mem_childPath pathNoBreak (replayable.soundChild child).nameNoBreak _) none)
      (fun e child => (replayable.soundChild child).idPos)
      (fun e child => fresh e (DirEntry.mem_flatMap_allDirs_of_mem child)) full
  exact ⟨err, readLines_append_error fails _⟩

end Opening

/-- What the lines inside a directory do to a reader that holds its placeholder and
none of the directories below it: the directory's placeholder ends up holding its
files and its child directories read back, every other id is as it was, and the
largest id seen covers every id below the directory. -/
def ReadsInside (d : DirEntry) : Prop :=
  ∀ (p : Progress) (n : Nat) (path : String), p.table.WellFormed →
    p.table.get? d.id = some { name := "" } →
    (∀ e ∈ d.dirs.flatMap DirEntry.allDirs, p.table.get? e.id = none) →
    '\n' ∉ path.toList → p.table.size + d.breadth < IdTable.limit →
    ∃ t, p.readLines n ((d.replayInside none path).map lineBytes) =
        .ok ⟨t, max p.maxId d.largestBelow, p.rootId⟩ ∧
      t.WellFormed ∧ t.size = p.table.size ∧ t.get? d.id = some d.unplaced ∧
      ∀ j ≠ d.id, t.get? j = p.table.get? j

/-- Reading inside one directory leaves the directories at and below its later
siblings as they were. -/
theorem later_unchanged {e : DirEntry} {ds : List DirEntry} {t t' : IdTable DirEntry}
    (idsNodup : (((e :: ds).flatMap DirEntry.allDirs).map (·.id)).Nodup)
    (others : ∀ j ≠ e.id, t'.get? j = t.get? j) :
    ∀ x ∈ ds.flatMap DirEntry.allDirs, t'.get? x.id = t.get? x.id := by
  rw [List.flatMap_cons, List.map_append] at idsNodup
  obtain ⟨-, -, apart⟩ := List.nodup_append.mp idsNodup
  intro x below
  exact others x.id fun same => apart e.id (List.mem_map_of_mem (DirEntry.mem_allDirs_self e))
    x.id (List.mem_map_of_mem below) same.symm

theorem tail_nodup {e : DirEntry} {ds : List DirEntry}
    (idsNodup : (((e :: ds).flatMap DirEntry.allDirs).map (·.id)).Nodup) :
    ((ds.flatMap DirEntry.allDirs).map (·.id)).Nodup := by
  rw [List.flatMap_cons, List.map_append] at idsNodup
  exact (List.nodup_append.mp idsNodup).2.1

theorem head_not_mem_later {e : DirEntry} {ds : List DirEntry}
    (idsNodup : (((e :: ds).flatMap DirEntry.allDirs).map (·.id)).Nodup) :
    e.id ∉ ds.map (·.id) := by
  rw [List.flatMap_cons, List.map_append] at idsNodup
  obtain ⟨-, -, apart⟩ := List.nodup_append.mp idsNodup
  intro inTail
  exact apart e.id (List.mem_map_of_mem (DirEntry.mem_allDirs_self e)) e.id
    ((DirEntry.map_id_sublist_flatMap_allDirs ds).subset inTail) rfl

/-- The lines inside sibling directories, read one directory after the other. -/
theorem readLines_insides (pathOf : DirEntry → String) (ds : List DirEntry) {p : Progress}
    (n : Nat) (reads : ∀ e ∈ ds, ReadsInside e) (wf : p.table.WellFormed)
    (idsNodup : ((ds.flatMap DirEntry.allDirs).map (·.id)).Nodup)
    (declared : ∀ e ∈ ds, p.table.get? e.id = some { name := "" })
    (fresh : ∀ e ∈ ds, ∀ x ∈ e.dirs.flatMap DirEntry.allDirs, p.table.get? x.id = none)
    (paths : ∀ e ∈ ds, '\n' ∉ (pathOf e).toList)
    (room : ∀ e ∈ ds, p.table.size + e.breadth < IdTable.limit) :
    ∃ t, p.readLines n ((ds.flatMap fun e => e.replayInside none (pathOf e)).map lineBytes) =
        .ok ⟨t, max p.maxId ((ds.map DirEntry.largestBelow).foldr max 0), p.rootId⟩ ∧
      t.WellFormed ∧ t.size = p.table.size ∧ (∀ e ∈ ds, t.get? e.id = some e.unplaced) ∧
      ∀ j ∉ ds.map (·.id), t.get? j = p.table.get? j := by
  induction ds generalizing p n with
  | nil =>
      refine ⟨p.table, ?_, wf, rfl, fun _ member => absurd member List.not_mem_nil, fun j _ => rfl⟩
      simp [readLines_nil]
  | cons e ds inductionHypothesis =>
      have member : e ∈ e :: ds := List.mem_cons_self
      have later : ∀ x ∈ ds, x ∈ e :: ds := fun x hx => List.mem_cons_of_mem e hx
      obtain ⟨t₁, reads₁, wf₁, size₁, found₁, others₁⟩ :=
        reads e member p n (pathOf e) wf (declared e member) (fresh e member) (paths e member)
          (room e member)
      have unchanged := later_unchanged idsNodup others₁
      obtain ⟨t, reads', wf', size', held, others⟩ :=
        inductionHypothesis (p := ⟨t₁, max p.maxId e.largestBelow, p.rootId⟩)
          (n + (e.replayInside none (pathOf e)).length) (fun x hx => reads x (later x hx)) wf₁
          (tail_nodup idsNodup)
          (fun x hx => (unchanged x (DirEntry.mem_flatMap_allDirs_of_mem hx)).trans
            (declared x (later x hx)))
          (fun x hx y hy => (unchanged y (DirEntry.mem_flatMap_allDirs_of_below hx hy)).trans
            (fresh x (later x hx) y hy))
          (fun x hx => paths x (later x hx))
          (fun x hx => by rw [size₁]; exact room x (later x hx))
      refine ⟨t, ?_, wf', size'.trans size₁, fun x hx => ?_, fun j hj => ?_⟩
      · rw [List.flatMap_cons, List.map_append, readLines_append_ok reads₁, List.length_map, reads']
        simp only [List.map_cons, List.foldr_cons, max_assoc]
      · rcases List.mem_cons.mp hx with rfl | hx
        · rw [others x.id (head_not_mem_later idsNodup)]
          exact found₁
        · exact held x hx
      · rw [List.map_cons, List.mem_cons, not_or] at hj
        rw [others j hj.2, others₁ j hj.1]

/-- The lines inside every replayable directory read as `ReadsInside` says. By
induction on the tree: a directory's lines are its opening lines, the lines
inside each child, and the entries of the children. -/
theorem readsInside : ∀ d : DirEntry, d.Replayable → ReadsInside d := by
  intro d
  induction d using DirEntry.induction with
  | step d inductionHypothesis =>
      intro replayable p n path wf declared fresh pathNoBreak room
      have width : p.table.size + d.dirs.length < IdTable.limit := by
        rw [DirEntry.breadth_eq] at room
        omega
      obtain ⟨t₂, reads₂, wf₂, size₂, found₂, declared₂, fresh₂, others₂⟩ :=
        readLines_opening replayable n wf fresh pathNoBreak declared width
      obtain ⟨t₃, reads₃, wf₃, size₃, held₃, others₃⟩ :=
        readLines_insides (fun e => childPath path d.name e.name) d.dirs
          (p := ⟨t₂, max p.maxId ((d.dirs.map (·.id)).foldr max 0), p.rootId⟩)
          (n + (d.dirs.length + d.files.length))
          (fun e child => inductionHypothesis e child (replayable.child child)) wf₂
          replayable.belowNodup declared₂ fresh₂
          (fun e child => newline_not_mem_childPath pathNoBreak (replayable.soundChild child).nameNoBreak _)
          (fun e child => by
            have := DirEntry.breadth_child_le child
            rw [size₂]
            omega)
      obtain ⟨t₄, reads₄, wf₄, size₄, found₄, others₄⟩ :=
        readLines_entries d.dirs
          (p := ⟨t₃, max (max p.maxId ((d.dirs.map (·.id)).foldr max 0))
            ((d.dirs.map DirEntry.largestBelow).foldr max 0), p.rootId⟩)
          d.id { name := "", files := d.files }
          (n + (d.dirs.length + d.files.length) +
            (d.dirs.flatMap fun e => e.replayInside none (childPath path d.name e.name)).length)
          wf₃ ((others₃ d.id replayable.id_not_mem_children).trans found₂) replayable.childNodup
          (fun e child same => replayable.id_not_mem_children (List.mem_map.mpr ⟨e, child, same⟩))
          held₃ (fun e child => replayable.soundChild child)
          (fun e child => DirEntry.readable_entryLine (replayable.soundChild child)
            replayable.soundSelf.idFits none)
      dsimp only at size₃ size₄
      refine ⟨t₄, ?_, wf₄, by omega, by rw [found₄]; rfl, fun j hj => ?_⟩
      · rw [DirEntry.replayInside_eq]
        simp only [List.map_append, List.append_assoc]
        rw [← List.append_assoc, readLines_append_ok reads₂, List.length_append, List.length_map,
          List.length_map, List.length_map, List.length_map, readLines_append_ok reads₃,
          List.length_map, reads₄, DirEntry.largestBelow_eq]
        dsimp only
        congr 2
        omega
      · rw [others₄ j hj]
        by_cases child : j ∈ d.dirs.map (·.id)
        · rw [if_pos child]
          obtain ⟨e, member, rfl⟩ := List.mem_map.mp child
          exact (fresh e (DirEntry.mem_flatMap_allDirs_of_mem member)).symm
        · rw [if_neg child, others₃ j child]
          exact others₂ j hj child

/-- What the lines inside a directory do to a reader that lacks room for the
directories they hold at once: they fail. -/
def FailsInside (d : DirEntry) : Prop :=
  ∀ (p : Progress) (n : Nat) (path : String), p.table.WellFormed →
    p.table.get? d.id = some { name := "" } →
    (∀ e ∈ d.dirs.flatMap DirEntry.allDirs, p.table.get? e.id = none) →
    '\n' ∉ path.toList → IdTable.limit ≤ p.table.size + d.breadth →
    ∃ err, p.readLines n ((d.replayInside none path).map lineBytes) = .error err

/-- The lines inside sibling directories fail when one of them lacks room: those
before it are read, and it fails. -/
theorem readLines_insides_error (pathOf : DirEntry → String) (ds : List DirEntry)
    {p : Progress} (n : Nat) (reads : ∀ e ∈ ds, ReadsInside e) (fails : ∀ e ∈ ds, FailsInside e)
    (wf : p.table.WellFormed) (idsNodup : ((ds.flatMap DirEntry.allDirs).map (·.id)).Nodup)
    (declared : ∀ e ∈ ds, p.table.get? e.id = some { name := "" })
    (fresh : ∀ e ∈ ds, ∀ x ∈ e.dirs.flatMap DirEntry.allDirs, p.table.get? x.id = none)
    (paths : ∀ e ∈ ds, '\n' ∉ (pathOf e).toList)
    (full : ∃ e ∈ ds, IdTable.limit ≤ p.table.size + e.breadth) :
    ∃ err, p.readLines n ((ds.flatMap fun e => e.replayInside none (pathOf e)).map lineBytes) =
      .error err := by
  induction ds generalizing p n with
  | nil =>
      obtain ⟨e, member, -⟩ := full
      exact absurd member List.not_mem_nil
  | cons e ds inductionHypothesis =>
      have member : e ∈ e :: ds := List.mem_cons_self
      have later : ∀ x ∈ ds, x ∈ e :: ds := fun x hx => List.mem_cons_of_mem e hx
      rw [List.flatMap_cons, List.map_append]
      by_cases room : p.table.size + e.breadth < IdTable.limit
      · -- The first directory is read; the one without room comes later.
        obtain ⟨t₁, reads₁, wf₁, size₁, -, others₁⟩ :=
          reads e member p n (pathOf e) wf (declared e member) (fresh e member) (paths e member) room
        have unchanged := later_unchanged idsNodup others₁
        rw [readLines_append_ok reads₁]
        refine inductionHypothesis (p := ⟨t₁, max p.maxId e.largestBelow, p.rootId⟩) _
          (fun x hx => reads x (later x hx)) (fun x hx => fails x (later x hx)) wf₁
          (tail_nodup idsNodup)
          (fun x hx => (unchanged x (DirEntry.mem_flatMap_allDirs_of_mem hx)).trans
            (declared x (later x hx)))
          (fun x hx y hy => (unchanged y (DirEntry.mem_flatMap_allDirs_of_below hx hy)).trans
            (fresh x (later x hx) y hy))
          (fun x hx => paths x (later x hx)) ?_
        obtain ⟨x, hx, wide⟩ := full
        rcases List.mem_cons.mp hx with rfl | hx
        · omega
        · exact ⟨x, hx, by dsimp only; rw [size₁]; exact wide⟩
      · obtain ⟨err, fails₁⟩ := fails e member p n (pathOf e) wf (declared e member)
          (fresh e member) (paths e member) (by omega)
        exact ⟨err, readLines_append_error fails₁ _⟩

/-- The lines inside a replayable directory fail, as `FailsInside` says, when the
table lacks room. Either the declarations of its children do not fit, or they fit
and some child lacks room for what it holds at once. -/
theorem failsInside : ∀ d : DirEntry, d.Replayable → FailsInside d := by
  intro d
  induction d using DirEntry.induction with
  | step d inductionHypothesis =>
      intro replayable p n path wf declared fresh pathNoBreak full
      rw [DirEntry.replayInside_eq]
      simp only [List.map_append, List.append_assoc]
      rw [← List.append_assoc]
      by_cases width : p.table.size + d.dirs.length < IdTable.limit
      · obtain ⟨t₂, reads₂, wf₂, size₂, -, declared₂, fresh₂, -⟩ :=
          readLines_opening replayable n wf fresh pathNoBreak declared width
        have crowded : ∃ e ∈ d.dirs, IdTable.limit ≤ t₂.size + e.breadth := by
          rw [DirEntry.breadth_eq] at full
          obtain ⟨e, child, wide⟩ := DirEntry.exists_lt_of_lt_foldr_max
            (show IdTable.limit - 1 - (p.table.size + d.dirs.length) <
              (d.dirs.map DirEntry.breadth).foldr max 0 by omega)
          exact ⟨e, child, by rw [size₂]; omega⟩
        obtain ⟨err, fails₃⟩ :=
          readLines_insides_error (fun e => childPath path d.name e.name) d.dirs
            (p := ⟨t₂, max p.maxId ((d.dirs.map (·.id)).foldr max 0), p.rootId⟩)
            (n + (d.dirs.length + d.files.length))
            (fun e child => readsInside e (replayable.child child))
            (fun e child => inductionHypothesis e child (replayable.child child)) wf₂
            replayable.belowNodup declared₂ fresh₂
            (fun e child =>
              newline_not_mem_childPath pathNoBreak (replayable.soundChild child).nameNoBreak _)
            crowded
        refine ⟨err, ?_⟩
        rw [readLines_append_ok reads₂, List.length_append, List.length_map, List.length_map,
          List.length_map, List.length_map, readLines_append_error fails₃]
      · obtain ⟨err, fails₁⟩ :=
          readLines_opening_error replayable n wf fresh pathNoBreak (by omega)
        exact ⟨err, readLines_append_error fails₁ _⟩

end Progress

/-! ### Whole dumps -/

section Dump

variable {T : DirEntry} (replayable : T.Replayable)
include replayable

theorem splitLines_dumpText :
    splitLines T.dumpText.toUTF8.toList = (T.replay none T.name 0).map lineBytes :=
  splitLines_text _ fun line member =>
    (DirEntry.readable_replay replayable.sound replayable.soundSelf.nameNoBreak
      (show 0 < idRange by decide) none line member).noBreak

/-- The first line of a dump declares its root in the empty table, which leaves
the table ready for the lines inside the root. -/
theorem readLine_rootDeclaration (n : Nat) :
    ∃ t, ({} : Progress).readLine n (lineBytes (T.declaration none T.name)) =
        .ok ⟨t, max 0 T.id, none⟩ ∧
      t.WellFormed ∧ t.size = 1 ∧ t.get? T.id = some { name := "" } ∧
      ∀ x ∈ T.dirs.flatMap DirEntry.allDirs, t.get? x.id = none := by
  obtain ⟨t, inserted⟩ := IdTable.exists_insert_eq_ok IdTable.wellFormed_empty
    replayable.soundSelf.idPos (IdTable.get?_empty _) ({ name := "" } : DirEntry)
    (by rw [IdTable.size_empty]; decide)
  have found := IdTable.get?_of_insert_eq_ok inserted
  refine ⟨t, ?_, IdTable.wellFormed_empty.of_insert inserted,
    by rw [IdTable.size_of_insert_eq_ok inserted, IdTable.size_empty], by rw [found, if_pos rfl],
    fun x below => ?_⟩
  · rw [Progress.readLine_unmarked _ n
      (DirEntry.readable_declaration replayable.soundSelf replayable.soundSelf.nameNoBreak none) rfl]
    exact Progress.apply_directory _ inserted
  · rw [found, if_neg fun same => replayable.id_not_mem_below (List.mem_map.mpr ⟨x, below, same⟩),
      IdTable.get?_empty]

/-- Reading the lines of a dump, from any line number, when the table has room for
the directories the reader holds at once, leaves the tree without its
fingerprints as the only directory of the table, placed as the root, and its
largest id as the largest id read. -/
theorem readLines_dump (n : Nat) (room : 1 + T.breadth < IdTable.limit) :
    ∃ t, ({} : Progress).readLines n ((T.replay none T.name 0).map lineBytes) =
        .ok ⟨t, T.largestId, some T.id⟩ ∧ t.size = 1 ∧ t.get? T.id = some T.undigested := by
  obtain ⟨t₀, step₀, wf₀, size₀, found₀, fresh₀⟩ := readLine_rootDeclaration replayable n
  obtain ⟨t₁, reads₁, -, size₁, found₁, -⟩ :=
    Progress.readsInside T replayable ⟨t₀, max 0 T.id, none⟩ (n + 1) T.name wf₀ found₀ fresh₀
      replayable.soundSelf.nameNoBreak (by dsimp only; omega)
  -- The root's entry places it, and at the end only the root is left.
  obtain ⟨t₂, modified⟩ :=
    IdTable.exists_modify?_eq_some found₁ (fill T.name T.fid T.size T.id T.items)
  have found₂ : t₂.get? T.id = some T.undigested := by
    rw [IdTable.get?_of_modify?_eq_some modified, if_pos rfl, found₁, Option.map_some,
      fill_unplaced replayable.soundSelf]
  have size₂ : t₂.size = 1 := by
    rw [IdTable.size_of_modify?_eq_some modified, size₁]
    exact size₀
  have step₂ : (⟨t₁, max (max 0 T.id) T.largestBelow, none⟩ : Progress).readLine
      (n + 1 + (T.replayInside none T.name).length) (lineBytes (T.entryLine none 0)) =
        .ok ⟨t₂, max (max (max 0 T.id) T.largestBelow) T.id, some T.id⟩ := by
    rw [Progress.readLine_unmarked _ _
      (DirEntry.readable_entryLine replayable.soundSelf (by decide) none) rfl]
    exact Progress.apply_rootEntry replayable.soundSelf.idPos rfl modified
  have largest : max (max (max 0 T.id) T.largestBelow) T.id = T.largestId := by
    rw [DirEntry.largestId_eq]
    omega
  refine ⟨t₂, ?_, size₂, found₂⟩
  rw [DirEntry.replay, List.cons_append, List.map_cons, Progress.readLines_cons_ok step₀,
    List.map_append, Progress.readLines_append_ok reads₁, List.length_map, List.map_cons,
    List.map_nil, Progress.readLines_cons_ok step₂, Progress.readLines_nil, largest]

/-- Reading the lines of a dump, from any line number, fails when the table lacks
room for the directories the reader holds at once. -/
theorem readLines_dump_error (n : Nat) (full : IdTable.limit ≤ 1 + T.breadth) :
    ∃ err, ({} : Progress).readLines n ((T.replay none T.name 0).map lineBytes) = .error err := by
  obtain ⟨t₀, step₀, wf₀, size₀, found₀, fresh₀⟩ := readLine_rootDeclaration replayable n
  obtain ⟨err, fails₁⟩ :=
    Progress.failsInside T replayable ⟨t₀, max 0 T.id, none⟩ (n + 1) T.name wf₀ found₀ fresh₀
      replayable.soundSelf.nameNoBreak (by dsimp only; omega)
  refine ⟨err, ?_⟩
  rw [DirEntry.replay, List.cons_append, List.map_cons, Progress.readLines_cons_ok step₀,
    List.map_append, Progress.readLines_append_error fails₁]

end Dump

/-- A read whose lines leave one directory in the table, placed as the root, gives
that directory, the largest id read and the fingerprint of the bytes. -/
theorem read_eq_ok_of_readLines {bytes : List UInt8} {t : IdTable DirEntry} {maxId id : Nat}
    {root : DirEntry}
    (reads : ({} : Progress).readLines 1 (splitLines bytes) = .ok ⟨t, maxId, some id⟩)
    (size : t.size = 1) (found : t.get? id = some root) :
    read bytes = .ok ⟨root, maxId, Md5.digest bytes⟩ := by
  obtain ⟨t', erased⟩ := IdTable.exists_erase?_eq_some found
  unfold read
  rw [reads]
  simp only [bind, Except.bind, size, erased]
  simp

theorem read_eq_error_of_readLines {bytes : List UInt8} {err : SnapshotError}
    (fails : ({} : Progress).readLines 1 (splitLines bytes) = .error err) :
    read bytes = .error err := by
  unfold read
  rw [fails]
  rfl

section Dump

variable {T : DirEntry} (replayable : T.Replayable)
include replayable

/-- Reading the dump of a replayable tree, when the table has room for the
directories the reader holds at once, gives back the tree without its
fingerprints, the largest id in it, and the fingerprint of the dump. -/
theorem read_dumpText (room : 1 + T.breadth < IdTable.limit) :
    read T.dumpText.toUTF8.toList =
      .ok ⟨T.undigested, T.largestId, Md5.digest T.dumpText.toUTF8.toList⟩ := by
  obtain ⟨t, reads, size, found⟩ := readLines_dump replayable 1 room
  rw [← splitLines_dumpText replayable] at reads
  exact read_eq_ok_of_readLines reads size found

/-- Reading the dump of a replayable tree fails when the table lacks room for the
directories the reader holds at once. -/
theorem read_dumpText_error (full : IdTable.limit ≤ 1 + T.breadth) :
    ∃ err, read T.dumpText.toUTF8.toList = .error err := by
  obtain ⟨err, fails⟩ := readLines_dump_error replayable 1 full
  rw [← splitLines_dumpText replayable] at fails
  exact ⟨err, read_eq_error_of_readLines fails⟩

end Dump

/-! ### A dump after a patch -/

theorem Wire.text_append (first second : List Line) :
    text (first ++ second) = text first ++ text second := by
  rw [← String.toList_inj]
  simp [text, String.toList_join]

/-- The header line of a diff: its fingerprint is passed over. -/
theorem readLine_header (p : Progress) (n : Nat) (hex : String) :
    p.readLine n ("* " ++ hex ++ "\n").toUTF8.toList = .ok p := by
  have decoded : Text.decodeStrict? ("* " ++ hex ++ "\n").toUTF8.toList =
      some ("* " ++ hex ++ "\n") := Text.decodeStrict?_toUTF8 _
  have stripped : (if ("* " ++ hex ++ "\n").toList.getLast? = some '\n' then
      String.ofList ("* " ++ hex ++ "\n").toList.dropLast else "* " ++ hex ++ "\n") = "* " ++ hex := by
    have chars : ("* " ++ hex ++ "\n").toList = ("* " ++ hex).toList ++ ['\n'] := by simp
    rw [chars, List.getLast?_concat, if_pos rfl, List.dropLast_concat, String.ofList_toList]
  have marker : markerOf ("* " ++ hex) = some .changed := by
    simp [markerOf, Marker.ofSymbol?]
  unfold Progress.readLine
  rw [decoded]
  dsimp only
  rw [stripped, marker]
  rfl

theorem splitLines_patchedDump {hex : String} (hexNoBreak : '\n' ∉ hex.toList)
    {patch dump : List Line} (noBreak : ∀ line ∈ patch ++ dump, '\n' ∉ line.render.toList) :
    splitLines ("* " ++ hex ++ "\n" ++ text patch ++ text dump).toUTF8.toList =
      ("* " ++ hex ++ "\n").toUTF8.toList :: (patch ++ dump).map lineBytes := by
  have headerNoBreak : (10 : UInt8) ∉ ("* " ++ hex).toUTF8.toList :=
    Text.newline_not_mem_toUTF8 (by simpa using hexNoBreak)
  have header : ("* " ++ hex ++ "\n").toUTF8.toList = ("* " ++ hex).toUTF8.toList ++ [10] := by
    simp only [Text.toList_toUTF8, String.toList_append, List.flatMap_append]
    rfl
  have split : ("* " ++ hex ++ "\n" ++ text patch ++ text dump).toUTF8.toList =
      ("* " ++ hex).toUTF8.toList ++ 10 :: (text (patch ++ dump)).toUTF8.toList := by
    rw [Wire.text_append]
    simp only [Text.toList_toUTF8, String.toList_append, List.flatMap_append, List.append_assoc]
    rfl
  rw [split, splitLines_append_newline headerNoBreak, splitLines_text _ noBreak, header]

section Patched

variable {T : DirEntry} (replayable : T.Replayable) {hex : String} (hexNoBreak : '\n' ∉ hex.toList)
  {patch : List Line} (marked : ∀ line ∈ patch, line.marker.isSome ∧ '\n' ∉ line.render.toList)
include replayable hexNoBreak marked

theorem readLines_patchedDump :
    ({} : Progress).readLines 1 (splitLines ("* " ++ hex ++ "\n" ++ text patch ++ T.dumpText).toUTF8.toList) =
      ({} : Progress).readLines (2 + patch.length) ((T.replay none T.name 0).map lineBytes) := by
  have noBreak : ∀ line ∈ patch ++ T.replay none T.name 0, '\n' ∉ line.render.toList := by
    intro line member
    rcases List.mem_append.mp member with inPatch | inDump
    · exact (marked line inPatch).2
    · exact (DirEntry.readable_replay replayable.sound replayable.soundSelf.nameNoBreak
        (show 0 < idRange by decide) none line inDump).noBreak
  rw [DirEntry.dumpText, splitLines_patchedDump hexNoBreak noBreak,
    Progress.readLines_cons_ok (readLine_header {} 1 hex), List.map_append,
    Progress.readLines_append_ok
      (Progress.readLines_marked {} (1 + 1) fun line member => (marked line member).1),
    List.length_map]

/-- A dump after a diff's header and marked patch lines reads as the dump alone,
with the fingerprint of all the bytes, when the table has room. -/
theorem read_patchedDump (room : 1 + T.breadth < IdTable.limit) :
    read ("* " ++ hex ++ "\n" ++ text patch ++ T.dumpText).toUTF8.toList =
      .ok ⟨T.undigested, T.largestId,
        Md5.digest ("* " ++ hex ++ "\n" ++ text patch ++ T.dumpText).toUTF8.toList⟩ := by
  obtain ⟨t, reads, size, found⟩ := readLines_dump replayable (2 + patch.length) room
  rw [← readLines_patchedDump replayable hexNoBreak marked] at reads
  exact read_eq_ok_of_readLines reads size found

theorem read_patchedDump_error (full : IdTable.limit ≤ 1 + T.breadth) :
    ∃ err, read ("* " ++ hex ++ "\n" ++ text patch ++ T.dumpText).toUTF8.toList = .error err := by
  obtain ⟨err, fails⟩ := readLines_dump_error replayable (2 + patch.length) full
  rw [← readLines_patchedDump replayable hexNoBreak marked] at fails
  exact ⟨err, read_eq_error_of_readLines fails⟩

end Patched

end Snapshot

end TreeDump
