import Mathlib
import TreeDump.Proofs.Records
import TreeDump.Proofs.ScanTree

/-!
The order of the trees the reader accepts.

Filling a directory from its entry sorts the children it holds, and a directory
other than the root leaves the reader's table as it is filled, so nothing is added
to it afterwards. Below the root of every snapshot the reader accepts, both
partitions of every directory are therefore sorted by name.

The root is different. It is filled in place and stays in the table, so entries
read after the root's own are appended to it in the order they come. And an id is
only checked against the ids the table holds, so an id declared again once its
first directory was placed is taken. The reader thus accepts roots whose children
are out of order and share an id (`late_entries_unsort_root`). When the root's
entry is the last record, as in every dump a scan writes, the root is sorted too.

Owns: `DirEntry.NameSorted`, both partitions of one directory sorted by name;
`IdTable.Every`, a property of every value a table holds, and how the table's
operations keep it.
Main statement: `accepted_sorted_below`.
-/

namespace TreeDump

/-- Both partitions of a directory sorted by name, byte by byte; a name may repeat. -/
structure DirEntry.NameSorted (d : DirEntry) : Prop where
  dirs : d.dirs.Pairwise fun a b => a.name ≤ b.name
  files : d.files.Pairwise fun a b => a.name ≤ b.name

/-- Every directory below `d` has both partitions sorted by name. -/
def DirEntry.SortedBelow (d : DirEntry) : Prop :=
  ∀ e ∈ d.dirs.flatMap DirEntry.allDirs, e.NameSorted

namespace DirEntry

variable {d : DirEntry}

theorem nameSorted_fill (name : String) (fid size id items : Nat) (d : DirEntry) :
    (Snapshot.fill name fid size id items d).NameSorted :=
  ⟨pairwise_name_mergeSort_dirs d.dirs, pairwise_name_mergeSort_files d.files⟩

theorem sortedBelow_placeholder : ({ name := "" } : DirEntry).SortedBelow := by
  intro e member
  cases member

/-- Filling a directory only reorders its children. -/
theorem SortedBelow.fill (sorted : d.SortedBelow) (name : String) (fid size id items : Nat) :
    (Snapshot.fill name fid size id items d).SortedBelow := by
  intro e member
  obtain ⟨c, child, inside⟩ := List.mem_flatMap.mp member
  exact sorted e (List.mem_flatMap.mpr ⟨c, List.mem_mergeSort.mp child, inside⟩)

theorem SortedBelow.placeDir (sorted : d.SortedBelow) {c : DirEntry} (childSorted : c.NameSorted)
    (childBelow : c.SortedBelow) : { d with dirs := d.dirs ++ [c] }.SortedBelow := by
  intro e member
  rw [List.flatMap_append, List.mem_append, List.flatMap_singleton, allDirs_eq, List.mem_cons] at member
  rcases member with earlier | rfl | below
  · exact sorted e earlier
  · exact childSorted
  · exact childBelow e below

theorem SortedBelow.placeFile (sorted : d.SortedBelow) (f : FileEntry) :
    { d with files := d.files ++ [f] }.SortedBelow :=
  sorted

end DirEntry

namespace IdTable

variable {α : Type} (P : α → Prop)

/-- Every value the table holds has `P`. -/
def Every (t : IdTable α) : Prop := ∀ k v, t.get? k = some v → P v

variable {P} {t t' : IdTable α} {k : Nat} {v : α}

theorem every_empty : (empty : IdTable α).Every P := by
  intro k v found
  simp at found

theorem Every.insert (held : t.Every P) (fresh : P v) (inserted : t.insert k v = .ok t') :
    t'.Every P := by
  intro j w found
  rw [get?_of_insert_eq_ok inserted] at found
  split at found
  · cases found
    exact fresh
  · exact held j w found

theorem Every.erase? (held : t.Every P) (erased : t.erase? k = some (v, t')) : t'.Every P := by
  intro j w found
  rw [get?_of_erase?_eq_some erased] at found
  split at found
  · cases found
  · exact held j w found

theorem Every.modify? (held : t.Every P) {f : α → α} (keeps : ∀ w, P w → P (f w))
    (modified : t.modify? k f = some t') : t'.Every P := by
  intro j w found
  rw [get?_of_modify?_eq_some modified] at found
  split at found
  · obtain ⟨w₀, found₀, rfl⟩ := Option.map_eq_some_iff.mp found
    exact keeps w₀ (held k w₀ found₀)
  · exact held j w found

end IdTable

namespace Snapshot.Progress

variable {p q : Progress}

/-- Every step of the reader keeps the directories below each held directory sorted. -/
theorem sortedBelow_applied (held : p.table.Every DirEntry.SortedBelow) {record : Wire.Record}
    (applied : Applied p record q) : q.table.Every DirEntry.SortedBelow := by
  cases applied with
  | declare inserted => exact held.insert DirEntry.sortedBelow_placeholder inserted
  | root _ _ modified => exact held.modify? (fun d sorted => sorted.fill _ _ _ _ _) modified
  | place _ _ erased modified =>
      -- The directory leaves the table sorted, with what it holds, for its parent.
      have dirBelow := held _ _ (IdTable.get?_of_erase?_eq_some_self erased)
      exact (held.erase? erased).modify? (fun up upBelow => upBelow.placeDir
        (DirEntry.nameSorted_fill _ _ _ _ _ _) (dirBelow.fill _ _ _ _ _)) modified
  | file modified => exact held.modify? (fun up upBelow => upBelow.placeFile _) modified

theorem sortedBelow_applyAll :
    ∀ {records : List Wire.Record} {p q : Progress}, p.table.Every DirEntry.SortedBelow →
      p.applyAll records = some q → q.table.Every DirEntry.SortedBelow := by
  intro records
  induction records with
  | nil =>
      intro p q held applied
      rw [applyAll_nil, Option.some.injEq] at applied
      exact applied ▸ held
  | cons record rest inductionHypothesis =>
      intro p q held applied
      obtain ⟨r, step, later⟩ := applyAll_cons_eq_some.mp applied
      exact inductionHypothesis (sortedBelow_applied held step) later

/-- When the root's entry is the last record, the reader's root is what that entry
filled in: the directory its id held, with the entry's fields and its children
sorted. -/
theorem root_of_last_applied {p : Progress} {fid size dirId items : Nat} {name : String}
    (applied : p.Applied (.entry 0 fid size dirId items name) q) {id : Nat} {root : DirEntry}
    {t : IdTable DirEntry} (rootId : q.rootId = some id) (erased : q.table.erase? id = some (root, t)) :
    ∃ d, root = fill name fid size dirId items d := by
  obtain ⟨-, -, filled, modified, rfl⟩ := applied.of_parent_zero
  obtain rfl : dirId = id := Option.some.inj rootId
  have found := IdTable.get?_of_erase?_eq_some_self erased
  rw [IdTable.get?_of_modify?_eq_some modified, if_pos rfl] at found
  obtain ⟨d, -, filledIn⟩ := Option.map_eq_some_iff.mp found
  exact ⟨d, filledIn.symm⟩

end Snapshot.Progress

open Snapshot in
/-- The trees the reader accepts are sorted below the root: in every snapshot it
accepts, every directory below the root has both partitions sorted by name and a
positive id no larger than the snapshot's largest. When the root's entry is the
last record, the root is sorted too and has that entry's id, which is positive. -/
theorem accepted_sorted_below {bytes : List UInt8} {S : Snapshot} (accepted : read bytes = .ok S) :
    (∀ e ∈ S.root.dirs.flatMap DirEntry.allDirs, e.NameSorted ∧ e.id ≠ 0 ∧ e.id ≤ S.maxId) ∧
      ∀ fid size dirId items name,
        (records (splitLines bytes)).getLast? = some (.entry 0 fid size dirId items name) →
          S.root.NameSorted ∧ S.root.id = dirId ∧ S.root.id ≠ 0 := by
  obtain ⟨-, p, id, t, applied, rootId, -, erased, -, -⟩ := read_eq_ok_iff.mp accepted
  have held := Progress.sortedBelow_applyAll (IdTable.every_empty) applied
  have rebuilt := rebuilt_read accepted
  refine ⟨fun e member => ?_, fun fid size dirId items name last => ?_⟩
  · obtain ⟨idPos, idLe, -, -⟩ := rebuilt.below e member
    exact ⟨held id S.root (IdTable.get?_of_erase?_eq_some_self erased) e member, idPos, idLe⟩
  · -- Split off the last record: the root's entry, applied last.
    obtain ⟨first, split⟩ := List.getLast?_eq_some_iff.mp last
    rw [split, Progress.applyAll_append_eq_some] at applied
    obtain ⟨p₀, -, lastApplied⟩ := applied
    obtain ⟨q, step, finished⟩ := Progress.applyAll_cons_eq_some.mp lastApplied
    rw [Progress.applyAll_nil, Option.some.injEq] at finished
    subst finished
    obtain ⟨d, filled⟩ := Progress.root_of_last_applied step rootId erased
    rw [filled]
    exact ⟨DirEntry.nameSorted_fill _ _ _ _ _ _, rfl, step.of_parent_zero.1⟩

/-- A dump whose root entry comes last, over two directories given out of order. -/
theorem root_last_sorted_below :
    ∃ S, Snapshot.read "0 1 r\n0 2 r/b\n1 1 0 0 2 0 b\n0 3 r/a\n1 1 1 0 3 0 a\n1 0 0 0 1 2 r\n".toUTF8.toList =
        .ok S ∧
      (∀ e ∈ S.root.dirs.flatMap DirEntry.allDirs, e.NameSorted ∧ e.id ≠ 0 ∧ e.id ≤ S.maxId) ∧
      ∀ fid size dirId items name,
        (Snapshot.records (Snapshot.splitLines
            "0 1 r\n0 2 r/b\n1 1 0 0 2 0 b\n0 3 r/a\n1 1 1 0 3 0 a\n1 0 0 0 1 2 r\n".toUTF8.toList)).getLast? =
          some (.entry 0 fid size dirId items name) →
          S.root.NameSorted ∧ S.root.id = dirId ∧ S.root.id ≠ 0 := by
  have checked : (Snapshot.read
      "0 1 r\n0 2 r/b\n1 1 0 0 2 0 b\n0 3 r/a\n1 1 1 0 3 0 a\n1 0 0 0 1 2 r\n".toUTF8.toList).toOption.any
      (fun _ => true) = true := by
    decide +kernel
  obtain ⟨S, accepted, -⟩ := Scan.exists_ok_of_toOption_any checked
  exact ⟨S, accepted, accepted_sorted_below accepted⟩

/-- The reader accepts a root whose entry comes before its last four lines: the
root keeps `b` and `a` in the order they come, and both have id `2`, declared again
once the first directory of that id was placed. -/
theorem late_entries_unsort_root :
    ∃ S, Snapshot.read "0 1 r\n0 2 r/b\n1 1 0 0 2 0 b\n1 0 0 0 1 2 r\n0 2 r/a\n1 1 1 0 2 0 a\n".toUTF8.toList =
        .ok S ∧
      S.root.dirs.map (fun c => (c.name, c.id)) = [("b", 2), ("a", 2)] := by
  have checked : (Snapshot.read
      "0 1 r\n0 2 r/b\n1 1 0 0 2 0 b\n1 0 0 0 1 2 r\n0 2 r/a\n1 1 1 0 2 0 a\n".toUTF8.toList).toOption.any
      (fun S => S.root.dirs.map (fun c => (c.name, c.id)) == [("b", 2), ("a", 2)]) = true := by
    decide +kernel
  obtain ⟨S, accepted, listed⟩ := Scan.exists_ok_of_toOption_any checked
  exact ⟨S, accepted, beq_iff_eq.mp listed⟩

end TreeDump
