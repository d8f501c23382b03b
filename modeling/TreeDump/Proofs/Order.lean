import Mathlib
import TreeDump.Entry.Order

/-!
Putting a listing in order.

Owns: what numbering does to a listing (names and contents kept, positions within
32 bits, consecutive fresh ids from the supply), and what `orderChildren` leaves:
both partitions sorted by name, every position and the child count within 32
bits.
-/

namespace TreeDump

/-- A directory with its id and position set aside: what numbering keeps. -/
def DirEntry.unnumbered (d : DirEntry) : DirEntry := { d with id := 0, fid := 0 }

@[simp] theorem DirEntry.name_unnumbered (d : DirEntry) : d.unnumbered.name = d.name := rfl
@[simp] theorem DirEntry.dirs_unnumbered (d : DirEntry) : d.unnumbered.dirs = d.dirs := rfl
@[simp] theorem DirEntry.files_unnumbered (d : DirEntry) : d.unnumbered.files = d.files := rfl
@[simp] theorem DirEntry.items_unnumbered (d : DirEntry) : d.unnumbered.items = d.items := rfl
@[simp] theorem DirEntry.size_unnumbered (d : DirEntry) : d.unnumbered.size = d.size := rfl

/-- Numbering directories keeps everything but their ids and positions, gives them
positions within 32 bits, and hands them consecutive ids from the supply, each
below the last 32-bit value. -/
theorem numberDirs_eq_ok {ds rest : List DirEntry} {fid : Nat} {ids ids' : IdSupply}
    (numbered : numberDirs ds fid ids = .ok (rest, ids')) :
    rest.map DirEntry.unnumbered = ds.map DirEntry.unnumbered ∧
      rest.map (·.id) = List.range' ids.next ds.length ∧ ids'.next = ids.next + ds.length ∧
      ∀ c ∈ rest, c.fid < idRange ∧ c.id + 1 < idRange := by
  induction ds generalizing fid ids rest with
  | nil =>
      simp only [numberDirs, Except.ok.injEq, Prod.mk.injEq] at numbered
      obtain ⟨rfl, rfl⟩ := numbered
      simp
  | cons d ds inductionHypothesis =>
      unfold numberDirs IdSupply.take at numbered
      by_cases room : ids.next + 1 < idRange
      · simp only [addWithin_eq_ok room, Except.map, bind, Except.bind] at numbered
        cases tail : numberDirs ds (fid + 1) ⟨ids.next + 1⟩ with
        | error e => simp [tail] at numbered
        | ok p =>
            obtain ⟨rest', ids''⟩ := p
            simp only [tail, pure, Except.pure, Except.ok.injEq, Prod.mk.injEq] at numbered
            obtain ⟨rfl, rfl⟩ := numbered
            obtain ⟨shape, idsEq, supply, fits⟩ := inductionHypothesis tail
            refine ⟨?_, ?_, ?_, ?_⟩
            · simp [shape, DirEntry.unnumbered]
            · rw [List.map_cons, idsEq, List.length_cons, List.range'_succ]
            · simp only [supply, List.length_cons]
              omega
            · intro c member
              rcases List.mem_cons.mp member with rfl | member
              · exact ⟨Nat.mod_lt _ (by decide), room⟩
              · exact fits c member
      · simp [addWithin_eq_error (Nat.not_lt.mp room), Except.map, bind, Except.bind] at numbered

/-- Numbering files keeps their names and sizes and gives them positions within 32
bits. -/
theorem numberFiles_spec (fs : List FileEntry) (fid : Nat) :
    (numberFiles fs fid).map (fun f => (f.name, f.size)) = fs.map (fun f => (f.name, f.size)) ∧
      ∀ f ∈ numberFiles fs fid, f.fid < idRange := by
  induction fs generalizing fid with
  | nil => simp [numberFiles]
  | cons f fs inductionHypothesis =>
      obtain ⟨shape, fits⟩ := inductionHypothesis (fid + 1)
      refine ⟨by simp [numberFiles, shape], fun g member => ?_⟩
      rw [numberFiles, List.mem_cons] at member
      rcases member with rfl | member
      · exact Nat.mod_lt _ (by decide)
      · exact fits g member

theorem pairwise_name_mergeSort_dirs (ds : List DirEntry) :
    (ds.mergeSort DirEntry.nameLe).Pairwise (fun a b => a.name ≤ b.name) := by
  have sorted := @List.pairwise_mergeSort _ DirEntry.nameLe
    (fun a b c first second => by
      simp only [DirEntry.nameLe, decide_eq_true_eq] at first second ⊢
      exact le_trans first second)
    (fun a b => by simpa [DirEntry.nameLe] using le_total a.name b.name) ds
  exact sorted.imp fun before => by simpa [DirEntry.nameLe] using before

theorem pairwise_name_mergeSort_files (fs : List FileEntry) :
    (fs.mergeSort FileEntry.nameLe).Pairwise (fun a b => a.name ≤ b.name) := by
  have sorted := @List.pairwise_mergeSort _ FileEntry.nameLe
    (fun a b c first second => by
      simp only [FileEntry.nameLe, decide_eq_true_eq] at first second ⊢
      exact le_trans first second)
    (fun a b => by simpa [FileEntry.nameLe] using le_total a.name b.name) fs
  exact sorted.imp fun before => by simpa [FileEntry.nameLe] using before

/-- Numbering directories from position `fid` gives them the positions `fid`,
`fid + 1`, … as 32-bit words. -/
theorem numberDirs_fids {ds rest : List DirEntry} {fid : Nat} {ids ids' : IdSupply}
    (numbered : numberDirs ds fid ids = .ok (rest, ids')) :
    rest.map (·.fid) = (List.range' fid ds.length).map (· % idRange) := by
  induction ds generalizing fid ids rest with
  | nil =>
      simp only [numberDirs, Except.ok.injEq, Prod.mk.injEq] at numbered
      obtain ⟨rfl, rfl⟩ := numbered
      rfl
  | cons d ds inductionHypothesis =>
      unfold numberDirs IdSupply.take at numbered
      by_cases room : ids.next + 1 < idRange
      · simp only [addWithin_eq_ok room, Except.map, bind, Except.bind] at numbered
        cases tail : numberDirs ds (fid + 1) ⟨ids.next + 1⟩ with
        | error e => simp [tail] at numbered
        | ok p =>
            obtain ⟨rest', ids''⟩ := p
            simp only [tail, pure, Except.pure, Except.ok.injEq, Prod.mk.injEq] at numbered
            obtain ⟨rfl, rfl⟩ := numbered
            rw [List.map_cons, inductionHypothesis tail, List.length_cons, List.range'_succ,
              List.map_cons]
      · simp [addWithin_eq_error (Nat.not_lt.mp room), Except.map, bind, Except.bind] at numbered

/-- Numbering files from position `fid` gives them the positions `fid`, `fid + 1`,
… as 32-bit words. -/
theorem numberFiles_fids (fs : List FileEntry) (fid : Nat) :
    (numberFiles fs fid).map (·.fid) = (List.range' fid fs.length).map (· % idRange) := by
  induction fs generalizing fid with
  | nil => rfl
  | cons f fs inductionHypothesis =>
      rw [numberFiles, List.map_cons, inductionHypothesis, List.length_cons, List.range'_succ,
        List.map_cons]

/-- A directory as a scan arranges its children: both partitions sorted by name,
the directories at positions `0, 1, …` and the files after them, and `items` the
number of children; positions and count are 32-bit words. -/
structure DirEntry.Ordered (d : DirEntry) : Prop where
  dirsSorted : d.dirs.Pairwise (fun a b => a.name ≤ b.name)
  filesSorted : d.files.Pairwise (fun a b => a.name ≤ b.name)
  dirFids : d.dirs.map (·.fid) = (List.range' 0 d.dirs.length).map (· % idRange)
  fileFids : d.files.map (·.fid) = (List.range' d.dirs.length d.files.length).map (· % idRange)
  items : d.items = (d.dirs.length + d.files.length) % idRange

/-- What ordering a directory's children leaves: the directory's own fields, its
children sorted by name and numbered, fresh consecutive ids for the directories,
and the count of children within 32 bits. -/
theorem orderChildren_eq_ok {d d' : DirEntry} {ids ids' : IdSupply}
    (ordered : d.orderChildren ids = .ok (d', ids')) :
    d'.name = d.name ∧ d'.id = d.id ∧ d'.fid = d.fid ∧ d'.size = d.size ∧
      d'.dirs.map DirEntry.unnumbered = (d.dirs.mergeSort DirEntry.nameLe).map DirEntry.unnumbered ∧
      d'.dirs.map (·.id) = List.range' ids.next d'.dirs.length ∧
      ids'.next = ids.next + d'.dirs.length ∧
      (∀ c ∈ d'.dirs, c.fid < idRange ∧ c.id + 1 < idRange) ∧
      d'.files.map (fun f => (f.name, f.size)) =
        (d.files.mergeSort FileEntry.nameLe).map (fun f => (f.name, f.size)) ∧
      (∀ f ∈ d'.files, f.fid < idRange) ∧ d'.items < idRange := by
  unfold DirEntry.orderChildren at ordered
  cases numbered : numberDirs (d.dirs.mergeSort DirEntry.nameLe) 0 ids with
  | error e => simp [numbered, bind, Except.bind] at ordered
  | ok p =>
      obtain ⟨dirs, ids''⟩ := p
      simp only [numbered, bind, Except.bind, pure, Except.pure, Except.ok.injEq,
        Prod.mk.injEq] at ordered
      obtain ⟨rfl, rfl⟩ := ordered
      obtain ⟨shape, idsEq, supply, fits⟩ := numberDirs_eq_ok numbered
      have sameLength : dirs.length = (d.dirs.mergeSort DirEntry.nameLe).length := by
        simpa using congrArg List.length shape
      obtain ⟨fileShape, fileFits⟩ := numberFiles_spec (d.files.mergeSort FileEntry.nameLe) dirs.length
      refine ⟨rfl, rfl, rfl, rfl, shape, ?_, ?_, fits, fileShape, fileFits, Nat.mod_lt _ (by decide)⟩
      · rw [idsEq, sameLength]
      · rw [supply, sameLength]

/-- Ordering a directory's children arranges them as a scan writes them. -/
theorem orderChildren_ordered {d d' : DirEntry} {ids ids' : IdSupply}
    (ordered : d.orderChildren ids = .ok (d', ids')) : d'.Ordered := by
  unfold DirEntry.orderChildren at ordered
  cases numbered : numberDirs (d.dirs.mergeSort DirEntry.nameLe) 0 ids with
  | error e => simp [numbered, bind, Except.bind] at ordered
  | ok p =>
      obtain ⟨dirs, ids''⟩ := p
      simp only [numbered, bind, Except.bind, pure, Except.pure, Except.ok.injEq,
        Prod.mk.injEq] at ordered
      obtain ⟨rfl, rfl⟩ := ordered
      obtain ⟨shape, -, -, -⟩ := numberDirs_eq_ok numbered
      have sameLength : dirs.length = (d.dirs.mergeSort DirEntry.nameLe).length := by
        simpa using congrArg List.length shape
      obtain ⟨fileShape, -⟩ := numberFiles_spec (d.files.mergeSort FileEntry.nameLe) dirs.length
      -- Numbering keeps the names, so the sorted order.
      have dirNames : dirs.map (·.name) = (d.dirs.mergeSort DirEntry.nameLe).map (·.name) := by
        simpa [List.map_map, Function.comp_def] using congrArg (List.map DirEntry.name) shape
      have fileNames : (numberFiles (d.files.mergeSort FileEntry.nameLe) dirs.length).map (·.name) =
          (d.files.mergeSort FileEntry.nameLe).map (·.name) := by
        simpa [List.map_map, Function.comp_def] using congrArg (List.map Prod.fst) fileShape
      refine ⟨?_, ?_, ?_, ?_, rfl⟩
      · exact List.pairwise_map.mp (dirNames ▸ List.pairwise_map.mpr (pairwise_name_mergeSort_dirs d.dirs))
      · exact List.pairwise_map.mp
          (fileNames ▸ List.pairwise_map.mpr (pairwise_name_mergeSort_files d.files))
      · rw [numberDirs_fids numbered, sameLength]
      · have fileLength : (numberFiles (d.files.mergeSort FileEntry.nameLe) dirs.length).length =
            (d.files.mergeSort FileEntry.nameLe).length := by
          simpa using congrArg List.length fileShape
        rw [numberFiles_fids, fileLength]

end TreeDump
