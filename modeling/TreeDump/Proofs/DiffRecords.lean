import Mathlib
import TreeDump.Proofs.Carrying
import TreeDump.Proofs.FirstDiff

/-!
The records of a diff.

A diff writes a patch of marked records against the tree of the previous snapshot.
It matches the nodes of the live tree with those of the previous tree by path and
kind: the two roots match, and below two matched directories a child matches the
child of the same name and kind on the other side. A node only on the live side is
added, with all it holds; a node only on the previous side is removed, with all it
held; a matched node whose size differs is changed. Beside the records the patch
holds `* 0` lines, which name a directory before the first record inside it; they
are left out here.

Owns: the records of a tree's nodes under one marker (`DirEntry.records`), the
records of the differences between a live and a previous tree
(`DirEntry.changesInside`, `DirEntry.changesFrom`), the lines a step adds to the
patch up to order (`Scan.Writes`), and the main statement `diff_patch_records`.

Why it holds: the scan writes the records of a directory's children at three
moments. Merging with the previous directory writes the declarations of new child
directories, the whole of vanished ones and the records of the files; scanning a
child writes what differs inside it; comparing the children once they are scanned
writes their entries, and the removal of what a child the walker refused held. The
merge walks two listings sorted by name, each name once, so it pairs exactly the
entries that share a name.
-/

namespace TreeDump

open Wire
open scoped List

/-- A `* 0` line: the patch names a directory before the first record inside it. -/
def Wire.Line.announces : Line → Bool
  | ⟨some .changed, .directory _ _⟩ => true
  | _ => false

/-! ### The records of a tree -/

namespace DirEntry

/-- The file of `d` called `name`, the first one if several are. -/
def file? (d : DirEntry) (name : String) : Option FileEntry := d.files.find? (·.name == name)

/-- The records of a tree found at `path` under the directory `parent`, all under one
marker: for each directory its declaration and its entry, for each file its entry. -/
def records (marker : Option Marker) (path : String) (parent : Nat) : DirEntry → List Line
  | ⟨name, size, id, fid, items, _, dirs, files⟩ =>
    ⟨marker, .directory id path⟩ :: ⟨marker, .entry parent fid size id items name⟩ ::
      (files.map (FileEntry.entryLine marker id) ++
        dirs.flatMap fun c => c.records marker (childPath path name c.name) id)

/-- The records of everything the directory `d`, found at `path`, holds. -/
def recordsInside (marker : Option Marker) (path : String) (d : DirEntry) : List Line :=
  d.files.map (FileEntry.entryLine marker d.id) ++
    d.dirs.flatMap fun c => c.records marker (childPath path d.name c.name) d.id

theorem records_eq (marker : Option Marker) (path : String) (parent : Nat) (d : DirEntry) :
    d.records marker path parent =
      d.declaration marker path :: d.entryLine marker parent :: d.recordsInside marker path := by
  cases d
  rw [records]
  rfl

theorem Unread.recordsInside {d : DirEntry} (unread : d.Unread) (marker : Option Marker) (path : String) :
    d.recordsInside marker path = [] := by
  rw [DirEntry.recordsInside, unread.noDirs, unread.noFiles]
  rfl

/-- The dump of a tree holds its records, in another order. -/
theorem replayInside_perm (marker : Option Marker) (d : DirEntry) :
    ∀ path : String, (d.replayInside marker path).Perm (d.recordsInside marker path) := by
  induction d using DirEntry.induction with
  | step d inductionHypothesis =>
      intro path
      -- Below each child the dump writes the declaration first and the entry last.
      have children : ∀ c ∈ d.dirs,
          (c.declaration marker (childPath path d.name c.name) ::
              (c.replayInside marker (childPath path d.name c.name) ++ [c.entryLine marker d.id])).Perm
            (c.records marker (childPath path d.name c.name) d.id) := by
        intro c child
        rw [records_eq]
        exact ((List.perm_append_singleton _ _).trans
          ((inductionHypothesis c child _).cons _)).cons _
      rw [replayInside_eq, recordsInside]
      calc d.dirs.map (fun c => c.declaration marker (childPath path d.name c.name)) ++
              d.files.map (FileEntry.entryLine marker d.id) ++
              d.dirs.flatMap (fun c => c.replayInside marker (childPath path d.name c.name)) ++
              d.dirs.map (DirEntry.entryLine marker d.id)
          _ ~ d.files.map (FileEntry.entryLine marker d.id) ++
              (d.dirs.map (fun c => c.declaration marker (childPath path d.name c.name)) ++
                (d.dirs.flatMap (fun c => c.replayInside marker (childPath path d.name c.name)) ++
                  d.dirs.map (DirEntry.entryLine marker d.id))) := by
            simp only [List.append_assoc]
            exact List.perm_append_comm_assoc _ _ _
          _ ~ d.files.map (FileEntry.entryLine marker d.id) ++
              d.dirs.flatMap (fun c => c.records marker (childPath path d.name c.name) d.id) := by
            refine List.Perm.append_left _ ?_
            refine (List.Perm.append_left _ ?_).trans
              ((List.map_append_flatMap_perm _ _ _).trans (List.Perm.flatMap_left _ children))
            rw [List.map_eq_flatMap]
            exact List.flatMap_append_perm _ _ _

theorem replay_perm (marker : Option Marker) (path : String) (parent : Nat) (d : DirEntry) :
    (d.replay marker path parent).Perm (d.records marker path parent) := by
  rw [replay, records_eq, List.cons_append]
  exact ((List.perm_append_singleton _ _).trans ((replayInside_perm marker d path).cons _)).cons _

/-! ### The records of the differences -/

/-- The record of the entry of the directory `c`, a child of the directory with id
`parent`, against the previous directory it matches: added when there is none,
changed when the sizes differ, and none otherwise. -/
def entryChange (parent : Nat) (c : DirEntry) : Option DirEntry → List Line
  | none => [c.entryLine (some .added) parent]
  | some b => if b.size ≠ c.size then [c.entryLine (some .changed) parent] else []

end DirEntry

/-- The record of the file `f` of the directory with id `parent`, against the
previous file it matches: added when there is none, changed when the sizes differ,
and none otherwise. -/
def FileEntry.change (parent : Nat) (f : FileEntry) : Option FileEntry → List Line
  | none => [f.entryLine (some .added) parent]
  | some g => if g.size ≠ f.size then [f.entryLine (some .changed) parent] else []

namespace DirEntry

/-- The records of the differences inside the live directory `d`, found at `path`,
against the previous directory `o` it matches: each child directory new with all it
holds, or matched with what differs inside it and its entry; each previous child
directory no live one matches, with all it held; and the files likewise. -/
def changesInside (path : String) : DirEntry → DirEntry → List Line
  | ⟨name, _, id, _, _, _, dirs, files⟩, o =>
    dirs.flatMap (fun c =>
        match o.child? c.name with
        | none => c.records (some .added) (childPath path name c.name) id
        | some b => changesInside (childPath path name c.name) c b ++ c.entryChange id (some b)) ++
      (o.dirs.filter fun b => !dirs.any (·.name == b.name)).flatMap
        (fun b => b.records (some .removed) (childPath path name b.name) id) ++
      files.flatMap (fun f => f.change id (o.file? f.name)) ++
      (o.files.filter fun g => !files.any (·.name == g.name)).map (FileEntry.entryLine (some .removed) id)

/-- The records of the child directory `c` of the directory `d`, found at `path`,
against the previous directory `old` that `d` matches, if any. -/
def childChanges (path : String) (d : DirEntry) (old : Option DirEntry) (c : DirEntry) : List Line :=
  match old.bind (·.child? c.name) with
  | none => c.records (some .added) (childPath path d.name c.name) d.id
  | some b => changesInside (childPath path d.name c.name) c b ++ c.entryChange d.id (some b)

theorem changesInside_eq (path : String) (d o : DirEntry) :
    d.changesInside path o =
      d.dirs.flatMap (childChanges path d (some o)) ++
        (o.dirs.filter fun b => !d.dirs.any (·.name == b.name)).flatMap
          (fun b => b.records (some .removed) (childPath path d.name b.name) d.id) ++
        d.files.flatMap (fun f => f.change d.id (o.file? f.name)) ++
        (o.files.filter fun g => !d.files.any (·.name == g.name)).map
          (FileEntry.entryLine (some .removed) d.id) := by
  cases d
  rw [changesInside]
  rfl

/-- The records of the differences inside the live directory `d`, found at `path`,
against the previous directory it matches, if any: with none, all it holds is new. -/
def changesWithin (path : String) (d : DirEntry) : Option DirEntry → List Line
  | none => d.recordsInside (some .added) path
  | some o => d.changesInside path o

/-- The records of the patch of a scan that builds the live tree `L`, its root found
at `path`, against the previous tree: without one the whole tree is new, with one
the two roots match. -/
def changesFrom (path : String) (L : DirEntry) : Option DirEntry → List Line
  | none => L.records (some .added) path 0
  | some o => L.changesInside path o ++ L.entryChange 0 (some o)

/-- Every file partition of the tree sorted by name, each name once. -/
def SortedFiles (d : DirEntry) : Prop :=
  ∀ e ∈ d.allDirs, e.files.Pairwise fun a b => a.name < b.name

theorem SortedFiles.child {d c : DirEntry} (sorted : d.SortedFiles) (child : c ∈ d.dirs) :
    c.SortedFiles :=
  fun e member => sorted e (allDirs_subset_of_mem child member)

/-- A tree's files are sorted when its own are and each child's tree's are. -/
theorem sortedFiles_of_children {d : DirEntry} (sorted : d.files.Pairwise fun a b => a.name < b.name)
    (children : ∀ c ∈ d.dirs, c.SortedFiles) : d.SortedFiles := by
  intro e member
  rw [allDirs_eq, List.mem_cons] at member
  rcases member with rfl | below
  · exact sorted
  · obtain ⟨c, child, inside⟩ := List.mem_flatMap.mp below
    exact children c child e inside

/-- The records of the differences of the listing of `d`, found at `path`, against
the previous directory it matches, that no child directory of `d` accounts for: its
files, and each previous child directory that no live one matches, with all it held. -/
def listingChanges (path : String) (d : DirEntry) : Option DirEntry → List Line
  | none => d.files.map (FileEntry.entryLine (some .added) d.id)
  | some o =>
    (o.dirs.filter fun b => !d.dirs.any (·.name == b.name)).flatMap
        (fun b => b.records (some .removed) (childPath path d.name b.name) d.id) ++
      (d.files.flatMap (fun f => f.change d.id (o.file? f.name)) ++
        (o.files.filter fun g => !d.files.any (·.name == g.name)).map
          (FileEntry.entryLine (some .removed) d.id))

/-- What differs inside a directory is what differs for each child directory, then
what differs in its own listing. -/
theorem changesWithin_perm (path : String) (d : DirEntry) (old : Option DirEntry) :
    d.changesWithin path old ~ d.dirs.flatMap (childChanges path d old) ++ d.listingChanges path old := by
  cases old with
  | none => exact List.perm_append_comm
  | some o =>
      rw [changesWithin, changesInside_eq, listingChanges]
      simp only [List.append_assoc]
      exact List.Perm.refl _

/-- The differences of a listing depend on the directory's name, id and files and on
the names of its child directories only. -/
theorem listingChanges_congr {path : String} {d d' : DirEntry} (name : d'.name = d.name)
    (id : d'.id = d.id) (files : d'.files = d.files) (names : d'.dirs.map (·.name) = d.dirs.map (·.name))
    (old : Option DirEntry) : d'.listingChanges path old = d.listingChanges path old := by
  have anyName : ∀ n, (d'.dirs.any fun c => c.name == n) = d.dirs.any fun c => c.name == n := by
    intro n
    simpa [List.any_map, Function.comp_def] using congrArg (fun l => l.any (· == n)) names
  cases old <;> simp only [listingChanges, name, id, files, anyName]

/-- An unread directory holds nothing: against a previous directory, all that
differs inside it is the removal of what that one held. -/
theorem Unread.changesInside {c : DirEntry} (unread : c.Unread) (path : String) (u : DirEntry) :
    c.changesInside path u =
      u.dirs.flatMap (fun b => b.records (some .removed) (childPath path c.name b.name) c.id) ++
        u.files.map (FileEntry.entryLine (some .removed) c.id) := by
  rw [changesInside_eq, unread.noDirs, unread.noFiles]
  simp

end DirEntry

/-! ### Pairing sorted listings -/

section Pairing

variable {α β γ : Type} {liveName : α → String} {oldName : β → String}

/-- What a merge does for the pairs of two listings sorted by name, each name once
per side, is what it does for each live entry, paired with the previous entry of its
name if there is one, followed by what it does for each previous entry that no live
entry names. -/
theorem flatMap_pairByName_perm {live : List α} {old : List β}
    (liveSorted : live.Pairwise fun a a' => liveName a < liveName a')
    (oldSorted : old.Pairwise fun b b' => oldName b < oldName b') (f : Pairing α β → List γ) :
    (pairByName liveName oldName live old).flatMap f ~
      live.flatMap (fun a => match old.find? (fun b => oldName b == liveName a) with
          | some b => f (.both a b)
          | none => f (.live a)) ++
        (old.filter fun b => !live.any (fun a => liveName a == oldName b)).flatMap
          (fun b => f (.old b)) := by
  fun_induction pairByName liveName oldName live old with
  | case1 => simp
  | case2 a as inductionHypothesis =>
      simp only [List.flatMap_cons, List.find?_nil, List.filter_nil, List.flatMap_nil,
        List.append_nil] at inductionHypothesis ⊢
      exact (inductionHypothesis liveSorted.of_cons oldSorted).append_left _
  | case3 b bs inductionHypothesis =>
      simp only [List.flatMap_cons, List.flatMap_nil, List.any_nil, Bool.not_false,
        List.filter_cons_of_pos, List.nil_append] at inductionHypothesis ⊢
      exact (inductionHypothesis liveSorted oldSorted.of_cons).append_left _
  | case4 a as b bs before inductionHypothesis =>
      -- `a` comes before every previous entry: it is new, and names none of them.
      have apart : ∀ b' ∈ b :: bs, oldName b' ≠ liveName a := by
        intro b' listed
        rcases List.mem_cons.mp listed with rfl | later
        · exact ne_of_gt before
        · exact ne_of_gt (before.trans (List.rel_of_pairwise_cons oldSorted later))
      have unnamed : (b :: bs).find? (fun b' => oldName b' == liveName a) = none :=
        List.find?_eq_none.mpr fun b' listed => by simpa using apart b' listed
      have sameFilter : (b :: bs).filter (fun b' => !(a :: as).any fun a' => liveName a' == oldName b') =
          (b :: bs).filter (fun b' => !as.any fun a' => liveName a' == oldName b') :=
        List.filter_congr fun b' listed => by
          simp [List.any_cons, (apart b' listed).symm]
      rw [List.flatMap_cons, List.flatMap_cons, unnamed, sameFilter, List.append_assoc]
      exact (inductionHypothesis liveSorted.of_cons oldSorted).append_left _
  | case5 a as b bs notBefore same inductionHypothesis =>
      -- `a` and `b` share a name, below every other entry on either side.
      have found : (b :: bs).find? (fun b' => oldName b' == liveName a) = some b := by
        simp [same]
      have findLater : ∀ a' ∈ as, (b :: bs).find? (fun b' => oldName b' == liveName a') =
          bs.find? (fun b' => oldName b' == liveName a') := by
        intro a' later
        have after : oldName b < liveName a' := same ▸ List.rel_of_pairwise_cons liveSorted later
        simp [ne_of_lt after]
      have sameFilter : (b :: bs).filter (fun b' => !(a :: as).any fun a' => liveName a' == oldName b') =
          bs.filter (fun b' => !as.any fun a' => liveName a' == oldName b') := by
        rw [List.filter_cons_of_neg (by simp [same])]
        refine List.filter_congr fun b' later => ?_
        have after : liveName a < oldName b' := same ▸ List.rel_of_pairwise_cons oldSorted later
        simp [List.any_cons, ne_of_lt after]
      rw [List.flatMap_cons, List.flatMap_cons, found, sameFilter, List.append_assoc]
      refine ((inductionHypothesis liveSorted.of_cons oldSorted.of_cons).append_left _).trans
        (List.Perm.of_eq ?_)
      congr 2
      exact List.flatMap_congr fun a' later => by rw [findLater a' later]
  | case6 a as b bs notBefore notSame inductionHypothesis =>
      -- `b` comes before every live entry: it is gone, and no live entry names it.
      have earlier : oldName b < liveName a := lt_of_le_of_ne (le_of_not_gt notBefore) (Ne.symm notSame)
      have below : ∀ a' ∈ a :: as, oldName b < liveName a' := by
        intro a' listed
        rcases List.mem_cons.mp listed with rfl | later
        · exact earlier
        · exact earlier.trans (List.rel_of_pairwise_cons liveSorted later)
      have skipped : ∀ a' ∈ a :: as, (b :: bs).find? (fun b' => oldName b' == liveName a') =
          bs.find? (fun b' => oldName b' == liveName a') := by
        intro a' listed
        simp [ne_of_lt (below a' listed)]
      have kept : (b :: bs).filter (fun b' => !(a :: as).any fun a' => liveName a' == oldName b') =
          b :: bs.filter (fun b' => !(a :: as).any fun a' => liveName a' == oldName b') := by
        refine List.filter_cons_of_pos ?_
        simpa using fun a' listed => (ne_of_lt (below a' listed)).symm
      rw [List.flatMap_cons, kept, List.flatMap_cons (x := b)]
      refine ((inductionHypothesis liveSorted oldSorted.of_cons).append_left _).trans
        ((List.perm_append_comm_assoc _ _ _).trans (List.Perm.of_eq ?_))
      congr 1
      exact List.flatMap_congr fun a' listed => by rw [skipped a' listed]

/-- The previous entry of a pair no live entry matches. -/
def Pairing.gone? : Pairing α β → Option β
  | .old b => some b
  | _ => none

/-- The previous entries a merge of sorted listings leaves unmatched are those no
live entry names. -/
theorem filterMap_gone?_pairByName_perm {live : List α} {old : List β}
    (liveSorted : live.Pairwise fun a a' => liveName a < liveName a')
    (oldSorted : old.Pairwise fun b b' => oldName b < oldName b') :
    (pairByName liveName oldName live old).filterMap Pairing.gone? ~
      old.filter fun b => !live.any (fun a => liveName a == oldName b) := by
  have paired := flatMap_pairByName_perm liveSorted oldSorted fun p => p.gone?.toList
  rw [← List.filterMap_eq_flatMap_toList] at paired
  refine paired.trans (List.Perm.of_eq ?_)
  have noLive : ∀ a ∈ live, (match old.find? (fun b => oldName b == liveName a) with
      | some b => (Pairing.both a b).gone?.toList
      | none => (Pairing.live a : Pairing α β).gone?.toList) = [] := by
    intro a _
    split <;> rfl
  rw [List.flatMap_congr noLive]
  simp [Pairing.gone?]

end Pairing

/-- The records a merge writes for a pair of files of the directory with id `parent`. -/
def Pairing.fileRecords (parent : Nat) : Pairing FileEntry FileEntry → List Line
  | .both f g => f.change parent (some g)
  | .live f => f.change parent none
  | .old g => [g.entryLine (some .removed) parent]

/-! ### What a step writes into the patch -/

namespace Wire.Line

theorem announces_eq_false {line : Line} (marker : line.marker ≠ some .changed) :
    line.announces = false := by
  obtain ⟨m, record⟩ := line
  cases record <;> simp_all [announces]

theorem announces_entry (marker : Option Marker) (parent fid size id items : Nat) (name : String) :
    (⟨marker, .entry parent fid size id items name⟩ : Line).announces = false := by
  cases marker with
  | none => rfl
  | some m => cases m <;> rfl

end Wire.Line

theorem FileEntry.announces_entryLine (marker : Option Marker) (parent : Nat) (f : FileEntry) :
    (f.entryLine marker parent).announces = false :=
  Line.announces_entry _ _ _ _ _ _ _

theorem DirEntry.announces_entryLine (marker : Option Marker) (parent : Nat) (c : DirEntry) :
    (c.entryLine marker parent).announces = false :=
  Line.announces_entry _ _ _ _ _ _ _

/-- Lines under a marker other than `*` name no directory before a change. -/
theorem filter_announces_of_marker {lines : List Line} {marker : Marker} (notChanged : marker ≠ .changed)
    (marked : ∀ line ∈ lines, line.marker = some marker) :
    lines.filter (!·.announces) = lines :=
  List.filter_eq_self.mpr fun line member => by
    rw [Line.announces_eq_false (by rw [marked line member]; simpa using notChanged)]
    rfl

namespace Scan

variable {σ : Type}

/-- The lines a step adds to the patch, its `* 0` lines left out, are `lines` in
some order. -/
def Writes (s s' : ScanState σ) (lines : List Line) : Prop :=
  ∃ added, s'.patch.toList = s.patch.toList ++ added ∧ added.filter (!·.announces) ~ lines

namespace Writes

variable {s s₁ s₂ : ScanState σ} {lines lines' : List Line}

theorem of_eq (same : s₁.patch = s.patch) : Writes s s₁ [] :=
  ⟨[], by rw [same, List.append_nil], List.Perm.refl _⟩

theorem trans (first : Writes s s₁ lines) (second : Writes s₁ s₂ lines') :
    Writes s s₂ (lines ++ lines') := by
  obtain ⟨added, grown, written⟩ := first
  obtain ⟨added', grown', written'⟩ := second
  refine ⟨added ++ added', by rw [grown', grown, List.append_assoc], ?_⟩
  rw [List.filter_append]
  exact written.append written'

theorem perm (writes : Writes s s₁ lines) (reordered : lines ~ lines') : Writes s s₁ lines' := by
  obtain ⟨added, grown, written⟩ := writes
  exact ⟨added, grown, written.trans reordered⟩

/-- A step that leaves the patch as it was, then one that writes `lines`. -/
theorem of_eq_trans (same : s₁.patch = s.patch) (second : Writes s₁ s₂ lines) : Writes s s₂ lines := by
  simpa only [List.nil_append] using (of_eq same).trans second

/-- A step that writes `lines`, then one that leaves the patch as it was. -/
theorem trans_of_eq (first : Writes s s₁ lines) (same : s₂.patch = s₁.patch) : Writes s s₂ lines := by
  simpa only [List.append_nil] using first.trans (of_eq same)

/-- A scan that starts from an empty patch writes the lines it writes and nothing else. -/
theorem filter_perm (writes : Writes s s₁ lines) (empty : s.patch = #[]) :
    s₁.patch.toList.filter (!·.announces) ~ lines := by
  obtain ⟨added, grown, written⟩ := writes
  rwa [grown, empty, Array.toList_empty, List.nil_append]

end Writes

theorem writes_emitAll (lines : List Line) (s : ScanState σ) :
    Writes s { s with patch := lines.foldl Array.push s.patch } (lines.filter (!·.announces)) :=
  ⟨lines, by simp, List.Perm.refl _⟩

theorem writes_emit (line : Line) (s : ScanState σ) :
    Writes s { s with patch := s.patch.push line } ([line].filter (!·.announces)) :=
  writes_emitAll [line] s

/-- Naming the directories of the chain writes only `* 0` lines. -/
theorem writes_announce {s s' : ScanState σ} {r : Unit}
    (h : (announce : ScanM σ Unit).run s = .ok (r, s')) : Writes s s' [] := by
  rw [run_announce, Except.ok.injEq, Prod.mk.injEq] at h
  rw [← h.2]
  refine (writes_emitAll _ s).perm (List.Perm.of_eq ?_)
  rw [List.filter_eq_nil_iff]
  intro line member
  obtain ⟨level, -, rfl⟩ := List.mem_map.mp member
  simp [Line.announces]

theorem writes_emit_record {line : Line} (marker : line.marker ≠ some .changed) (s : ScanState σ) :
    Writes s { s with patch := s.patch.push line } [line] := by
  have kept := writes_emit line s
  rwa [List.filter_singleton, Line.announces_eq_false marker] at kept

/-! ### Merging with the previous directory -/

/-- Naming the directories of the chain, then writing a record, writes the record. -/
theorem writes_announce_emit {line : Line} (quiet : line.announces = false) {s s' : ScanState σ}
    {r : Unit} (h : (announce >>= fun _ => emit line : ScanM σ Unit).run s = .ok (r, s')) :
    Writes s s' [line] := by
  rw [run_bind_eq_ok] at h
  obtain ⟨_, s₁, announced, h⟩ := h
  rw [run_emit, Except.ok.injEq, Prod.mk.injEq] at h
  rw [← h.2]
  have written := writes_emit line s₁
  rw [List.filter_singleton, quiet] at written
  exact (writes_announce announced).trans written

theorem writes_mergeFile {d : DirEntry} {pair : Pairing FileEntry FileEntry} {s s' : ScanState σ}
    {r : Unit} (h : (mergeFile d pair).run s = .ok (r, s')) : Writes s s' (pair.fileRecords d.id) := by
  cases pair with
  | both f g =>
      rw [mergeFile] at h
      by_cases differs : g.size ≠ f.size
      · rw [if_pos differs] at h
        simpa [Pairing.fileRecords, FileEntry.change, differs] using
          writes_announce_emit (FileEntry.announces_entryLine _ _ _) h
      · rw [if_neg differs, run_pure_eq_ok] at h
        exact (Writes.of_eq (by rw [← h.2])).perm
          (by simp [Pairing.fileRecords, FileEntry.change, differs])
  | live f =>
      exact writes_announce_emit (FileEntry.announces_entryLine _ _ _) h
  | old g =>
      exact writes_announce_emit (FileEntry.announces_entryLine _ _ _) h

theorem writes_mergeFiles (d : DirEntry) :
    ∀ {pairs : List (Pairing FileEntry FileEntry)} {s s' : ScanState σ} {r : Unit},
      (mergeFiles d pairs).run s = .ok (r, s') → Writes s s' (pairs.flatMap (Pairing.fileRecords d.id)) := by
  intro pairs
  induction pairs with
  | nil =>
      intro s s' r h
      rw [mergeFiles, run_pure_eq_ok] at h
      rw [← h.2]
      exact Writes.of_eq rfl
  | cons pair pairs inductionHypothesis =>
      intro s s' r h
      rw [mergeFiles, run_bind_eq_ok] at h
      obtain ⟨_, s₁, merged, h⟩ := h
      rw [List.flatMap_cons]
      exact (writes_mergeFile merged).trans (inductionHypothesis h)

/-- The declaration a merge writes for a new child directory `c` of `d`, found at
`path`. -/
def newDeclaration (path : String) (d c : DirEntry) : Line :=
  c.declaration (some .added) (childPath path d.name c.name)

/-- Merging a pair of child directories writes the declaration of a new child, with
the id it takes, or the records of the whole of a vanished one. -/
theorem writes_mergeDir {path : String} {d : DirEntry} {pair : Pairing DirEntry DirEntry}
    {r : Option (DirEntry × Option DirEntry)} {s s' : ScanState σ}
    (h : (mergeDir path d pair).run s = .ok (r, s')) :
    Writes s s' ((r.toList.filter (·.2.isNone)).map (newDeclaration path d ·.1) ++
      pair.gone?.toList.flatMap fun b => b.records (some .removed) (childPath path d.name b.name) d.id) := by
  cases pair with
  | both c b =>
      rw [mergeDir, run_pure_eq_ok] at h
      obtain ⟨rfl, rfl⟩ := h
      exact Writes.of_eq rfl
  | live c =>
      unfold mergeDir at h
      rw [run_bind_eq_ok] at h
      obtain ⟨id, s₁, taken, h⟩ := h
      obtain ⟨-, rfl, rfl⟩ := run_takeId_eq_ok taken
      dsimp only at h
      rw [run_bind_eq_ok] at h
      obtain ⟨_, s₂, announced, h⟩ := h
      rw [run_emit_bind, run_pure_eq_ok] at h
      obtain ⟨rfl, rfl⟩ := h
      refine ((writes_announce announced).trans (writes_emit_record ?_ s₂)).perm
        (List.Perm.of_eq ?_)
      · simp
      · simp [Pairing.gone?, newDeclaration, DirEntry.declaration]
  | old b =>
      unfold mergeDir at h
      rw [run_bind_eq_ok] at h
      obtain ⟨_, s₁, announced, h⟩ := h
      rw [run_emitAll_bind, run_pure_eq_ok] at h
      obtain ⟨rfl, rfl⟩ := h
      refine ((writes_announce announced).trans (writes_emitAll _ s₁)).perm ?_
      rw [filter_announces_of_marker (by decide) (DirEntry.marker_of_mem_replay _ _ _ b)]
      simpa [Pairing.gone?] using DirEntry.replay_perm _ _ _ b

theorem writes_mergeDirs (path : String) (d : DirEntry) :
    ∀ {pairs : List (Pairing DirEntry DirEntry)} {kept : List (DirEntry × Option DirEntry)}
      {s s' : ScanState σ}, (mergeDirs path d pairs).run s = .ok (kept, s') →
      Writes s s' ((kept.filter (·.2.isNone)).map (newDeclaration path d ·.1) ++
        (pairs.filterMap Pairing.gone?).flatMap fun b =>
          b.records (some .removed) (childPath path d.name b.name) d.id) := by
  intro pairs
  induction pairs with
  | nil =>
      intro kept s s' h
      rw [mergeDirs, run_pure_eq_ok] at h
      obtain ⟨rfl, rfl⟩ := h
      exact Writes.of_eq rfl
  | cons pair pairs inductionHypothesis =>
      intro kept s s' h
      rw [mergeDirs, run_bind_eq_ok] at h
      obtain ⟨first, s₁, merged, h⟩ := h
      rw [run_bind_eq_ok] at h
      obtain ⟨rest, s₂, mergedRest, h⟩ := h
      rw [run_pure_eq_ok] at h
      obtain ⟨rfl, rfl⟩ := h
      refine ((writes_mergeDir merged).trans (inductionHypothesis mergedRest)).perm ?_
      -- The first pair's lines, then the rest's: regroup declarations and removals.
      have gone : ((pair :: pairs).filterMap Pairing.gone?).flatMap
            (fun b => b.records (some .removed) (childPath path d.name b.name) d.id) =
          pair.gone?.toList.flatMap (fun b => b.records (some .removed) (childPath path d.name b.name) d.id) ++
            (pairs.filterMap Pairing.gone?).flatMap
              (fun b => b.records (some .removed) (childPath path d.name b.name) d.id) := by
        cases pair <;> simp [Pairing.gone?, List.filterMap_cons]
      rw [List.filter_append, List.map_append, gone]
      simp only [List.append_assoc]
      exact (List.perm_append_comm_assoc _ _ _).append_left _

/-- Merging with no previous directory declares every child directory and adds every
file. -/
theorem writes_merge_none (path : String) (d : DirEntry) (s : ScanState σ) :
    Writes s { s with patch := (d.openingLines (some .added) path).foldl Array.push s.patch }
      (d.dirs.map (newDeclaration path d) ++ d.files.map (FileEntry.entryLine (some .added) d.id)) := by
  have marked : ∀ line ∈ d.openingLines (some .added) path, line.marker = some .added := by
    intro line member
    rw [DirEntry.openingLines, List.mem_append] at member
    rcases member with declared | filed
    · obtain ⟨c, -, rfl⟩ := List.mem_map.mp declared
      rfl
    · obtain ⟨f, -, rfl⟩ := List.mem_map.mp filed
      rfl
  have written := writes_emitAll (d.openingLines (some .added) path) s
  rwa [filter_announces_of_marker (by decide) marked] at written

/-- Merging with the previous directory `o`, both listings sorted by name with each
name once, declares the child directories `o` lacks, with the ids they take, removes
the whole of those only `o` has, and writes the records of the files. -/
theorem writes_merge_some {path : String} {o d d₂ : DirEntry} {baselines : List (Option DirEntry)}
    {s s₂ : ScanState σ} (h : (merge path (some o) d).run s = .ok ((d₂, baselines), s₂))
    (liveSorted : d.dirs.Pairwise fun a b => a.name < b.name)
    (oldSorted : o.dirs.Pairwise fun a b => a.name < b.name)
    (liveFilesSorted : d.files.Pairwise fun a b => a.name < b.name)
    (oldFilesSorted : o.files.Pairwise fun a b => a.name < b.name) :
    Writes s s₂ ((d₂.dirs.filter fun c => (o.child? c.name).isNone).map (newDeclaration path d) ++
      (o.dirs.filter fun b => !d.dirs.any (·.name == b.name)).flatMap
        (fun b => b.records (some .removed) (childPath path d.name b.name) d.id) ++
      (d.files.flatMap (fun f => f.change d.id (o.file? f.name)) ++
        (o.files.filter fun g => !d.files.any (·.name == g.name)).map
          (FileEntry.entryLine (some .removed) d.id))) := by
  unfold merge at h
  rw [run_modify_bind, run_bind_eq_ok] at h
  obtain ⟨kept, s₁, mergedDirs, h⟩ := h
  rw [run_bind_eq_ok] at h
  obtain ⟨_, s₃, mergedFiles, h⟩ := h
  rw [run_pure_eq_ok, Prod.mk.injEq] at h
  obtain ⟨⟨rfl, rfl⟩, rfl⟩ := h
  have dirsWritten := writes_mergeDirs path d mergedDirs
  have filesWritten := writes_mergeFiles d mergedFiles
  -- A kept child has no previous directory exactly when `o` has none of its name.
  have baseline : ∀ x ∈ kept, x.2 = o.child? x.1.name := fun x member =>
    ((mergeDirs_carries mergedDirs).1 x member).baseline liveSorted oldSorted
  have declared : (kept.filter (·.2.isNone)).map (newDeclaration path d ·.1) =
      ((kept.map (·.1)).filter fun c => (o.child? c.name).isNone).map (newDeclaration path d) := by
    rw [List.filter_map, List.map_map]
    congr 1
    exact List.filter_congr fun x member => by rw [baseline x member]; rfl
  have gone := (filterMap_gone?_pairByName_perm liveSorted oldSorted).flatMap_right
    (fun b => b.records (some .removed) (childPath path d.name b.name) d.id)
  have files : (pairByName FileEntry.name FileEntry.name d.files o.files).flatMap
      (Pairing.fileRecords d.id) ~ d.files.flatMap (fun f => f.change d.id (o.file? f.name)) ++
        (o.files.filter fun g => !d.files.any (·.name == g.name)).map
          (FileEntry.entryLine (some .removed) d.id) := by
    refine (flatMap_pairByName_perm liveFilesSorted oldFilesSorted _).trans (List.Perm.of_eq ?_)
    congr 1
    · refine List.flatMap_congr fun f _ => ?_
      rw [DirEntry.file?]
      split
      next g found => rw [found]; rfl
      next found => rw [found]; rfl
    · rw [List.map_eq_flatMap]
      rfl
  refine ((Writes.of_eq rfl).trans (dirsWritten.trans filesWritten)).perm ?_
  rw [List.nil_append, declared]
  exact (gone.append_left _).append files

/-- Merging a read directory `d`, found at `path`, with its previous directory, if
any, declares the new child directories with the ids they take and writes what
differs in its listing. -/
theorem writes_merge {path : String} {old : Option DirEntry} {d d₂ : DirEntry}
    {baselines : List (Option DirEntry)} {s s₂ : ScanState σ}
    (h : (merge path old d).run s = .ok ((d₂, baselines), s₂))
    (liveSorted : d.dirs.Pairwise fun a b => a.name < b.name)
    (liveFilesSorted : d.files.Pairwise fun a b => a.name < b.name)
    (oldSorted : ∀ o ∈ old, (o.dirs.Pairwise fun a b => a.name < b.name) ∧
      o.files.Pairwise fun a b => a.name < b.name) :
    Writes s s₂ ((d₂.dirs.filter fun c => (old.bind (·.child? c.name)).isNone).map
      (newDeclaration path d) ++ d.listingChanges path old) := by
  cases old with
  | none =>
      rw [run_merge_none, Except.ok.injEq, Prod.mk.injEq, Prod.mk.injEq] at h
      obtain ⟨⟨rfl, -⟩, rfl⟩ := h
      simpa [DirEntry.listingChanges] using writes_merge_none path _ s
  | some o =>
      obtain ⟨oldDirs, oldFiles⟩ := oldSorted o rfl
      simpa only [Option.bind_some, DirEntry.listingChanges, List.append_assoc] using
        writes_merge_some h liveSorted oldDirs liveFilesSorted oldFiles

/-! ### Comparing the children once they are scanned -/

/-- Removing what a directory held names the directory and writes the records of
all it held, removed. -/
theorem writes_removeContents {id : Nat} {path : String} {b : DirEntry} {s s' : ScanState σ}
    {r : Unit} (h : (removeContents id path b).run s = .ok (r, s')) :
    Writes s s' (b.dirs.flatMap (fun c => c.records (some .removed) (childPath path b.name c.name) id) ++
      b.files.map (FileEntry.entryLine (some .removed) id)) := by
  have marked : ∀ line ∈ b.dirs.flatMap (fun c => c.replay (some .removed)
      (childPath path b.name c.name) id) ++ b.files.map (FileEntry.entryLine (some .removed) id),
      line.marker = some .removed := by
    intro line member
    rcases List.mem_append.mp member with replayed | filed
    · obtain ⟨c, -, inside⟩ := List.mem_flatMap.mp replayed
      exact DirEntry.marker_of_mem_replay _ _ _ c line inside
    · obtain ⟨f, -, rfl⟩ := List.mem_map.mp filed
      rfl
  have removals := (List.Perm.flatMap_left b.dirs fun c _ =>
    DirEntry.replay_perm (some .removed) (childPath path b.name c.name) id c).append_right
      (b.files.map (FileEntry.entryLine (some .removed) id))
  unfold removeContents at h
  dsimp only at h
  split at h
  · rw [run_emit_bind, run_emitAll, Except.ok.injEq, Prod.mk.injEq] at h
    rw [← h.2]
    refine ((writes_emit _ s).trans (writes_emitAll _ _)).perm ?_
    rw [filter_announces_of_marker (by decide) marked]
    simpa [Line.announces] using removals
  · rename_i nothing
    rw [run_pure_eq_ok] at h
    rw [← h.2]
    rw [Bool.not_eq_true, Bool.not_eq_false', List.isEmpty_iff] at nothing
    rw [nothing] at removals
    exact (Writes.of_eq rfl).perm removals

/-- The walker refused the child `c` of `d`, found at `path`: what `c` held when it
had a previous directory is removed. -/
theorem writes_removeUnentered {path : String} {d c : DirEntry} {q : Option DirEntry}
    {s s' : ScanState σ} {r : Unit} (h : (removeUnentered path d c q).run s = .ok (r, s'))
    (unentered : ∀ u, q = some u → c.Unread ∧ u.name = c.name) :
    Writes s s' ((q.map (c.changesInside (childPath path d.name c.name))).getD []) := by
  cases q with
  | none =>
      rw [removeUnentered, run_pure_eq_ok] at h
      rw [← h.2]
      exact Writes.of_eq rfl
  | some u =>
      obtain ⟨unread, name⟩ := unentered u rfl
      rw [removeUnentered] at h
      rw [Option.map_some, Option.getD_some, unread.changesInside]
      -- The directory is named first only when it held something.
      split at h
      · rw [run_bind_eq_ok] at h
        obtain ⟨_, s₁, announced, h⟩ := h
        have removed := writes_removeContents h
        rw [name] at removed
        simpa only [List.nil_append] using (writes_announce announced).trans removed
      · have removed := writes_removeContents h
        rwa [name] at removed

theorem writes_compareChild {d c : DirEntry} {b : Option DirEntry} {s s' : ScanState σ} {r : Unit}
    (h : (compareChild d c b).run s = .ok (r, s')) : Writes s s' (c.entryChange d.id b) := by
  cases b with
  | none => exact writes_announce_emit (DirEntry.announces_entryLine _ _ _) h
  | some b =>
      rw [compareChild] at h
      by_cases differs : b.size ≠ c.size
      · rw [if_pos differs] at h
        simpa [DirEntry.entryChange, differs] using
          writes_announce_emit (DirEntry.announces_entryLine _ _ _) h
      · rw [if_neg differs, run_pure_eq_ok] at h
        exact (Writes.of_eq (by rw [← h.2])).perm (by simp [DirEntry.entryChange, differs])

/-- Comparing the scanned children of `d`, found at `path`, with `B` giving each
child's previous directory: for each child, the removal of what it held if the
walker refused it, then its entry if it is new or its size changed. -/
theorem writes_compareChildren (path : String) (d : DirEntry) (B : DirEntry → Option DirEntry) :
    ∀ {cs : List DirEntry} {pending : List (Option DirEntry)} {s s' : ScanState σ} {r : Unit},
      (compareChildren path d cs pending (cs.map B)).run s = .ok (r, s') →
      (∀ x ∈ cs.zip pending, ∀ u, x.2 = some u → x.1.Unread ∧ u.name = x.1.name) →
      Writes s s' ((cs.zip pending).flatMap fun x =>
        (x.2.map (x.1.changesInside (childPath path d.name x.1.name))).getD [] ++
          x.1.entryChange d.id (B x.1)) := by
  intro cs
  induction cs with
  | nil =>
      intro pending s s' r h _
      rw [← (run_pure_eq_ok.mp h).2]
      exact Writes.of_eq rfl
  | cons c cs inductionHypothesis =>
      intro pending s s' r h unentered
      cases pending with
      | nil =>
          rw [← (run_pure_eq_ok.mp h).2]
          exact Writes.of_eq rfl
      | cons q pending =>
          rw [List.map_cons, compareChildren, run_bind_eq_ok] at h
          obtain ⟨_, s₁, removed, h⟩ := h
          rw [run_bind_eq_ok] at h
          obtain ⟨_, s₂, compared, h⟩ := h
          rw [List.zip_cons_cons, List.flatMap_cons, List.append_assoc]
          exact (writes_removeUnentered removed (unentered (c, q) List.mem_cons_self)).trans
            ((writes_compareChild compared).trans
              (inductionHypothesis h fun x member => unentered x (List.mem_cons_of_mem _ member)))

/-! ### One child directory -/

/-- What the scan writes for one child directory `c` of `d`, found at `path`, whose
previous directory is the child of its name in `old`: its declaration if it is new;
what differs inside it, written while scanning it, or on comparing the children when
the walker refused it, with `q` the previous directory left to remove; and its entry.
Together these are the records of its differences. -/
theorem childLines_perm (path : String) (d : DirEntry) (old : Option DirEntry) {c : DirEntry}
    {q : Option DirEntry} (pending : ∀ u, q = some u → c.Unread ∧ q = old.bind (·.child? c.name)) :
    (if (old.bind (·.child? c.name)).isNone then [newDeclaration path d c] else []) ++
        ((if q.isSome then [] else
            c.changesWithin (childPath path d.name c.name) (old.bind (·.child? c.name))) ++
          ((q.map (c.changesInside (childPath path d.name c.name))).getD [] ++
            c.entryChange d.id (old.bind (·.child? c.name)))) ~
      DirEntry.childChanges path d old c := by
  rw [DirEntry.childChanges]
  cases baseline : old.bind (·.child? c.name) with
  | none =>
      -- A new child: the walker left no previous directory to remove.
      have noPending : q = none := by
        cases q with
        | none => rfl
        | some u =>
            have same := (pending u rfl).2
            rw [baseline] at same
            cases same
      subst noPending
      simp only [Option.isNone_none, Option.isSome_none, Option.map_none, Option.getD_none,
        Bool.false_eq_true, if_true, if_false, List.nil_append, List.singleton_append,
        DirEntry.changesWithin, DirEntry.entryChange, DirEntry.records_eq]
      exact (List.perm_append_singleton _ _).cons _
  | some b =>
      cases q with
      | none =>
          simp [DirEntry.changesWithin]
      | some u =>
          obtain ⟨-, same⟩ := pending u rfl
          rw [baseline, Option.some.injEq] at same
          subst same
          simp

/-! ### Entering the children -/

/-- The previous directory of a child, in a previous tree sorted by name, is sorted. -/
theorem sorted_bind_child? {old : Option DirEntry} (sorted : ∀ o ∈ old, o.SortedNames ∧ o.SortedFiles)
    (name : String) : ∀ o ∈ old.bind (·.child? name), o.SortedNames ∧ o.SortedFiles := by
  intro o member
  obtain ⟨p, parent, found⟩ := Option.mem_bind_iff.mp member
  have child := DirEntry.mem_of_child?_eq_some found
  exact ⟨(sorted p parent).1.child child, (sorted p parent).2.child child⟩

variable {walker : Walker σ} {good : σ → Prop}

/-- Entering unread children one after another, each scanned against the child of its
name in `old`, writes what differs inside each child it enters. A child it refuses is
left unread with its previous directory pending, for the comparison to remove. -/
theorem enterAll_writes (distinct : walker.DistinctNames good)
    {visitChild : String → Option DirEntry → DirEntry → ScanM σ DirEntry}
    (visitCarries : ∀ path b (c c' : DirEntry) (t t' : ScanState σ), c.Unread → good t.walker →
      (∀ o ∈ b, o.SortedNames) → (visitChild path b c).run t = .ok (c', t') → Carried good b c c' t t')
    (visitWrites : ∀ path b (c c' : DirEntry) (t t' : ScanState σ), c.Unread → good t.walker →
      (∀ o ∈ b, o.SortedNames ∧ o.SortedFiles) → (visitChild path b c).run t = .ok (c', t') →
      Writes t t' (c'.changesWithin path b))
    {path parentName : String} {old : Option DirEntry}
    (oldSorted : ∀ o ∈ old, o.SortedNames ∧ o.SortedFiles) :
    ∀ {cs : List DirEntry} {result : List DirEntry × List (Option DirEntry)} {s s' : ScanState σ},
      (enterAll walker visitChild path parentName cs
        (cs.map fun c => old.bind (·.child? c.name))).run s = .ok (result, s') →
      (∀ c ∈ cs, c.Unread) → good s.walker →
      Writes s s' ((result.1.zip result.2).flatMap fun x => if x.2.isSome then [] else
          x.1.changesWithin (childPath path parentName x.1.name) (old.bind (·.child? x.1.name))) ∧
        result.2.length = result.1.length ∧
        ∀ x ∈ result.1.zip result.2, ∀ u, x.2 = some u →
          x.1.Unread ∧ x.2 = old.bind (·.child? x.1.name) := by
  intro cs
  induction cs with
  | nil =>
      intro result s s' h _ _
      rw [List.map_nil, enterAll, run_pure_eq_ok] at h
      obtain ⟨rfl, rfl⟩ := h
      exact ⟨Writes.of_eq rfl, rfl, by simp⟩
  | cons c cs inductionHypothesis =>
      intro result s s' h children goodNow
      have unread := children c List.mem_cons_self
      have restChildren := fun c' member => children c' (List.mem_cons_of_mem c member)
      rw [List.map_cons, enterAll] at h
      dsimp only at h
      rw [List.head?_cons, Option.join_some, List.tail_cons, run_get_bind] at h
      split at h
      · -- The walker refused the child: nothing inside it is written yet.
        rw [run_count_bind, run_bind_eq_ok] at h
        obtain ⟨⟨rest, pending⟩, s₁, restRun, h⟩ := h
        rw [run_pure_eq_ok] at h
        obtain ⟨rfl, rfl⟩ := h
        obtain ⟨written, length, unentered⟩ := inductionHypothesis restRun restChildren goodNow
        have nothing : (if (old.bind (·.child? c.name)).isSome then [] else
            c.changesWithin (childPath path parentName c.name) (old.bind (·.child? c.name))) = [] := by
          cases old.bind (·.child? c.name) with
          | none => exact unread.recordsInside _ _
          | some b => rfl
        refine ⟨?_, by simp [length], ?_⟩
        · rw [List.zip_cons_cons, List.flatMap_cons, nothing, List.nil_append]
          exact Writes.of_eq_trans rfl written
        · intro x member u pend
          rcases List.mem_cons.mp member with rfl | later
          · exact ⟨unread, rfl⟩
          · exact unentered x later u pend
      · -- The child was entered and scanned against the previous child of its name.
        rename_i state entered
        rw [run_set_bind, run_bind_eq_ok] at h
        obtain ⟨c', s₁, visited, h⟩ := h
        rw [run_bind_eq_ok] at h
        obtain ⟨_, s₂, left, h⟩ := h
        rw [run_bind_eq_ok] at h
        obtain ⟨⟨rest, pending⟩, s₃, restRun, h⟩ := h
        rw [run_pure_eq_ok] at h
        obtain ⟨rfl, rfl⟩ := h
        have childGood := distinct.enter _ _ _ goodNow entered
        have childSorted := sorted_bind_child? oldSorted c.name
        have childCarried := visitCarries _ _ _ _ _ _ unread childGood
          (fun o member => (childSorted o member).1) visited
        have childWritten := visitWrites _ _ _ _ _ _ unread childGood childSorted visited
        obtain ⟨moved, -⟩ := leaveChild_eq_ok left
        obtain ⟨written, length, unentered⟩ := inductionHypothesis restRun restChildren
          (distinct.leave _ _ childCarried.walker moved)
        refine ⟨?_, by simp [length], ?_⟩
        · rw [List.zip_cons_cons, List.flatMap_cons]
          simp only [Option.isSome_none, Bool.false_eq_true, if_false]
          rw [childCarried.name]
          exact Writes.of_eq_trans rfl
            (childWritten.trans (Writes.of_eq_trans (leaveChild_patch left) written))
        · intro x member u pend
          rcases List.mem_cons.mp member with rfl | later
          · cases pend
          · exact unentered x later u pend

end Scan

/-! ### Listings with distinct file names -/

namespace MemNode

/-- The names of the node's files, in order, as its listing gives them. -/
def fileNames (node : MemNode) : List String :=
  ((node.children.map MemNode.item).filterMap Scan.Item.fileEntry?).map (·.name)

/-- Sibling files have distinct names, everywhere in the tree. -/
def DistinctFiles (T : MemNode) : Prop := ∀ q, (T.follow q).fileNames.Nodup

end MemNode

/-- A walker whose listings name each file once, in every good state. -/
def Walker.DistinctFiles {σ : Type} (walker : Walker σ) (good : σ → Prop) : Prop :=
  ∀ w n, good w → (((walker.list w n).2.filterMap Scan.Item.fileEntry?).map (·.name)).Nodup

/-- The walker over an in-memory tree whose sibling files have distinct names lists
distinct file names wherever it stands in that tree. -/
theorem memWalker_distinctFiles {T : MemNode} (distinct : T.DistinctFiles) :
    memWalker.DistinctFiles fun w : MemWalk => w.root = T := by
  intro w n rooted
  have current : w.current = T.follow w.position := by rw [MemWalk.current, rooted]
  show ((((w.current.children.map MemNode.item).take n).filterMap Scan.Item.fileEntry?).map
    (·.name)).Nodup
  rw [current]
  exact (distinct w.position).sublist (((List.take_sublist _ _).filterMap _).map _)

namespace Scan

variable {σ : Type} {walker : Walker σ} {good : σ → Prop}

/-- Reading an unread directory from a good state, over a walker that lists distinct
file names, sorts its files strictly by name. -/
theorem readDir_filesSorted (distinct : walker.DistinctFiles good) {limits : Limits}
    {firstFresh : Nat} {d d₁ : DirEntry} {s s₁ : ScanState σ}
    (h : (readDir walker limits firstFresh d).run s = .ok (d₁, s₁)) (unread : d.Unread)
    (goodNow : good s.walker) : d₁.files.Pairwise fun a b => a.name < b.name := by
  obtain ⟨-, -, -, outcome⟩ := readDir_eq_ok h
  rcases outcome with ⟨-, rfl, -⟩ | ⟨-, -, -, ordered, ids, size, orderedEq, -, kept⟩
  · rw [unread.noFiles]
    exact List.Pairwise.nil
  · rcases kept with ⟨-, rfl, -⟩ | ⟨-, rfl, -⟩
    · -- The listing's file names are distinct, and sorting keeps them.
      obtain ⟨-, -, -, -, -, -, -, -, shape, -⟩ := orderChildren_eq_ok orderedEq
      have names : ordered.files.map (·.name) =
          (List.mergeSort ((walker.kept limits s.walker).filterMap Item.fileEntry?)
            FileEntry.nameLe).map (·.name) := by
        simpa [List.map_map, Function.comp_def, DirEntry.withListing, unread.noFiles] using
          congrArg (List.map Prod.fst) shape
      have listed : (((walker.kept limits s.walker).filterMap Item.fileEntry?).map (·.name)).Sublist
          ((((walker.list s.walker (limits.maxItems + 1)).2).filterMap Item.fileEntry?).map (·.name)) :=
        ((List.take_sublist _ _).filterMap _).map _
      have nodup : (ordered.files.map (·.name)).Nodup := by
        rw [names]
        exact ((List.mergeSort_perm _ _).map _).nodup_iff.mpr ((distinct _ _ goodNow).sublist listed)
      exact ((orderChildren_ordered orderedEq).filesSorted.and (List.pairwise_map.mp nodup)).imp
        fun both => lt_of_le_of_ne both.1 both.2
    · exact List.Pairwise.nil

/-! ### Scanning a directory -/

/-- Filtering then mapping is, element by element, the mapped element or nothing. -/
theorem map_filter_eq_flatMap {α β : Type} (p : α → Bool) (f : α → β) (l : List α) :
    (l.filter p).map f = l.flatMap fun a => if p a then [f a] else [] := by
  induction l with
  | nil => rfl
  | cons a l inductionHypothesis =>
      by_cases holds : p a <;> simp [holds, inductionHypothesis]

/-- Scanned children keep the names they were entered with. -/
theorem CarriedAll.names {old : Option DirEntry} {cs cs' : List DirEntry} {s s' : ScanState σ}
    (carried : CarriedAll good old cs cs' s s') : cs'.map (·.name) = cs.map (·.name) := by
  simpa [List.map_map, Function.comp_def] using congrArg (List.map Prod.fst) carried.namesIds

/-- Scanned children find the same previous directories as before the scan. -/
theorem CarriedAll.map_bind_child? {old : Option DirEntry} {cs cs' : List DirEntry}
    {s s' : ScanState σ} (carried : CarriedAll good old cs cs' s s') (before : Option DirEntry) :
    cs.map (fun c => before.bind (·.child? c.name)) = cs'.map (fun c => before.bind (·.child? c.name)) := by
  simpa [List.map_map, Function.comp_def] using
    congrArg (List.map fun n => before.bind (·.child? n)) carried.names.symm

/-- A previous directory found under a name has that name. -/
theorem name_of_bind_child? {old : Option DirEntry} {name : String} {u : DirEntry}
    (found : old.bind (·.child? name) = some u) : u.name = name := by
  obtain ⟨o, -, found⟩ := Option.mem_bind_iff.mp found
  simpa using List.find?_some found

/-- A refused child left with a previous directory to remove is unread and has that
directory's name. -/
theorem unentered_named {old : Option DirEntry} {x : DirEntry × Option DirEntry} {u : DirEntry}
    (pend : x.2 = some u) (unentered : x.1.Unread ∧ x.2 = old.bind (·.child? x.1.name)) :
    x.1.Unread ∧ u.name = x.1.name :=
  ⟨unentered.1, name_of_bind_child? (unentered.2.symm.trans pend)⟩

/-- What one directory's scan writes, in the order it writes it (the declarations of its
new children and its listing's changes as merging writes them, what the entered children
write, then what comparing them writes), is the directory's changes within, up to order. -/
theorem written_perm_changesWithin {path : String} {old : Option DirEntry} {d₁ d₂ : DirEntry}
    {dirs : List DirEntry} {pending : List (Option DirEntry)} {size : Nat}
    (sameName : d₂.name = d₁.name) (sameId : d₂.id = d₁.id) (sameFiles : d₂.files = d₁.files)
    (mergedNames : d₂.dirs.map (·.name) = d₁.dirs.map (·.name))
    (namesIds : dirs.map (fun c => (c.name, c.id)) = d₂.dirs.map (fun c => (c.name, c.id)))
    (names : dirs.map (·.name) = d₂.dirs.map (·.name)) (pendingLength : pending.length = dirs.length)
    (unentered : ∀ x ∈ dirs.zip pending, ∀ u, x.2 = some u →
      x.1.Unread ∧ x.2 = old.bind (·.child? x.1.name)) :
    (d₂.dirs.filter fun c => (old.bind (·.child? c.name)).isNone).map (newDeclaration path d₁) ++
          d₁.listingChanges path old ++
        ((dirs.zip pending).flatMap (fun x => if x.2.isSome then [] else
            x.1.changesWithin (childPath path d₂.name x.1.name) (old.bind (·.child? x.1.name))) ++
          (dirs.zip pending).flatMap (fun x =>
            (x.2.map (x.1.changesInside (childPath path { d₂ with dirs, size }.name x.1.name))).getD [] ++
              x.1.entryChange { d₂ with dirs, size }.id (old.bind (·.child? x.1.name)))) ~
      DirEntry.changesWithin path { d₂ with dirs, size } old := by
  -- What merging declares, child by child.
  have fst : (dirs.zip pending).map Prod.fst = dirs := List.map_fst_zip (le_of_eq pendingLength.symm)
  have declEq : ∀ e : DirEntry, e.name = d₁.name → newDeclaration path e =
      fun c => (⟨some .added, .directory c.id (childPath path d₁.name c.name)⟩ : Line) := by
    intro e same
    funext c
    rw [newDeclaration, same]
    rfl
  have declared : (d₂.dirs.filter fun c => (old.bind (·.child? c.name)).isNone).map
        (newDeclaration path d₁) =
      (dirs.zip pending).flatMap fun x => if (old.bind (·.child? x.1.name)).isNone then
        [newDeclaration path { d₂ with dirs, size } x.1] else [] := by
    have sameDecls := congrArg (fun l => (l.filter fun p => (old.bind (·.child? p.1)).isNone).map
      fun p => (⟨some .added, .directory p.2 (childPath path d₁.name p.1)⟩ : Line)) namesIds
    have asFlatMap := List.flatMap_map Prod.fst (fun c => if (old.bind (·.child? c.name)).isNone then
      [newDeclaration path { d₂ with dirs, size } c] else []) (dirs.zip pending)
    rw [fst, ← map_filter_eq_flatMap] at asFlatMap
    rw [← asFlatMap, declEq d₁ rfl, declEq { d₂ with dirs, size } sameName]
    simpa [List.filter_map, List.map_map, Function.comp_def] using sameDecls.symm
  have sameListing : DirEntry.listingChanges path { d₂ with dirs, size } old =
      d₁.listingChanges path old :=
    DirEntry.listingChanges_congr (by exact sameName) (by exact sameId) (by exact sameFiles)
      (names.trans mergedNames) old
  have fromFst := List.flatMap_map Prod.fst (DirEntry.childChanges path { d₂ with dirs, size } old)
    (dirs.zip pending)
  rw [fst] at fromFst
  have shuffle : ∀ A L E C : List Line, A ++ L ++ (E ++ C) ~ A ++ (E ++ C) ++ L := by
    intro A L E C
    rw [List.append_assoc, List.append_assoc A]
    exact List.Perm.append_left A List.perm_append_comm
  -- Then each child's lines, whichever way it was met, are its changes.
  rw [declared]
  refine List.Perm.trans ?_ (DirEntry.changesWithin_perm path { d₂ with dirs, size } old).symm
  rw [sameListing]
  refine (shuffle _ _ _ _).trans (List.Perm.append_right _ ?_)
  refine ((List.Perm.append_left _ (List.flatMap_append_perm _ _ _)).trans
    (List.flatMap_append_perm _ _ _)).trans ?_
  refine (List.Perm.flatMap_left _ fun x member =>
    childLines_perm path { d₂ with dirs, size } old (unentered x member)).trans ?_
  exact List.Perm.of_eq fromFst.symm

/-- Scanning an unread directory `d`, found at `path`, against its previous directory
`old`, over a walker that lists distinct names of each kind, writes into the patch,
up to order and its `* 0` lines, exactly the records of what differs inside the
directory it returns; whatever the walker refuses and whatever recursion detection
or the limits leave unread. -/
theorem visit_writes (distinct : walker.DistinctNames good) (distinctFiles : walker.DistinctFiles good)
    {limits : Limits} {firstFresh : Nat} (fuel : Nat) :
    ∀ {path : String} {old : Option DirEntry} {d d' : DirEntry} {s s' : ScanState σ}, d.Unread →
      good s.walker → (∀ o ∈ old, o.SortedNames ∧ o.SortedFiles) →
      (visit walker limits firstFresh fuel path old d).run s = .ok (d', s') →
      Writes s s' (d'.changesWithin path old) := by
  induction fuel with
  | zero =>
      intro path old d d' s s' _ _ _ h
      rw [visit, run_throw] at h
      cases h
  | succ fuel inductionHypothesis =>
      intro path old d d' s s' unread goodNow oldSorted h
      rw [visit, run_bind_eq_ok] at h
      obtain ⟨d₁, s₁, read, h⟩ := h
      have numbered := readDir_numbered read ⟨unread.noDirs, unread.noFiles⟩
      obtain ⟨liveSorted, good₁⟩ := readDir_sorted distinct read unread goodNow
      have liveFilesSorted := readDir_filesSorted distinctFiles read unread goodNow
      rw [run_bind_eq_ok] at h
      obtain ⟨⟨d₂, baselines⟩, s₂, mergedRun, h⟩ := h
      dsimp only at h
      have merged := numbered.merged mergedRun
      have partitions : ∀ o ∈ old, (o.dirs.Pairwise fun a b => a.name < b.name) ∧
          o.files.Pairwise fun a b => a.name < b.name := fun o member =>
        ⟨(oldSorted o member).1 o (DirEntry.mem_allDirs_self o),
          (oldSorted o member).2 o (DirEntry.mem_allDirs_self o)⟩
      have carries := merge_carries mergedRun
        (by rw [numbered.childIds, numbered.start, numbered.supply, Nat.add_sub_cancel_left])
        liveSorted fun o same => (partitions o same).1
      have mergeWritten := writes_merge mergedRun liveSorted liveFilesSorted partitions
      have childrenUnread : ∀ c ∈ d₂.dirs, c.Unread := merged.unread_of_mem fun c child =>
        ⟨(numbered.childrenEmpty c child).1, (numbered.childrenEmpty c child).2,
          numbered.childrenUnread c child⟩
      rw [run_dumpAll_bind, run_bind_eq_ok, carries.baselines] at h
      obtain ⟨⟨dirs, pending⟩, s₃, entered, h⟩ := h
      dsimp only at h
      have childCarries : ∀ path b (c c' : DirEntry) (t t' : ScanState σ), c.Unread → good t.walker →
          (∀ o ∈ b, o.SortedNames) → (visit walker limits firstFresh fuel path b c).run t = .ok (c', t') →
          Carried good b c c' t t' :=
        fun _ _ _ _ _ _ => visit_carries distinct fuel
      have enterCarried := enterAll_carries distinct childCarries (fun o member => (oldSorted o member).1)
        entered childrenUnread (by rw [merged.walker]; exact good₁)
      obtain ⟨enterWritten, pendingLength, unentered⟩ := enterAll_writes distinct childCarries
        (fun _ _ _ _ _ _ => inductionHypothesis) oldSorted entered childrenUnread
        (by rw [merged.walker]; exact good₁)
      rw [run_bind_eq_ok] at h
      obtain ⟨size, s₄, summed, h⟩ := h
      rw [run_checked_eq_ok] at summed
      obtain ⟨-, rfl⟩ := summed
      rw [run_bind_eq_ok] at h
      obtain ⟨_, s₅, compared, h⟩ := h
      rw [run_dumpAll_bind, run_pure_eq_ok] at h
      obtain ⟨rfl, rfl⟩ := h
      -- The scanned children keep the names and ids merging gave them.
      have namesIds : dirs.map (fun c => (c.name, c.id)) = d₂.dirs.map (fun c => (c.name, c.id)) :=
        enterCarried.namesIds
      have names : dirs.map (·.name) = d₂.dirs.map (·.name) := enterCarried.names
      rw [enterCarried.map_bind_child? old] at compared
      have compareWritten := writes_compareChildren path { d₂ with dirs, size }
        (fun c => old.bind (·.child? c.name)) compared fun x member u pend =>
          unentered_named pend (unentered x member u pend)
      have written := Writes.of_eq_trans numbered.patch (mergeWritten.trans
        (Writes.of_eq_trans rfl (enterWritten.trans (compareWritten.trans_of_eq rfl))))
      exact written.perm (written_perm_changesWithin (by rw [merged.same]) (by rw [merged.same])
        (by rw [merged.same]) merged.names namesIds names pendingLength unentered)

/-! ### A whole scan -/

theorem writes_openRoot {root : DirEntry} {old : Option DirEntry} {s s' : ScanState σ} {r : Unit}
    (h : (openRoot root old).run s = .ok (r, s')) :
    Writes s s' (if old.isNone then [root.declaration (some .added) root.name] else []) := by
  unfold openRoot at h
  split at h
  · rename_i noBaseline
    rw [run_emit, Except.ok.injEq, Prod.mk.injEq] at h
    rw [← h.2, if_pos noBaseline]
    exact writes_emit_record (by simp) s
  · rename_i baseline
    rw [run_pure_eq_ok] at h
    rw [← h.2, if_neg baseline]
    exact Writes.of_eq rfl

theorem writes_closeRoot {d : DirEntry} {old : Option DirEntry} {s s' : ScanState σ} {r : Unit}
    (h : (closeRoot d old).run s = .ok (r, s')) : Writes s s' (d.entryChange 0 old) := by
  cases old with
  | none =>
      rw [closeRoot, run_emit, Except.ok.injEq, Prod.mk.injEq] at h
      rw [← h.2]
      exact writes_emit_record (by simp [DirEntry.entryLine]) s
  | some o =>
      rw [closeRoot] at h
      by_cases differs : o.size ≠ d.size
      · rw [if_pos differs, run_emit, Except.ok.injEq, Prod.mk.injEq] at h
        rw [← h.2]
        have written := writes_emit (d.entryLine (some .changed) 0) s
        rw [List.filter_singleton, DirEntry.announces_entryLine] at written
        simpa [DirEntry.entryChange, differs] using written
      · rw [if_neg differs, run_pure_eq_ok] at h
        exact (Writes.of_eq (by rw [← h.2])).perm (by simp [DirEntry.entryChange, differs])

/-- A whole scan from an unread root against a sorted previous tree, over a walker
that lists distinct names of each kind, writes a patch whose records, its `* 0`
lines left out, are those of the differences between the tree it returns and the
previous tree, in some order. -/
theorem run_patch_records (distinct : walker.DistinctNames good)
    (distinctFiles : walker.DistinctFiles good) {limits : Limits} {state : σ} {root : DirEntry}
    {old : Option DirEntry} {ids : IdSupply} {scan : Scan σ}
    (h : run walker limits state root old ids = .ok scan) (unread : root.Unread) (goodNow : good state)
    (oldSorted : ∀ o ∈ old, o.SortedNames ∧ o.SortedFiles) :
    scan.patch.filter (!·.announces) ~ scan.tree.changesFrom root.name old := by
  unfold run at h
  obtain ⟨⟨tree, s'⟩, ran, rfl⟩ := except_map_eq_ok h
  rw [run_bind_eq_ok] at ran
  obtain ⟨_, s₁, opened, ran⟩ := ran
  obtain ⟨walker₁, -⟩ := keeps_openRoot root old _ _ _ opened
  have good₁ : good s₁.walker := by rw [walker₁]; exact goodNow
  rw [run_dumpAll_bind, run_bind_eq_ok] at ran
  obtain ⟨d, s₂, visited, ran⟩ := ran
  have carried := visit_carries distinct _ unread (by exact good₁)
    (fun o member => (oldSorted o member).1) visited
  have visitWritten := visit_writes distinct distinctFiles _ unread (by exact good₁) oldSorted visited
  rw [run_bind_eq_ok] at ran
  obtain ⟨_, s₃, closed, ran⟩ := ran
  rw [run_dumpAll_bind, run_pure_eq_ok] at ran
  obtain ⟨rfl, rfl⟩ := ran
  have written := (writes_openRoot opened).trans (Writes.of_eq_trans rfl
    (visitWritten.trans ((writes_closeRoot closed).trans_of_eq rfl)))
  refine (written.filter_perm rfl).trans ?_
  -- The root's own records: its declaration and entry when it is new, else its entry
  -- if its size changed.
  cases old with
  | none =>
      have declared : root.declaration (some .added) root.name =
          tree.declaration (some .added) root.name := by
        rw [DirEntry.declaration, DirEntry.declaration, carried.id]
      simp only [Option.isNone_none, if_true, DirEntry.changesWithin, DirEntry.entryChange,
        DirEntry.changesFrom, DirEntry.records_eq, declared, List.singleton_append]
      exact (List.perm_append_singleton _ _).cons _
  | some o =>
      simp [DirEntry.changesWithin, DirEntry.changesFrom]

end Scan

/-- A tree of one directory with no children has distinct file names everywhere. -/
theorem MemNode.distinctFiles_leaf (name : String) (refuseEnter refuseLeave : Bool) :
    (MemNode.dir name [] refuseEnter refuseLeave).DistinctFiles := by
  intro q
  cases q <;> simp [MemNode.follow, MemNode.fileNames, MemNode.children]

/-- The records of a diff are exactly the differences. Diff an in-memory tree with
distinct sibling names of each kind against no snapshot, or against a snapshot whose
partitions are sorted by name with each name once. The output is the header, the
patch and the dump of the tree the scan built. Leave out the patch's `* 0` lines. The
records that remain are those of the differences between that tree and the
snapshot's tree, in some order. Nodes match by path and kind, and the two roots
always match. A directory only in the live tree has its declaration and entry marked
`+`, and so has all it holds. A directory only in the snapshot's tree has its
declaration and entry marked `-`, and so has all it held. A file only on one side has
its entry marked `+` or `-`. A matched node whose size differs has its live entry
marked `*`. A matched node of equal size has no record. This holds whatever the
walker refuses, and whatever the limits or recursion detection leave unread. -/
theorem diff_patch_records {T : MemNode} (distinct : T.DistinctDirs) (distinctFiles : T.DistinctFiles)
    (limits : Limits) (name : String) {S : Option Snapshot}
    (sorted : ∀ o ∈ S, o.root.SortedNames ∧ o.root.SortedFiles) {r : Report MemWalk}
    (diffed : inventory memWalker limits { root := T } .diff (DirEntry.root name) S = .ok r) :
    ∃ (tree : DirEntry) (patch : List Line),
      r.output = "* " ++ ((S.map (·.digest)).getD (Md5.digest [])).toHex ++ "\n" ++
        Wire.text patch ++ tree.dumpText ∧
      patch.filter (!·.announces) ~ tree.changesFrom name (S.map (·.root)) := by
  obtain ⟨ids, scan, -, ran, written⟩ := inventory_diff_scans diffed
  have oldSorted : ∀ o ∈ S.map (·.root), o.SortedNames ∧ o.SortedFiles := by
    intro o member
    obtain ⟨snapshot, kept, rfl⟩ := Option.mem_map.mp member
    exact sorted snapshot kept
  refine ⟨scan.tree, scan.patch, ?_, ?_⟩
  · rw [written, Scan.run_dump ran rfl rfl, DirEntry.dumpText]
  · exact Scan.run_patch_records (memWalker_distinctNames distinct)
      (memWalker_distinctFiles distinctFiles) ran ⟨rfl, rfl, rfl⟩ rfl oldSorted

/-- The diff of an empty directory against a snapshot whose root held one directory
`a`: the records of the patch are the removal of `a`. -/
theorem emptied_diff_patch_records :
    ∃ S r, Snapshot.read "0 1 r\n0 2 r/a\n1 1 0 0 2 0 a\n1 0 0 0 1 1 r\n".toUTF8.toList = .ok S ∧
      (MemNode.dir "r" [] false false).DistinctDirs ∧ (MemNode.dir "r" [] false false).DistinctFiles ∧
      (∀ o ∈ some S, o.root.SortedNames ∧ o.root.SortedFiles) ∧
      inventory memWalker {} { root := .dir "r" [] false false } .diff (DirEntry.root "r") (some S) = .ok r ∧
      ∃ (tree : DirEntry) (patch : List Line),
        r.output = "* " ++ (((some S).map (·.digest)).getD (Md5.digest [])).toHex ++ "\n" ++
          Wire.text patch ++ tree.dumpText ∧
        patch.filter (!·.announces) ~ tree.changesFrom "r" ((some S).map (·.root)) := by
  have checked : (Snapshot.read "0 1 r\n0 2 r/a\n1 1 0 0 2 0 a\n1 0 0 0 1 1 r\n".toUTF8.toList).toOption.any
      (fun S => decide (S.root.dirs.Pairwise fun a b => a.name < b.name) &&
        decide (S.root.files.Pairwise fun a b => a.name < b.name) &&
        S.root.dirs.all (fun c => c.dirs.isEmpty && c.files.isEmpty) &&
        (inventory memWalker {} { root := .dir "r" [] false false } .diff (DirEntry.root "r")
          (some S)).toOption.any fun _ => true) = true := by
    decide +kernel
  obtain ⟨S, accepted, fits⟩ := Scan.exists_ok_of_toOption_any checked
  simp only [Bool.and_eq_true, decide_eq_true_eq, List.all_eq_true, List.isEmpty_iff] at fits
  obtain ⟨⟨⟨dirsSorted, filesSorted⟩, leaves⟩, diffs⟩ := fits
  obtain ⟨r, diffed, -⟩ := Scan.exists_ok_of_toOption_any diffs
  -- The snapshot's tree is a sorted root over leaves.
  have leafSorted : ∀ c ∈ S.root.dirs, c.SortedNames ∧ c.SortedFiles := by
    intro c child
    obtain ⟨noDirs, noFiles⟩ := leaves c child
    have noBelow : ∀ b ∈ c.dirs, False := fun b below => by
      rw [noDirs] at below
      exact absurd below List.not_mem_nil
    exact ⟨DirEntry.sortedNames_of_children (by rw [noDirs]; exact .nil) fun b below => (noBelow b below).elim,
      DirEntry.sortedFiles_of_children (by rw [noFiles]; exact .nil) fun b below => (noBelow b below).elim⟩
  have sorted : ∀ o ∈ some S, o.root.SortedNames ∧ o.root.SortedFiles := by
    intro o member
    obtain rfl := Option.mem_some_iff.mp member
    exact ⟨DirEntry.sortedNames_of_children dirsSorted fun c child => (leafSorted c child).1,
      DirEntry.sortedFiles_of_children filesSorted fun c child => (leafSorted c child).2⟩
  exact ⟨S, r, accepted, Scan.distinctDirs_leaf "r" false false, MemNode.distinctFiles_leaf "r" false false,
    sorted, diffed, diff_patch_records (Scan.distinctDirs_leaf "r" false false)
      (MemNode.distinctFiles_leaf "r" false false) {} "r" sorted diffed⟩

/-- The records below the root carry the live root's id as their parent, which is not
the snapshot root's id when the snapshot gives its root another id. Against a
snapshot whose root has id `5` and holds one directory `a` (id `2`), the diff of an
empty directory `r` removes `a`, whose entry in the snapshot has parent `5`, with the
entry `- 1 1 0 0 2 0 a`, and writes no entry of `a` with parent `5`. -/
theorem removed_entry_takes_live_root_id :
    ∃ S, Snapshot.read "0 5 r\n0 2 r/a\n1 5 0 0 2 0 a\n1 0 0 0 5 1 r\n".toUTF8.toList = .ok S ∧
      S.root.id = 5 ∧ S.root.dirs.map (fun c => (c.name, c.id)) = [("a", 2)] ∧
      ∃ r, inventory memWalker {} { root := .dir "r" [] false false } .diff (DirEntry.root "r")
          (some S) = .ok r ∧
        ∃ (tree : DirEntry) (patch : List Line),
          r.output = "* " ++ S.digest.toHex ++ "\n" ++ Wire.text patch ++ tree.dumpText ∧
          (⟨some .removed, .entry 1 0 0 2 0 "a"⟩ : Line) ∈ patch ∧
          ∀ line ∈ patch, line.record ≠ .entry 5 0 0 2 0 "a" := by
  have checked : (Snapshot.read "0 5 r\n0 2 r/a\n1 5 0 0 2 0 a\n1 0 0 0 5 1 r\n".toUTF8.toList).toOption.any
      (fun S => S.root.id == 5 && S.root.size == 0 && S.root.files.isEmpty &&
        S.root.dirs.map (fun c => (c.name, c.id, c.fid, c.size, c.items, c.dirs.isEmpty, c.files.isEmpty)) ==
          [("a", 2, 0, 0, 0, true, true)] &&
        (inventory memWalker {} { root := .dir "r" [] false false } .diff (DirEntry.root "r")
          (some S)).toOption.any (fun _ => true) &&
        (IdSupply.after S.maxId).toOption.any fun ids =>
          (Scan.run memWalker {} { root := .dir "r" [] false false } (DirEntry.root "r") (some S.root)
            ids).toOption.any fun scan => scan.tree.dirs.isEmpty && scan.tree.files.isEmpty &&
              scan.tree.size == 0 && scan.tree.id == 1 && scan.tree.name == "r") = true := by
    decide +kernel
  obtain ⟨S, accepted, fits⟩ := Scan.exists_ok_of_toOption_any checked
  simp only [Bool.and_eq_true, beq_iff_eq, List.isEmpty_iff] at fits
  obtain ⟨⟨⟨⟨⟨rootId, rootSize⟩, rootFiles⟩, listed⟩, diffs⟩, numbered⟩ := fits
  obtain ⟨r, diffed, -⟩ := Scan.exists_ok_of_toOption_any diffs
  obtain ⟨ids, scan, after, ran, written⟩ := inventory_diff_scans diffed
  obtain ⟨ids', after', scanned⟩ := Scan.exists_ok_of_toOption_any numbered
  rw [show ((some S).map (·.maxId)).getD 0 = S.maxId from rfl, after'] at after
  cases after
  obtain ⟨scan', ran', treeFacts⟩ := Scan.exists_ok_of_toOption_any scanned
  rw [show (some S).map (·.root) = some S.root from rfl, ran'] at ran
  cases ran
  simp only [Bool.and_eq_true, beq_iff_eq, List.isEmpty_iff] at treeFacts
  obtain ⟨⟨⟨⟨treeDirs, treeFiles⟩, treeSize⟩, treeId⟩, treeName⟩ := treeFacts
  -- The snapshot's root holds the one empty directory `a`.
  obtain ⟨a, rootDirs, aName, aId, aFid, aSize, aItems, aDirs, aFiles⟩ :
      ∃ a, S.root.dirs = [a] ∧ a.name = "a" ∧ a.id = 2 ∧ a.fid = 0 ∧ a.size = 0 ∧ a.items = 0 ∧
        a.dirs = [] ∧ a.files = [] := by
    cases rootDirs : S.root.dirs with
    | nil => simp [rootDirs] at listed
    | cons a rest =>
        rw [rootDirs] at listed
        simp only [List.map_cons, List.cons.injEq, Prod.mk.injEq, List.isEmpty_iff,
          List.map_eq_nil_iff] at listed
        obtain ⟨⟨name, id, fid, size, items, dirs, files⟩, rfl⟩ := listed
        exact ⟨a, rfl, name, id, fid, size, items, dirs, files⟩
  have aUnread : a.Unread := ⟨aDirs, aFiles, aItems⟩
  have oldSorted : ∀ o ∈ some S.root, o.SortedNames ∧ o.SortedFiles := by
    intro o member
    obtain rfl := Option.mem_some_iff.mp member
    have children : ∀ c ∈ S.root.dirs, c = a := by
      intro c child
      rw [rootDirs, List.mem_singleton] at child
      exact child
    exact ⟨DirEntry.sortedNames_of_children (by rw [rootDirs]; exact List.pairwise_singleton _ _)
        fun c child => children c child ▸ aUnread.sortedNames,
      DirEntry.sortedFiles_of_children (by rw [rootFiles]; exact .nil) fun c child => by
        rw [children c child]
        intro e member
        rw [aUnread.allDirs, List.mem_singleton] at member
        rw [member, aFiles]
        exact .nil⟩
  have records := Scan.run_patch_records (memWalker_distinctNames (Scan.distinctDirs_leaf "r" false false))
    (memWalker_distinctFiles (MemNode.distinctFiles_leaf "r" false false)) ran' ⟨rfl, rfl, rfl⟩ rfl oldSorted
  -- The differences: `a` removed, with the live root's id as parent; the roots'
  -- sizes agree.
  have differences : scan.tree.changesFrom (DirEntry.root "r").name (some S.root) =
      [⟨some .removed, .directory 2 "r/a"⟩, ⟨some .removed, .entry 1 0 0 2 0 "a"⟩] := by
    rw [DirEntry.changesFrom, DirEntry.changesInside_eq, treeDirs, treeFiles, rootDirs, rootFiles]
    simp [DirEntry.entryChange, rootSize, treeSize, DirEntry.records_eq, aUnread.recordsInside,
      DirEntry.declaration, DirEntry.entryLine, aName, aId, aFid, aSize, aItems, treeId, treeName,
      DirEntry.root, childPath]
  rw [differences] at records
  refine ⟨S, accepted, rootId, by simp [rootDirs, aName, aId], r, diffed, scan.tree, scan.patch,
    ?_, ?_, ?_⟩
  · rw [written, Scan.run_dump ran' rfl rfl, DirEntry.dumpText]
    rfl
  · exact List.mem_of_mem_filter (records.mem_iff.mpr (by simp))
  · intro line member same
    by_cases named : line.announces
    · obtain ⟨marker, record⟩ := line
      dsimp only at same
      rw [same, Line.announces_entry] at named
      cases named
    · have kept : line ∈ scan.patch.filter (!·.announces) := List.mem_filter.mpr ⟨member, by simpa using named⟩
      rw [records.mem_iff] at kept
      simp only [List.mem_cons, List.not_mem_nil, or_false] at kept
      rcases kept with rfl | rfl <;> cases same

end TreeDump
