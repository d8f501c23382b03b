import Mathlib
import TreeDump.Proofs.Carrying

/-!
A diff against the snapshot of the same walk writes no patch.

Take a scan with no baseline and fresh ids, and a second scan of the same walker
from the same state, against the tree the first one built and with the ids after
its largest. The second scan walks in step with the first. It reads the same
listings and numbers each of them from the first id after the snapshot's largest.
Merging then gives every child the id it has in the snapshot and hands the
numbering back. So the second scan builds the same tree, with the same ids and
fingerprints, writes the same dump and counts the same statistics. It never writes
a patch line, since every size and every name matches. The one place where it can
stop where the first did not is that numbering: a listing of `k` directories needs
ids up to the snapshot's largest plus `k`.

Owns: `LevelView.quiet`, a level of the chain with its naming in the patch
forgotten; `Scan.ScanState.quiet`, the state the second scan is in while the first
is in a given one; `Scan.Quietly`, the second scan's answer to a step of the first.
Main statement (`run_quietly`): the second scan ends in the quiet state of the
first's end with the same tree, or stops when the id counter runs out.
-/

namespace TreeDump

/-- A level of the chain without whether the patch named it. -/
def LevelView.quiet : LevelView Level := ⟨fun level => { level with announced := false }, fun _ => rfl⟩

/-- Two directories that differ at most in the ids of their children. -/
structure DirEntry.Renumbered (d e : DirEntry) : Prop where
  children : d.dirs.map DirEntry.withoutId = e.dirs.map DirEntry.withoutId
  rest : { d with dirs := e.dirs } = e

theorem DirEntry.Renumbered.refl (d : DirEntry) : d.Renumbered d := ⟨rfl, by cases d; rfl⟩

section Renumbered

variable {d e : DirEntry} (renumbered : d.Renumbered e)
include renumbered

theorem DirEntry.Renumbered.files_eq : d.files = e.files := by rw [← renumbered.rest]
theorem DirEntry.Renumbered.items_eq : d.items = e.items := by rw [← renumbered.rest]
theorem DirEntry.Renumbered.size_eq : d.size = e.size := by rw [← renumbered.rest]

end Renumbered

/-! ### Numbering one listing from another supply -/

/-- Numbering the same directories from two id supplies gives them the same fields
but their ids. -/
theorem numberDirs_withoutId :
    ∀ {cs : List DirEntry} {fid : Nat} {ids₁ ids₂ ids₁' ids₂' : IdSupply} {ds₁ ds₂ : List DirEntry},
      numberDirs cs fid ids₁ = .ok (ds₁, ids₁') → numberDirs cs fid ids₂ = .ok (ds₂, ids₂') →
        ds₂.map DirEntry.withoutId = ds₁.map DirEntry.withoutId := by
  intro cs
  induction cs with
  | nil =>
      intro fid ids₁ ids₂ ids₁' ids₂' ds₁ ds₂ numbered₁ numbered₂
      simp only [numberDirs, Except.ok.injEq, Prod.mk.injEq] at numbered₁ numbered₂
      rw [← numbered₁.1, ← numbered₂.1]
  | cons c cs inductionHypothesis =>
      intro fid ids₁ ids₂ ids₁' ids₂' ds₁ ds₂ numbered₁ numbered₂
      -- Each side takes one id for `c`, then numbers the rest; the ids are all that differ.
      have step : ∀ {ids ids' : IdSupply} {ds : List DirEntry},
          numberDirs (c :: cs) fid ids = .ok (ds, ids') →
            ∃ id rest ids'', numberDirs cs (fid + 1) ids'' = .ok (rest, ids') ∧
              ds = { c with fid := fid % idRange, id } :: rest := by
        intro ids ids' ds numbered
        rw [numberDirs] at numbered
        cases taken : ids.take with
        | error e => simp [taken, bind, Except.bind] at numbered
        | ok p =>
            obtain ⟨id, supply⟩ := p
            cases restNumbered : numberDirs cs (fid + 1) supply with
            | error e => simp [taken, restNumbered, bind, Except.bind] at numbered
            | ok q =>
                obtain ⟨rest, supply'⟩ := q
                simp only [taken, restNumbered, bind, Except.bind, pure, Except.pure, Except.ok.injEq,
                  Prod.mk.injEq] at numbered
                obtain ⟨rfl, rfl⟩ := numbered
                exact ⟨id, rest, supply, restNumbered, rfl⟩
      obtain ⟨id₁, rest₁, supply₁, restNumbered₁, rfl⟩ := step numbered₁
      obtain ⟨id₂, rest₂, supply₂, restNumbered₂, rfl⟩ := step numbered₂
      rw [List.map_cons, List.map_cons, inductionHypothesis restNumbered₁ restNumbered₂]
      rfl

/-- Sorting and numbering one listing from two id supplies gives directories that
differ at most in their children's ids. -/
theorem orderChildren_renumbered {d d₁ d₂ : DirEntry} {ids₁ ids₂ ids₁' ids₂' : IdSupply}
    (ordered₁ : d.orderChildren ids₁ = .ok (d₁, ids₁')) (ordered₂ : d.orderChildren ids₂ = .ok (d₂, ids₂')) :
    d₂.Renumbered d₁ := by
  unfold DirEntry.orderChildren at ordered₁ ordered₂
  cases numbered₁ : numberDirs (d.dirs.mergeSort DirEntry.nameLe) 0 ids₁ with
  | error e => simp [numbered₁, bind, Except.bind] at ordered₁
  | ok p₁ =>
      cases numbered₂ : numberDirs (d.dirs.mergeSort DirEntry.nameLe) 0 ids₂ with
      | error e => simp [numbered₂, bind, Except.bind] at ordered₂
      | ok p₂ =>
          obtain ⟨ds₁, supply₁⟩ := p₁
          obtain ⟨ds₂, supply₂⟩ := p₂
          simp only [numbered₁, bind, Except.bind, pure, Except.pure, Except.ok.injEq,
            Prod.mk.injEq] at ordered₁
          simp only [numbered₂, bind, Except.bind, pure, Except.pure, Except.ok.injEq,
            Prod.mk.injEq] at ordered₂
          obtain ⟨rfl, -⟩ := ordered₁
          obtain ⟨rfl, -⟩ := ordered₂
          have children := numberDirs_withoutId numbered₁ numbered₂
          have lengths : ds₂.length = ds₁.length := by simpa using congrArg List.length children
          exact ⟨children, by rw [lengths]⟩

/-- Giving renumbered children the ids of their baseline directories, when those
are the ids they had, gives the children back, each paired with its baseline. -/
theorem DirEntry.restore_ids :
    ∀ {cs' cs bs : List DirEntry}, cs'.map DirEntry.withoutId = cs.map DirEntry.withoutId →
      bs.map (·.id) = cs.map (·.id) →
      List.zipWith (fun c b => ({ c with id := b.id }, some b)) cs' bs = cs.zip (bs.map some) := by
  intro cs'
  induction cs' with
  | nil =>
      intro cs bs same ids
      rw [List.map_nil] at same
      obtain rfl := List.eq_nil_of_map_eq_nil same.symm
      rw [List.map_nil] at ids
      obtain rfl := List.eq_nil_of_map_eq_nil ids
      rfl
  | cons c' cs' inductionHypothesis =>
      intro cs bs same ids
      cases cs with
      | nil => cases same
      | cons c cs =>
          cases bs with
          | nil => cases ids
          | cons b bs =>
              rw [List.map_cons, List.map_cons, List.cons.injEq] at same ids
              rw [List.zipWith_cons_cons, List.map_cons, List.zip_cons_cons,
                inductionHypothesis same.2 ids.2]
              have fields : { c' with id := 0 } = { c with id := 0 } := same.1
              have sameId : b.id = c.id := ids.1
              cases c'
              cases c
              simp only [DirEntry.mk.injEq] at fields
              simp [fields, sameId]

/-! ### Pairing a listing with itself -/

/-- Two lists with the same names, in the same order, pair element by element. -/
theorem pairByName_same_names {α β : Type} {liveName : α → String} {oldName : β → String} :
    ∀ {live : List α} {old : List β}, live.map liveName = old.map oldName →
      pairByName liveName oldName live old = List.zipWith Pairing.both live old := by
  intro live
  induction live with
  | nil =>
      intro old same
      rw [List.map_nil] at same
      rw [List.eq_nil_of_map_eq_nil same.symm, pairByName]
      rfl
  | cons a as inductionHypothesis =>
      intro old same
      cases old with
      | nil => cases same
      | cons b bs =>
          rw [List.map_cons, List.map_cons, List.cons.injEq] at same
          rw [pairByName, if_neg (by rw [same.1]; exact lt_irrefl _), if_pos same.1,
            inductionHypothesis same.2, List.zipWith_cons_cons]

/-- Renumbered directories have the same shape. -/
theorem DirEntry.Renumbered.shape_eq {d e : DirEntry} (renumbered : d.Renumbered e) :
    d.shape = e.shape := by
  have children : d.dirs.map DirEntry.shape = e.dirs.map DirEntry.shape := by
    have shapes := congrArg (List.map DirEntry.shape) renumbered.children
    simpa [List.map_map, Function.comp_def, DirEntry.shape_withoutId] using shapes
  rw [← renumbered.rest]
  exact DirEntry.shape_eq_shape_iff.mpr ⟨rfl, rfl, rfl, rfl, children, rfl⟩

/-- Fingerprinting and sizing two renumbered directories alike keeps them renumbered:
the fingerprint does not read the ids. -/
theorem DirEntry.Renumbered.digested {d e : DirEntry} (renumbered : d.Renumbered e) (size : Nat) :
    ({ d with digest := some d.childDigest, size } : DirEntry).Renumbered
      { e with digest := some e.childDigest, size } := by
  have digest := DirEntry.childDigest_eq_of_shape renumbered.shape_eq
  refine ⟨renumbered.children, ?_⟩
  rw [digest]
  obtain ⟨-, rest⟩ := renumbered
  cases d
  cases e
  simp only [DirEntry.mk.injEq] at rest ⊢
  obtain ⟨rfl, rfl, rfl, rfl, rfl, rfl, -, rfl⟩ := rest
  simp

/-! ### The quiet state -/

/-- The state a scan against the snapshot of a fresh scan is in while the fresh scan
is in `s`: the same walker, statistics, dump and chain, with no level of the chain
named in the patch, no patch line, and the ids from `next` on still to hand out,
`next` being also where the last listing's batch started. -/
def ScanState.quiet {σ : Type} (next : Nat) (s : ScanState σ) : ScanState σ :=
  { s with ids := ⟨next⟩, batchStart := next, chain := s.chain.map LevelView.quiet.view, patch := #[] }

/-- The quiet state of `s` with `ids` still to hand out: where the scan against the
snapshot stands after numbering a listing and before merging it. -/
def ScanState.quietWith {σ : Type} (next : Nat) (ids : IdSupply) (s : ScanState σ) : ScanState σ :=
  { s.quiet next with ids }

/-- Every directory of the tree has few enough children to number them all from
`next` on: none, or fewer than the ids left. -/
def DirEntry.NumbersFrom (next : Nat) (d : DirEntry) : Prop :=
  ∀ x ∈ d.allDirs, x.dirs = [] ∨ next + x.dirs.length < idRange

theorem DirEntry.numbersFrom_iff {next : Nat} {d : DirEntry} :
    d.NumbersFrom next ↔
      (d.dirs = [] ∨ next + d.dirs.length < idRange) ∧ ∀ c ∈ d.dirs, c.NumbersFrom next := by
  unfold DirEntry.NumbersFrom
  rw [DirEntry.allDirs_eq]
  simp only [List.mem_cons, List.mem_flatMap, forall_eq_or_imp]
  constructor
  · rintro ⟨own, below⟩
    exact ⟨own, fun c child x inside => below x ⟨c, child, inside⟩⟩
  · rintro ⟨own, below⟩
    exact ⟨own, fun x ⟨c, child, inside⟩ => below c child x inside⟩

theorem DirEntry.numbersFrom_undigested {next : Nat} (d : DirEntry) :
    d.undigested.NumbersFrom next ↔ d.NumbersFrom next := by
  induction d using DirEntry.induction with
  | step d inductionHypothesis =>
      rw [DirEntry.numbersFrom_iff, DirEntry.numbersFrom_iff, DirEntry.undigested_dirs,
        List.map_eq_nil_iff, List.length_map]
      simp only [List.mem_map, forall_exists_index, and_imp, forall_apply_eq_imp_iff₂]
      exact and_congr_right fun _ => forall₂_congr fun c child => inductionHypothesis c child

theorem DirEntry.Unread.numbersFrom {d : DirEntry} (unread : d.Unread) (next : Nat) :
    d.NumbersFrom next := by
  intro x member
  rw [unread.allDirs, List.mem_singleton] at member
  rw [member]
  exact .inl unread.noDirs

/-- Numbering a listing with ids from `next` on, each followed by another 32-bit
value, leaves room for all its directories. -/
theorem numbered_room {next : Nat} {ds : List DirEntry}
    (childIds : ds.map (·.id) = List.range' next ds.length) (childFits : ∀ c ∈ ds, c.id + 1 < idRange) :
    ds = [] ∨ next + ds.length < idRange := by
  rcases Nat.eq_zero_or_pos ds.length with empty | nonempty
  · exact .inl (List.eq_nil_of_length_eq_zero empty)
  · -- The last directory takes the id `next + length - 1`.
    have last : next + ds.length - 1 ∈ ds.map (·.id) := by
      rw [childIds, List.mem_range'_1]
      omega
    obtain ⟨c, child, same⟩ := List.mem_map.mp last
    have := childFits c child
    omega

section Quiet

variable {σ : Type} (next : Nat) (s : ScanState σ)

@[simp] theorem ScanState.quiet_walker : (s.quiet next).walker = s.walker := rfl
@[simp] theorem ScanState.quiet_ids : (s.quiet next).ids = ⟨next⟩ := rfl
@[simp] theorem ScanState.quiet_batchStart : (s.quiet next).batchStart = next := rfl
@[simp] theorem ScanState.quiet_stats : (s.quiet next).stats = s.stats := rfl
@[simp] theorem ScanState.quiet_dump : (s.quiet next).dump = s.dump := rfl
@[simp] theorem ScanState.quiet_chain :
    (s.quiet next).chain = s.chain.map LevelView.quiet.view := rfl
@[simp] theorem ScanState.quietWith_ids (ids : IdSupply) : (s.quietWith next ids).ids = ids := rfl
@[simp] theorem ScanState.quietWith_stats (ids : IdSupply) : (s.quietWith next ids).stats = s.stats := rfl

end Quiet

namespace Scan

variable {σ α β : Type} {walker : Walker σ}

/-- How the scan against the snapshot answers a step that took the fresh scan to
`(a, s')`: with the same value in the quiet state of `s'`, having found `P` on the
way, or with a stop when the id counter runs out. -/
def Quietly (next : Nat) (P : Prop) (a : α) (s' : ScanState σ) (r : Except ScanError (α × ScanState σ)) :
    Prop :=
  r = .ok (a, s'.quiet next) ∧ P ∨ r = .error (.overflow .nextId)

theorem Quietly.bind {x : ScanM σ α} {k : α → ScanM σ β} {next : Nat} {P Q : Prop} {a : α} {b : β}
    {t s₁ s₂ : ScanState σ} (first : Quietly next P a s₁ (x.run t))
    (rest : P → Quietly next Q b s₂ ((k a).run (s₁.quiet next))) :
    Quietly next Q b s₂ ((x >>= k).run t) := by
  rcases first with ⟨ran, found⟩ | failed
  · rw [run_bind_of_eq_ok ran]
    exact rest found
  · exact .inr (run_bind_of_eq_error failed)

/-- A step of the fresh scan that only writes the patch or names levels of the chain
leaves its quiet state as it was. -/
theorem quiet_of_keeps {x : ScanM σ α} (keeps : Keeps x)
    (shows : ∀ {shown}, Preserves (ChainShows LevelView.quiet shown) x) {s s' : ScanState σ} {a : α}
    (ran : x.run s = .ok (a, s')) (next : Nat) : s'.quiet next = s.quiet next := by
  obtain ⟨walker', -, -, dump', stats'⟩ := keeps s a s' ran
  have chain' : s'.chain.map LevelView.quiet.view = s.chain.map LevelView.quiet.view :=
    shows s a s' ran rfl
  unfold ScanState.quiet
  rw [walker', dump', stats', chain']

/-! ### Reading a directory from the quiet state -/

theorem map_key_quiet (chain : List Level) :
    (chain.map LevelView.quiet.view).map LevelView.key.view = chain.map LevelView.key.view := by
  rw [List.map_map]
  rfl

theorem run_listChildren_quietWith {limits : Limits} {u u' : ScanState σ} {kept : List Item}
    (listed : (listChildren walker limits).run u = .ok (kept, u')) (next : Nat) (ids : IdSupply) :
    (listChildren walker limits).run (u.quietWith next ids) = .ok (kept, u'.quietWith next ids) := by
  rw [run_listChildren, Except.ok.injEq, Prod.mk.injEq] at listed
  obtain ⟨rfl, rfl⟩ := listed
  rw [run_listChildren]
  rfl

/-- Recording a listing with the same fingerprint and child count records the same
key in the quiet chain. -/
theorem run_recordListing_quietWith {d e : DirEntry} (digest : e.digest = d.digest)
    (items : e.items = d.items) (u : ScanState σ) (next : Nat) (ids : IdSupply) :
    (recordListing e).run (u.quietWith next ids) =
      .ok ((), { u with chain := Level.record d u.chain }.quietWith next ids) := by
  rw [run_recordListing]
  obtain ⟨walker, ids', batchStart, stats, patch, dump, chain⟩ := u
  cases chain with
  | nil => rfl
  | cons level up =>
      simp [ScanState.quietWith, ScanState.quiet, Level.record, Level.setTop, LevelView.quiet, digest, items]

/-- Pruning a renumbered directory from the quiet state prunes exactly when the
fresh scan does, and hands the ids back to `next`, the quiet start of the batch. -/
theorem run_pruneIfRepeats_quietWith {limits : Limits} {d d' e : DirEntry} {u u' : ScanState σ}
    (pruned : (pruneIfRepeats limits d).run u = .ok (e, u')) (renumbered : d'.Renumbered d)
    (next : Nat) (ids : IdSupply) :
    ∃ e' ids', (pruneIfRepeats limits d').run (u.quietWith next ids) = .ok (e', u'.quietWith next ids') ∧
      e'.Renumbered e := by
  have sameRepeats : Level.chainRepeats limits.recursionThreshold (u.quietWith next ids).chain =
      Level.chainRepeats limits.recursionThreshold u.chain :=
    chainRepeats_congr _ (map_key_quiet u.chain)
  rw [run_pruneIfRepeats, sameRepeats]
  rcases pruneIfRepeats_cases pruned with ⟨repeats, rfl, rfl⟩ | ⟨fresh, rfl, rfl⟩
  · -- Both empty the directory; it no longer has children to renumber.
    have emptied : ({ d' with dirs := [], files := [], items := 0, size := 0 } : DirEntry) =
        { d with dirs := [], files := [], items := 0, size := 0 } := by
      rw [← renumbered.rest]
    refine ⟨{ d' with dirs := [], files := [], items := 0, size := 0 }, ⟨next⟩, ?_,
      by rw [emptied]; exact .refl _⟩
    rw [if_pos repeats]
    obtain ⟨walker, ids', batchStart, stats, patch, dump, chain⟩ := u
    cases chain <;> rfl
  · rw [if_neg (by simp [fresh])]
    exact ⟨d', ids, rfl, renumbered⟩

/-- Tallying a directory read counts only its files and its size. -/
theorem run_tally_quietWith {e' e r : DirEntry} (files : e'.files = e.files) (size : e'.size = e.size)
    {u u' : ScanState σ}
    (tallied : (do
        let bytes ← checked .tally (addWithin sizeRange (← get).stats.bytes e.size)
        count fun st => { st with directories := st.directories + 1,
                                  files := st.files + e.files.length, bytes }
        pure e : ScanM σ DirEntry).run u = .ok (r, u')) (next : Nat) (ids : IdSupply) :
    r = e ∧ (do
        let bytes ← checked .tally (addWithin sizeRange (← get).stats.bytes e'.size)
        count fun st => { st with directories := st.directories + 1,
                                  files := st.files + e'.files.length, bytes }
        pure e' : ScanM σ DirEntry).run (u.quietWith next ids) = .ok (e', u'.quietWith next ids) := by
  rw [files, size]
  rw [run_get_bind, run_bind_eq_ok] at tallied
  obtain ⟨bytes, u₁, added, tallied⟩ := tallied
  rw [run_checked_eq_ok] at added
  obtain ⟨added, same⟩ := added
  subst u₁
  rw [run_count_bind, run_pure_eq_ok] at tallied
  obtain ⟨rfl, rfl⟩ := tallied
  have added' : addWithin sizeRange (u.quietWith next ids).stats.bytes r.size = .ok bytes := added
  refine ⟨rfl, ?_⟩
  rw [run_get_bind, added', run_checked_ok_bind, run_count_bind]
  rfl

/-- Reading a directory from the quiet state of the fresh scan lists the same items
and numbers them from `next`: the scan against the snapshot ends in the quiet state
of the fresh scan's, with a directory that differs at most in its children's ids,
or stops when the numbering runs out of ids. Both scans leave the directory unread
alike, since an id below `next` has the same place in the order of ids in both. -/
theorem readDir_quiet {limits : Limits} {next : Nat} {d d₁ : DirEntry} {s s₁ : ScanState σ}
    (below : d.id < next) (read : (readDir walker limits 2 d).run s = .ok (d₁, s₁)) :
    (∃ d₁' ids, (readDir walker limits next d).run (s.quiet next) = .ok (d₁', s₁.quietWith next ids) ∧
      d₁'.Renumbered d₁) ∨
    (readDir walker limits next d).run (s.quiet next) = .error (.overflow .nextId) := by
  have sameOrdinal : ordinal next d.id = ordinal 2 d.id := by
    unfold ordinal
    split_ifs <;> omega
  unfold readDir at read ⊢
  rw [run_modify_bind] at read ⊢
  rw [sameOrdinal]
  by_cases past : limits.maxDirs < ordinal 2 d.id
  · -- Past `maxDirs`: neither scan lists the directory.
    rw [if_pos past] at read ⊢
    rw [run_count_bind, run_pure_eq_ok] at read
    obtain ⟨rfl, rfl⟩ := read
    exact .inl ⟨_, ⟨next⟩, rfl, .refl _⟩
  · rw [if_neg past] at read ⊢
    rw [run_bind_eq_ok] at read
    obtain ⟨kept, s₂, listed, read⟩ := read
    have start : ({ s.quiet next with batchStart := (s.quiet next).ids.next } : ScanState σ) =
        ({ s with batchStart := s.ids.next } : ScanState σ).quietWith next ⟨next⟩ := rfl
    rw [start, run_bind_of_eq_ok (run_listChildren_quietWith listed next ⟨next⟩)]
    rw [run_get_bind, run_bind_eq_ok] at read
    obtain ⟨⟨ordered, ids⟩, s₃, orderedRun, read⟩ := read
    rw [run_checked_eq_ok] at orderedRun
    obtain ⟨orderedEq, rfl⟩ := orderedRun
    rw [run_get_bind, ScanState.quietWith_ids]
    cases renumbering : (d.withListing kept).orderChildren ⟨next⟩ with
    | error e =>
        simp only [DirEntry.withListing] at renumbering
        rw [renumbering, run_bind_checked_error]
        exact .inr rfl
    | ok p =>
        obtain ⟨ordered', ids'⟩ := p
        have renumbered := orderChildren_renumbered orderedEq renumbering
        simp only [DirEntry.withListing] at renumbering
        rw [renumbering, run_checked_ok_bind]
        -- The fresh scan sizes the directory, records its listing, prunes and tallies.
        rw [run_modify_bind, run_bind_eq_ok] at read
        obtain ⟨size, s₄, summed, read⟩ := read
        rw [run_checked_eq_ok] at summed
        obtain ⟨summedEq, rfl⟩ := summed
        rw [run_bind_of_eq_ok (run_recordListing _ _), run_bind_eq_ok] at read
        obtain ⟨e, s₅, pruned, tallied⟩ := read
        rw [setTop_eq_match] at pruned
        -- The scan against the snapshot takes the same steps on the renumbered listing.
        have sized := renumbered.digested size
        obtain ⟨e', ids'', prunedQuiet, renumbered'⟩ := run_pruneIfRepeats_quietWith pruned sized next ids'
        obtain ⟨rfl, talliedQuiet⟩ :=
          run_tally_quietWith renumbered'.files_eq renumbered'.size_eq tallied next ids''
        refine .inl ⟨e', ids'', ?_, renumbered'⟩
        rw [run_modify_bind]
        dsimp only
        have summed : sumWithin sizeRange (ordered'.files.map (·.size)) = .ok size := by
          rw [renumbered.files_eq]
          exact summedEq
        rw [summed, run_checked_ok_bind]
        have recorded := run_recordListing_quietWith (d := { ordered with digest := some ordered.childDigest, size })
          (e := { ordered' with digest := some ordered'.childDigest, size })
          (by rw [DirEntry.childDigest_eq_of_shape renumbered.shape_eq]) renumbered.items_eq { s₃ with ids } next ids'
        refine (run_bind_of_eq_ok recorded).trans ?_
        refine (run_bind_of_eq_ok prunedQuiet).trans ?_
        exact talliedQuiet

/-! ### Merging a listing with the directory it was read into -/

/-- Merging directories that are all on both sides keeps them all, with their
baseline ids, and writes nothing. -/
theorem run_mergeDirs_both (path : String) (d : DirEntry) (t : ScanState σ) :
    ∀ {cs bs : List DirEntry}, (mergeDirs path d (List.zipWith Pairing.both cs bs)).run t =
      .ok (List.zipWith (fun c b => ({ c with id := b.id }, some b)) cs bs, t) := by
  intro cs
  induction cs with
  | nil => intro bs; rfl
  | cons c cs inductionHypothesis =>
      intro bs
      cases bs with
      | nil => rfl
      | cons b bs =>
          rw [List.zipWith_cons_cons, List.zipWith_cons_cons, mergeDirs, mergeDir, pure_bind,
            run_bind_of_eq_ok inductionHypothesis]
          rfl

/-- Merging every file with itself writes nothing. -/
theorem run_mergeFiles_self (d : DirEntry) (t : ScanState σ) :
    ∀ fs : List FileEntry, (mergeFiles d (List.zipWith Pairing.both fs fs)).run t = .ok ((), t) := by
  intro fs
  induction fs with
  | nil => rfl
  | cons f fs inductionHypothesis =>
      rw [List.zipWith_cons_cons, mergeFiles, mergeFile, if_neg (not_not.mpr rfl), pure_bind]
      exact inductionHypothesis

/-- Merging a renumbered listing with a baseline directory that has the names, ids
and files the fresh scan gave the listing restores the ids and writes nothing;
handing the numbering back leaves the quiet state. -/
theorem run_merge_quiet {path : String} {o d₁' d₁ : DirEntry} (renumbered : d₁'.Renumbered d₁)
    (names : o.dirs.map (·.name) = d₁.dirs.map (·.name)) (ids : o.dirs.map (·.id) = d₁.dirs.map (·.id))
    (files : o.files = d₁.files) (u : ScanState σ) (next : Nat) (i : IdSupply) :
    (merge path (some o) d₁').run (u.quietWith next i) = .ok ((d₁, o.dirs.map some), u.quiet next) := by
  have liveNames : d₁'.dirs.map (·.name) = o.dirs.map (·.name) := by
    have named := congrArg (List.map (·.name)) renumbered.children
    simp only [List.map_map, Function.comp_def, DirEntry.withoutId] at named
    rw [named, names]
  have liveFiles : d₁'.files = o.files := by rw [renumbered.files_eq, files]
  have lengths : o.dirs.length = d₁.dirs.length := by simpa using congrArg List.length ids
  have kept := DirEntry.restore_ids renumbered.children ids
  rw [merge, run_modify_bind, pairByName_same_names liveNames]
  rw [run_bind_of_eq_ok (run_mergeDirs_both path d₁' _), kept,
    pairByName_same_names (by rw [liveFiles]), ← liveFiles,
    run_bind_of_eq_ok (run_mergeFiles_self _ _ _), StateT.run_pure]
  have firsts : (d₁.dirs.zip (o.dirs.map some)).map (·.1) = d₁.dirs :=
    List.map_fst_zip (by rw [List.length_map, lengths])
  have seconds : (d₁.dirs.zip (o.dirs.map some)).map (·.2) = o.dirs.map some :=
    List.map_snd_zip (by rw [List.length_map, lengths])
  rw [firsts, seconds, renumbered.rest]
  rfl

/-! ### Comparing the children with their own trees -/

/-- An empty baseline of a child never entered removes nothing. -/
theorem run_removeUnentered_empty (path : String) (d c : DirEntry) (t : ScanState σ) {p : Option DirEntry}
    (empty : ∀ b, p = some b → b.dirs = [] ∧ b.files = []) :
    (removeUnentered path d c p).run t = .ok ((), t) := by
  cases p with
  | none => rfl
  | some b =>
      obtain ⟨noDirs, noFiles⟩ := empty b rfl
      simp [removeUnentered, removeContents, noDirs, noFiles]
      rfl

/-- Comparing children with their own trees as baselines, where every child never
entered has an empty tree, writes nothing. -/
theorem run_compareChildren_self (path : String) (d : DirEntry) (t : ScanState σ) :
    ∀ {cs : List DirEntry} {pending : List (Option DirEntry)},
      (∀ p ∈ pending, ∀ b, p = some b → b.dirs = [] ∧ b.files = []) →
      (compareChildren path d cs pending ((cs.map DirEntry.undigested).map some)).run t = .ok ((), t) := by
  intro cs
  induction cs with
  | nil => intro pending _; cases pending <;> rfl
  | cons c cs inductionHypothesis =>
      intro pending empty
      cases pending with
      | nil => rfl
      | cons p ps =>
          rw [List.map_cons, List.map_cons, compareChildren,
            run_bind_of_eq_ok (run_removeUnentered_empty path d c t (empty p List.mem_cons_self))]
          rw [compareChild, if_neg (by simp), pure_bind]
          exact inductionHypothesis fun p' member => empty p' (List.mem_cons_of_mem p member)

/-! ### Moving through the tree in step -/

theorem run_leaveChild_quiet {path : String} {u u' : ScanState σ}
    (left : (leaveChild walker path).run u = .ok ((), u')) (next : Nat) :
    (leaveChild walker path).run (u.quiet next) = .ok ((), u'.quiet next) := by
  unfold leaveChild at left ⊢
  rw [run_get_bind] at left ⊢
  rw [ScanState.quiet_walker]
  cases moved : walker.leave u.walker with
  | error reason =>
      rw [moved] at left
      cases left
  | ok state =>
      rw [moved] at left
      rw [run_set, Except.ok.injEq, Prod.mk.injEq] at left
      obtain ⟨-, rfl⟩ := left
      obtain ⟨walker, ids, batchStart, stats, patch, dump, chain⟩ := u
      cases chain <;> rfl

theorem keeps_merge_none (path : String) (d : DirEntry) :
    Keeps (merge path none d : ScanM σ (DirEntry × List (Option DirEntry))) :=
  (keeps_emitAll _).bind fun _ => (keeps_emitAll _).bind fun _ => Keeps.pure _

/-- Moving through the children in step. Each child the fresh scan enters, the scan
against the snapshot enters with the tree the fresh scan built there as baseline; a
child the walker refuses stays pending in both, with its empty tree as baseline. -/
theorem enterAll_quiet {next : Nat}
    {visitFresh visitOld : String → Option DirEntry → DirEntry → ScanM σ DirEntry}
    (visitQuiet : ∀ path c c' (t t' : ScanState σ), c.Unread → (∀ x ∈ c'.allDirs, x.id < next) →
      (visitFresh path none c).run t = .ok (c', t') →
      Quietly next (c'.NumbersFrom next) c' t' ((visitOld path (some c'.undigested) c).run (t.quiet next)))
    {path parentName : String} :
    ∀ {cs : List DirEntry} {baselines : List (Option DirEntry)}
      {result : List DirEntry × List (Option DirEntry)} {s s' : ScanState σ},
      (enterAll walker visitFresh path parentName cs baselines).run s = .ok (result, s') →
      (∀ c ∈ cs, c.Unread) → (∀ b ∈ baselines, b = none) →
      (∀ x ∈ result.1.flatMap DirEntry.allDirs, x.id < next) →
      ∃ pending, (∀ p ∈ pending, ∀ b, p = some b → b.dirs = [] ∧ b.files = []) ∧
        Quietly next (∀ c' ∈ result.1, c'.NumbersFrom next) (result.1, pending) s'
          ((enterAll walker visitOld path parentName cs ((result.1.map DirEntry.undigested).map some)).run
            (s.quiet next)) := by
  intro cs
  induction cs with
  | nil =>
      intro baselines result s s' h _ _ _
      rw [enterAll, run_pure_eq_ok] at h
      obtain ⟨rfl, rfl⟩ := h
      exact ⟨[], by simp, .inl ⟨rfl, by simp⟩⟩
  | cons c cs inductionHypothesis =>
      intro baselines result s s' h children noBaselines below
      have unread := children c List.mem_cons_self
      have restChildren := fun c' member => children c' (List.mem_cons_of_mem c member)
      have restNoBaselines := fun b member => noBaselines b (List.mem_of_mem_tail member)
      have noBaseline : baselines.head?.join = none := by
        cases baselines with
        | nil => rfl
        | cons b bs => simpa using noBaselines b List.mem_cons_self
      rw [enterAll] at h ⊢
      dsimp only at h ⊢
      rw [noBaseline, run_get_bind] at h
      rw [run_get_bind, ScanState.quiet_walker]
      split at h
      · -- The walker refuses the child in both scans.
        rw [run_count_bind, run_bind_eq_ok] at h
        obtain ⟨⟨rest, pending⟩, s₁, restRun, h⟩ := h
        rw [run_pure_eq_ok] at h
        obtain ⟨rfl, rfl⟩ := h
        have restBelow : ∀ x ∈ rest.flatMap DirEntry.allDirs, x.id < next := fun x member =>
          below x (List.mem_flatMap.mpr (by
            obtain ⟨e, member, inside⟩ := List.mem_flatMap.mp member
            exact ⟨e, List.mem_cons_of_mem c member, inside⟩))
        obtain ⟨pending', empty, restQuiet⟩ :=
          inductionHypothesis restRun restChildren restNoBaselines restBelow
        refine ⟨some c.undigested :: pending', ?_, ?_⟩
        · intro p member b found
          rcases List.mem_cons.mp member with rfl | member
          · cases found
            simp [unread.noDirs, unread.noFiles]
          · exact empty p member b found
        · rw [run_count_bind]
          refine Quietly.bind restQuiet fun restFit => .inl ⟨rfl, ?_⟩
          rintro c' (_ | ⟨_, member⟩)
          · exact unread.numbersFrom next
          · exact restFit c' member
      · -- Both scans enter the child, the scan against the snapshot with the child's tree.
        rw [run_set_bind, run_bind_eq_ok] at h
        obtain ⟨c', s₁, visited, h⟩ := h
        rw [run_bind_eq_ok] at h
        obtain ⟨_, s₂, left, h⟩ := h
        rw [run_bind_eq_ok] at h
        obtain ⟨⟨rest, pending⟩, s₃, restRun, h⟩ := h
        rw [run_pure_eq_ok] at h
        obtain ⟨rfl, rfl⟩ := h
        have childBelow : ∀ x ∈ c'.allDirs, x.id < next := fun x member =>
          below x (List.mem_flatMap.mpr ⟨c', List.mem_cons_self, member⟩)
        have restBelow : ∀ x ∈ rest.flatMap DirEntry.allDirs, x.id < next := fun x member =>
          below x (List.mem_flatMap.mpr (by
            obtain ⟨e, member, inside⟩ := List.mem_flatMap.mp member
            exact ⟨e, List.mem_cons_of_mem c' member, inside⟩))
        obtain ⟨pending', empty, restQuiet⟩ :=
          inductionHypothesis restRun restChildren restNoBaselines restBelow
        have visitedQuiet := visitQuiet _ c c' _ _ unread childBelow visited
        refine ⟨none :: pending', ?_, ?_⟩
        · intro p member b found
          rcases List.mem_cons.mp member with rfl | member
          · cases found
          · exact empty p member b found
        · rw [run_set_bind]
          refine Quietly.bind visitedQuiet fun childFits => ?_
          refine Quietly.bind (P := True) (.inl ⟨run_leaveChild_quiet left next, trivial⟩) fun _ => ?_
          refine Quietly.bind restQuiet fun restFit => .inl ⟨rfl, ?_⟩
          rintro c'' (_ | ⟨_, member⟩)
          · exact childFits
          · exact restFit c'' member

/-- Scanning a directory in step. Where the fresh scan reads an unread directory `d`
into `d'`, every id of `d'` lying below `next`, the scan against the snapshot, with
`d'` as baseline and at least as much depth left, ends in the quiet state of the
fresh scan's end with the same tree, or stops when numbering a listing from `next`
runs out of ids. When it ends, it has numbered the children of every directory of
`d'` from `next` on, so they all had room. -/
theorem visit_quiet {limits : Limits} {next : Nat} (fuel : Nat) :
    ∀ {fuel' : Nat} {path : String} {d d' : DirEntry} {s s' : ScanState σ}, fuel ≤ fuel' → d.Unread →
      (∀ x ∈ d'.allDirs, x.id < next) →
      (visit walker limits 2 fuel path none d).run s = .ok (d', s') →
      Quietly next (d'.NumbersFrom next) d' s'
        ((visit walker limits next fuel' path (some d'.undigested) d).run (s.quiet next)) := by
  induction fuel with
  | zero =>
      intro fuel' path d d' s s' _ _ _ h
      rw [visit, run_throw] at h
      cases h
  | succ fuel inductionHypothesis =>
      intro fuel' path d d' s s' enough unread below h
      obtain ⟨fuel', rfl⟩ : ∃ f, fuel' = f + 1 := ⟨fuel' - 1, by omega⟩
      -- The fresh scan reads, merges without a baseline, enters the children and
      -- compares them; merging and comparing only write the patch.
      rw [visit, run_bind_eq_ok] at h
      obtain ⟨d₁, s₁, read, h⟩ := h
      have numbered := readDir_numbered read ⟨unread.noDirs, unread.noFiles⟩
      rw [run_bind_eq_ok] at h
      obtain ⟨⟨d₂, baselines⟩, s₂, merged, h⟩ := h
      have mergedQuiet := quiet_of_keeps (keeps_merge_none path d₁)
        (chainShows_merge _ path none d₁) merged next
      obtain ⟨same, rfl, -⟩ := merge_none_eq_ok merged
      subst d₂
      rw [run_dumpAll_bind, run_bind_eq_ok] at h
      obtain ⟨⟨dirs, pending⟩, s₃, entered, h⟩ := h
      dsimp only at h
      rw [run_bind_eq_ok] at h
      obtain ⟨size, s₄, summed, h⟩ := h
      rw [run_checked_eq_ok] at summed
      obtain ⟨summedEq, rfl⟩ := summed
      rw [run_bind_eq_ok] at h
      obtain ⟨_, s₅, compared, h⟩ := h
      have comparedQuiet := quiet_of_keeps (keeps_compareChildren _ _ _ _ _)
        (chainShows_compareChildren _ _ _ _ _ _) compared next
      rw [run_dumpAll_bind, run_pure_eq_ok] at h
      obtain ⟨rfl, rfl⟩ := h
      -- The children keep their names and ids, and every id lies below `next`.
      have childrenUnread : ∀ c ∈ d₁.dirs, c.Unread := fun c child =>
        ⟨(numbered.childrenEmpty c child).1, (numbered.childrenEmpty c child).2,
          numbered.childrenUnread c child⟩
      have kept := (enterAll_dump (fun _ _ _ _ _ _ noDirs noFiles visited =>
        visit_dump _ visited noDirs noFiles) entered numbered.childrenEmpty).1
      have names : dirs.map (·.name) = d₁.dirs.map (·.name) := by
        simpa [List.map_map, Function.comp_def] using congrArg (List.map (·.1)) kept
      have ids : dirs.map (·.id) = d₁.dirs.map (·.id) := by
        simpa [List.map_map, Function.comp_def] using congrArg (List.map (·.2.1)) kept
      have dBelow : d.id < next := by
        rw [← numbered.id]
        exact below { d₁ with dirs, size } (DirEntry.mem_allDirs_self _)
      have dirsBelow : ∀ x ∈ dirs.flatMap DirEntry.allDirs, x.id < next := fun x member =>
        below x (by rw [DirEntry.allDirs_eq]; exact List.mem_cons_of_mem _ member)
      -- The scan against the snapshot takes the same steps.
      rw [visit]
      rcases readDir_quiet dBelow read with ⟨d₁', supply, readQuiet, renumbered⟩ | overflow
      · -- The listing was numbered from `next` on, so its directories had room.
        have numberedOld := readDir_numbered readQuiet ⟨unread.noDirs, unread.noFiles⟩
        have lengths : d₁'.dirs.length = dirs.length := by
          have renamed := congrArg List.length renumbered.children
          have keptLength := congrArg List.length kept
          simp only [List.length_map] at renamed keptLength
          rw [renamed, keptLength]
        have room : dirs = [] ∨ next + dirs.length < idRange := by
          rcases numbered_room (by simpa using numberedOld.childIds) numberedOld.childFits with
            empty | room
          · exact .inl (List.eq_nil_of_length_eq_zero (by rw [← lengths, empty]; rfl))
          · exact .inr (by rw [← lengths]; exact room)
        rw [run_bind_of_eq_ok readQuiet]
        rw [run_bind_of_eq_ok (run_merge_quiet renumbered (by simp [Function.comp_def, names])
          (by simp [Function.comp_def, ids]) (by simp) s₁ next supply)]
        dsimp only
        rw [← mergedQuiet, run_dumpAll_bind, DirEntry.undigested_dirs]
        obtain ⟨pending', empty, enteredQuiet⟩ := enterAll_quiet
          (fun _ _ _ _ _ unread' below' visited =>
            @inductionHypothesis fuel' _ _ _ _ _ (by omega) unread' below' visited)
          entered childrenUnread (by simp) dirsBelow
        refine Quietly.bind enteredQuiet fun childrenFit => ?_
        dsimp only
        rw [summedEq, run_checked_ok_bind, run_bind_of_eq_ok (run_compareChildren_self _ _ _ empty),
          ← comparedQuiet, run_dumpAll_bind]
        exact .inl ⟨rfl, DirEntry.numbersFrom_iff.mpr ⟨room, childrenFit⟩⟩
      · exact .inr (run_bind_of_eq_error overflow)

/-- The scan against the snapshot answers the fresh scan's end: with its value, in
the quiet state of its end. -/
theorem Quietly.map_or {γ : Type} {P : Prop} (next : Nat) (a : α) (s' : ScanState σ)
    {r : Except ScanError (α × ScanState σ)} (g : α × ScanState σ → γ) (quietly : Quietly next P a s' r) :
    (r.map g = .ok (g (a, s'.quiet next)) ∧ P) ∨ r.map g = .error (.overflow .nextId) := by
  rcases quietly with ⟨ran, found⟩ | failed
  · exact .inl ⟨by rw [ran]; rfl, found⟩
  · exact .inr (by rw [failed]; rfl)

/-- A scan against the tree of a fresh scan, with every id of that tree below the
first id it hands out, writes no patch and otherwise ends as the fresh scan did:
the same tree, statistics, dump and walker, every directory of which had room for
its children's ids. Or it stops when numbering a listing runs out of ids. -/
theorem run_quietly {limits : Limits} {state : σ} {name : String} {scan : Scan σ} {next : Nat}
    (h : run walker limits state (DirEntry.root name) none IdSupply.fresh = .ok scan)
    (below : ∀ x ∈ scan.tree.allDirs, x.id < next) :
    (run walker limits state (DirEntry.root name) (some scan.tree.undigested) ⟨next⟩ =
        .ok { scan with patch := [] } ∧ scan.tree.NumbersFrom next) ∨
      run walker limits state (DirEntry.root name) (some scan.tree.undigested) ⟨next⟩ =
        .error (.overflow .nextId) := by
  unfold run at h ⊢
  obtain ⟨⟨tree, s'⟩, ran, rfl⟩ := except_map_eq_ok h
  dsimp only at below ⊢
  refine Quietly.map_or next tree s' _ ?_
  -- The fresh scan names the root in the patch, scans it and writes its entry.
  rw [openRoot, if_pos (show (none : Option DirEntry).isNone = true from rfl), run_emit_bind, run_dumpAll_bind, run_bind_eq_ok] at ran
  obtain ⟨tree', s₃, visited, ran⟩ := ran
  rw [closeRoot, run_emit_bind, run_dumpAll_bind, run_pure_eq_ok] at ran
  obtain ⟨rfl, rfl⟩ := ran
  -- The scan against the snapshot does the same without the patch, with more depth.
  have enough : depthBudget none ≤ depthBudget (some tree.undigested) := by
    unfold depthBudget
    simp
  rw [openRoot, if_neg (by simp), pure_bind, run_dumpAll_bind]
  refine Quietly.bind (visit_quiet _ enough ⟨rfl, rfl, rfl⟩ below visited) fun fits => ?_
  rw [closeRoot, if_neg (by simp), pure_bind, run_dumpAll_bind]
  exact .inl ⟨rfl, fits⟩

/-! ### Fresh ids stay below the last 32-bit value -/

/-- Entering unread children without baselines, where scanning one keeps every id
below it clear of the last 32-bit value, keeps every id below each child clear. -/
theorem enterAll_fits
    {visitChild : String → Option DirEntry → DirEntry → ScanM σ DirEntry}
    (visitFits : ∀ path c c' (t t' : ScanState σ), c.dirs = [] → c.files = [] →
      (visitChild path none c).run t = .ok (c', t') →
      ∀ x ∈ c'.dirs.flatMap DirEntry.allDirs, x.id + 1 < idRange)
    {path parentName : String} :
    ∀ {cs : List DirEntry} {baselines : List (Option DirEntry)}
      {result : List DirEntry × List (Option DirEntry)} {s s' : ScanState σ},
      (enterAll walker visitChild path parentName cs baselines).run s = .ok (result, s') →
      (∀ c ∈ cs, c.dirs = [] ∧ c.files = []) → (∀ b ∈ baselines, b = none) →
      ∀ c' ∈ result.1, ∀ x ∈ c'.dirs.flatMap DirEntry.allDirs, x.id + 1 < idRange := by
  intro cs
  induction cs with
  | nil =>
      intro baselines result s s' h _ _
      rw [enterAll, run_pure_eq_ok] at h
      obtain ⟨rfl, rfl⟩ := h
      intro c' member
      cases member
  | cons c cs inductionHypothesis =>
      intro baselines result s s' h empty noBaselines
      have restEmpty := fun c' member => empty c' (List.mem_cons_of_mem c member)
      have restNoBaselines := fun b member => noBaselines b (List.mem_of_mem_tail member)
      have noBaseline : baselines.head?.join = none := by
        cases baselines with
        | nil => rfl
        | cons b bs => simpa using noBaselines b List.mem_cons_self
      rw [enterAll] at h
      dsimp only at h
      rw [noBaseline, run_get_bind] at h
      split at h
      · -- A refused child holds nothing.
        rw [run_count_bind, run_bind_eq_ok] at h
        obtain ⟨⟨rest, pending⟩, s₁, restRun, h⟩ := h
        rw [run_pure_eq_ok] at h
        obtain ⟨rfl, rfl⟩ := h
        intro c' member
        rcases List.mem_cons.mp member with rfl | member
        · rw [(empty c' List.mem_cons_self).1]
          intro x below
          cases below
        · exact inductionHypothesis restRun restEmpty restNoBaselines c' member
      · rw [run_set_bind, run_bind_eq_ok] at h
        obtain ⟨c', s₁, visited, h⟩ := h
        rw [run_bind_eq_ok] at h
        obtain ⟨_, s₂, -, h⟩ := h
        rw [run_bind_eq_ok] at h
        obtain ⟨⟨rest, pending⟩, s₃, restRun, h⟩ := h
        rw [run_pure_eq_ok] at h
        obtain ⟨rfl, rfl⟩ := h
        intro c'' member
        rcases List.mem_cons.mp member with rfl | member
        · exact visitFits _ c _ _ _ (empty c List.mem_cons_self).1 (empty c List.mem_cons_self).2 visited
        · exact inductionHypothesis restRun restEmpty restNoBaselines c'' member

/-- Scanning an unread directory without a baseline hands out only ids whose
successor is still a 32-bit value: numbering refuses the last one. -/
theorem visit_fits {limits : Limits} {firstFresh : Nat} (fuel : Nat) :
    ∀ {path : String} {d d' : DirEntry} {s s' : ScanState σ},
      (visit walker limits firstFresh fuel path none d).run s = .ok (d', s') →
      d.dirs = [] → d.files = [] → ∀ x ∈ d'.dirs.flatMap DirEntry.allDirs, x.id + 1 < idRange := by
  induction fuel with
  | zero =>
      intro path d d' s s' h
      rw [visit, run_throw] at h
      cases h
  | succ fuel inductionHypothesis =>
      intro path d d' s s' h noDirs noFiles
      rw [visit, run_bind_eq_ok] at h
      obtain ⟨d₁, s₁, read, h⟩ := h
      have numbered := readDir_numbered read ⟨noDirs, noFiles⟩
      rw [run_bind_eq_ok] at h
      obtain ⟨⟨d₂, baselines⟩, s₂, merged, h⟩ := h
      obtain ⟨same, rfl, -⟩ := merge_none_eq_ok merged
      subst d₂
      rw [run_dumpAll_bind, run_bind_eq_ok] at h
      obtain ⟨⟨dirs, pending⟩, s₃, entered, h⟩ := h
      dsimp only at h
      rw [run_bind_eq_ok] at h
      obtain ⟨size, s₄, -, h⟩ := h
      rw [run_bind_eq_ok] at h
      obtain ⟨_, s₅, -, h⟩ := h
      rw [run_dumpAll_bind, run_pure_eq_ok] at h
      obtain ⟨rfl, rfl⟩ := h
      -- A child keeps the id its listing gave it; below it, the child's own scan.
      have kept := (enterAll_dump (fun _ _ _ _ _ _ noDirs noFiles visited =>
        visit_dump _ visited noDirs noFiles) entered numbered.childrenEmpty).1
      have below := enterAll_fits (fun _ _ _ _ _ noDirs noFiles visited =>
        inductionHypothesis visited noDirs noFiles) entered numbered.childrenEmpty (by simp)
      intro x member
      obtain ⟨c', child, inside⟩ := List.mem_flatMap.mp member
      rw [DirEntry.allDirs_eq, List.mem_cons] at inside
      rcases inside with rfl | inside
      · have listed : (x.name, x.id, x.fid) ∈ d₁.dirs.map fun c => (c.name, c.id, c.fid) := by
          rw [← kept]
          exact List.mem_map_of_mem child
        obtain ⟨c, member, same⟩ := List.mem_map.mp listed
        simp only [Prod.mk.injEq] at same
        rw [← same.2.1]
        exact numbered.childFits c member
      · exact below c' child x inside

/-- A fresh scan's largest id leaves room for the next one. -/
theorem run_largestId_fits {limits : Limits} {state : σ} {name : String} {scan : Scan σ}
    (h : run walker limits state (DirEntry.root name) none IdSupply.fresh = .ok scan) :
    scan.tree.largestId + 1 < idRange := by
  unfold run at h
  obtain ⟨⟨tree, s'⟩, ran, rfl⟩ := except_map_eq_ok h
  rw [openRoot, if_pos (show (none : Option DirEntry).isNone = true from rfl), run_emit_bind,
    run_dumpAll_bind, run_bind_eq_ok] at ran
  obtain ⟨tree', s₃, visited, ran⟩ := ran
  rw [closeRoot, run_emit_bind, run_dumpAll_bind, run_pure_eq_ok] at ran
  obtain ⟨rfl, rfl⟩ := ran
  have idName := visit_dump _ visited rfl rfl
  have below := visit_fits _ visited rfl rfl
  have bounded : ∀ e ∈ tree.allDirs, e.id ≤ idRange - 2 := by
    intro e member
    rw [DirEntry.allDirs_eq, List.mem_cons] at member
    rcases member with rfl | member
    · rw [idName.2.1]
      exact show rootId ≤ idRange - 2 by decide
    · have := below e member
      omega
  have := DirEntry.largestId_le tree bounded
  have : 2 ≤ idRange := by decide
  dsimp only
  omega

end Scan

/-! ### The self-diff of an in-memory tree -/

theorem DirEntry.id_le_largestId (d : DirEntry) : ∀ {x : DirEntry}, x ∈ d.allDirs → x.id ≤ d.largestId := by
  induction d using DirEntry.induction with
  | step d inductionHypothesis =>
      intro x member
      rw [DirEntry.allDirs_eq, List.mem_cons] at member
      rw [DirEntry.largestId_eq]
      rcases member with rfl | below
      · exact le_max_left _ _
      · obtain ⟨c, child, inside⟩ := List.mem_flatMap.mp below
        have inChild := inductionHypothesis c child inside
        have atMost := DirEntry.le_foldr_max (List.mem_map_of_mem (f := DirEntry.largestId) child)
        rw [DirEntry.largestBelow]
        omega


/-- The reverse inventory reports the dump, statistics and walker of a fresh scan. -/
theorem inventory_reverse_report {σ : Type} {walker : Walker σ} {limits : Limits} {state : σ}
    {name : String} {r : Report σ}
    (h : inventory walker limits state .reverse (DirEntry.root name) none = .ok r) :
    ∃ scan, Scan.run walker limits state (DirEntry.root name) none IdSupply.fresh = .ok scan ∧
      r = ⟨Wire.text scan.dump, scan.stats, scan.walker⟩ := by
  unfold inventory at h
  cases ran : Scan.run walker limits state (DirEntry.root name) none IdSupply.fresh with
  | error e =>
      rw [ran] at h
      cases h
  | ok scan =>
      rw [ran] at h
      cases h
      exact ⟨scan, rfl, rfl⟩

theorem inventory_diff_of_run_error {σ : Type} {walker : Walker σ} {limits : Limits} {state : σ}
    {root : DirEntry} {S : Snapshot} {ids : IdSupply} {e : ScanError}
    (after : IdSupply.after S.maxId = .ok ids)
    (failed : Scan.run walker limits state root (some S.root) ids = .error e) :
    inventory walker limits state .diff root (some S) = .error e := by
  unfold inventory
  simp only [Option.map_some, Option.getD_some, after, failed, bind, Except.bind, pure, Except.pure]

/-- A diff against the snapshot of the same walk is quiet. Take an in-memory tree
with no line break in its names, a reverse inventory of it and the snapshot the
reader makes of that dump. The diff of the same tree, with the same limits,
against that snapshot writes the header, no patch line and the dump again, byte
for byte, and counts what the reverse inventory counted, with no patch line; every
directory of the snapshot then had room for its children's ids after the
snapshot's largest. Or the diff stops when numbering a listing from the first id
after the snapshot's largest runs out of ids. -/
theorem self_diff_quiet {limits : Limits} {w : MemWalk} {name : String} {r : Report MemWalk}
    {S : Snapshot} (plain : w.root.PlainBelow) (nameNoBreak : '\n' ∉ name.toList)
    (reversed : inventory memWalker limits w .reverse (DirEntry.root name) none = .ok r)
    (accepted : Snapshot.read r.output.toUTF8.toList = .ok S) :
    (inventory memWalker limits w .diff (DirEntry.root name) (some S) =
        .ok ⟨"* " ++ (Md5.digest r.output.toUTF8.toList).toHex ++ "\n" ++ r.output,
          { r.stats with patch := some {} }, r.walker⟩ ∧
      S.root.NumbersFrom (max S.maxId rootId + 1)) ∨
      inventory memWalker limits w .diff (DirEntry.root name) (some S) = .error (.overflow .nextId) := by
  obtain ⟨scan, ran, rfl⟩ := inventory_reverse_report reversed
  have replayable := run_fresh_replayable memWalker_plainNames ran nameNoBreak plain
  have dumped : Wire.text scan.dump = scan.tree.dumpText := by
    rw [Scan.run_dump ran rfl rfl]
    rfl
  -- The reader gives back the tree, its largest id and the fingerprint of the dump.
  have readBack : S = ⟨scan.tree.undigested, scan.tree.largestId,
      Md5.digest (Wire.text scan.dump).toUTF8.toList⟩ := by
    dsimp only at accepted
    rw [dumped] at accepted ⊢
    by_cases room : 1 + scan.tree.breadth < IdTable.limit
    · rw [Snapshot.read_dumpText replayable room, Except.ok.injEq] at accepted
      exact accepted.symm
    · obtain ⟨err, fails⟩ := Snapshot.read_dumpText_error replayable (by omega)
      rw [fails] at accepted
      cases accepted
  have root : S.root = scan.tree.undigested := by rw [readBack]
  have maxId : S.maxId = scan.tree.largestId := by rw [readBack]
  have digest : S.digest = Md5.digest (Wire.text scan.dump).toUTF8.toList := by rw [readBack]
  -- The ids after the largest one start past every id of the tree.
  have fits := Scan.run_largestId_fits ran
  have after : IdSupply.after S.maxId = .ok ⟨max scan.tree.largestId rootId + 1⟩ := by
    have room : max scan.tree.largestId rootId + 1 < idRange := by
      have : rootId + 1 < idRange := by decide
      omega
    rw [readBack]
    simp [IdSupply.after, addWithin, room, Except.map]
  have below : ∀ x ∈ scan.tree.allDirs, x.id < max scan.tree.largestId rootId + 1 := fun x member => by
    have := DirEntry.id_le_largestId scan.tree member
    omega
  rcases Scan.run_quietly ran below with ⟨quiet, room⟩ | overflow
  · left
    rw [← root] at quiet
    refine ⟨?_, by rw [root, maxId, DirEntry.numbersFrom_undigested]; exact room⟩
    rw [inventory_diff_of_run after quiet, digest, show Wire.text [] = "" from rfl, String.append_empty]
    rfl
  · right
    rw [← root] at overflow
    exact inventory_diff_of_run_error after overflow

/-- The self-diff of `pairTree`, a root over one empty directory. -/
theorem pair_self_diff_quiet :
    ∃ r S, pairTree.PlainBelow ∧ '\n' ∉ "r".toList ∧
      inventory memWalker {} { root := pairTree } .reverse (DirEntry.root "r") none = .ok r ∧
      Snapshot.read r.output.toUTF8.toList = .ok S ∧
      ((inventory memWalker {} { root := pairTree } .diff (DirEntry.root "r") (some S) =
          .ok ⟨"* " ++ (Md5.digest r.output.toUTF8.toList).toHex ++ "\n" ++ r.output,
            { r.stats with patch := some {} }, r.walker⟩ ∧
        S.root.NumbersFrom (max S.maxId rootId + 1)) ∨
        inventory memWalker {} { root := pairTree } .diff (DirEntry.root "r") (some S) =
          .error (.overflow .nextId)) := by
  have checked : (inventory memWalker {} { root := pairTree } .reverse (DirEntry.root "r") none).toOption.any
      (fun r => (Snapshot.read r.output.toUTF8.toList).toOption.any fun _ => true) = true := by
    decide +kernel
  obtain ⟨r, reversed, readable⟩ := Scan.exists_ok_of_toOption_any checked
  obtain ⟨S, accepted, -⟩ := Scan.exists_ok_of_toOption_any readable
  have nameNoBreak : '\n' ∉ "r".toList := by decide
  exact ⟨r, S, pairTree_plainBelow, nameNoBreak, reversed, accepted,
    self_diff_quiet pairTree_plainBelow nameNoBreak reversed accepted⟩

end TreeDump
