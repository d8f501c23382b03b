import Mathlib
import TreeDump.Scan.Run

/-!
Single steps of a scan.

Owns: how a successful run of a composite step splits into runs of its parts
(`run_bind_eq_ok`, `run_bind_of_eq_ok`); the exact effect of each primitive step
(`takeId`, `emit`, `emitAll`, `count`, `announce`, `checked`) and of the steps of
reading a directory (`listChildren`, `recordListing`, `pruneIfRepeats`); the two
sides of a pairing by name (`Pairing.live?`, `Pairing.old?`); and, for the steps
that only write the patch, that they keep the walker, the id supply and the start
of the batch (`Keeps`, closed under `pure`, `bind` and `if`).

Does not own: the invariants of whole directories, which `ScanTree` proves from
these.
-/

namespace TreeDump

open Wire

/-! ### Pairings by name -/

namespace Pairing

variable {α β : Type}

/-- The live side of a pairing, if it has one. -/
def live? : Pairing α β → Option α
  | .both a _ => some a
  | .live a => some a
  | .old _ => none

/-- The previous side of a pairing, if it has one. -/
def old? : Pairing α β → Option β
  | .both _ b => some b
  | .live _ => none
  | .old b => some b

/-- The previous side of a pairing of both sides. -/
def matched? : Pairing α β → Option β
  | .both _ b => some b
  | _ => none

@[simp] theorem live?_old (b : β) : (old b : Pairing α β).live? = none := rfl

@[simp] theorem matched?_live (a : α) : (live a : Pairing α β).matched? = none := rfl

@[simp] theorem matched?_old (b : β) : (old b : Pairing α β).matched? = none := rfl

end Pairing

section Pairing

variable {α β : Type} (liveName : α → String) (oldName : β → String)

/-- A pairing keeps the live listing whole and in order. -/
theorem filterMap_live?_pairByName (live : List α) (old : List β) :
    (pairByName liveName oldName live old).filterMap Pairing.live? = live := by
  fun_induction pairByName liveName oldName live old <;>
    simp [List.filterMap_cons, Pairing.live?, *]

/-- A pairing keeps the previous listing whole and in order. -/
theorem filterMap_old?_pairByName (live : List α) (old : List β) :
    (pairByName liveName oldName live old).filterMap Pairing.old? = old := by
  fun_induction pairByName liveName oldName live old <;>
    simp [List.filterMap_cons, Pairing.old?, *]

/-- The previous entries that a pairing matches come from the previous listing, in
order. -/
theorem filterMap_matched?_sublist (live : List α) (old : List β) :
    ((pairByName liveName oldName live old).filterMap Pairing.matched?).Sublist old := by
  have sub : ∀ pairs : List (Pairing α β),
      (pairs.filterMap Pairing.matched?).Sublist (pairs.filterMap Pairing.old?) := by
    intro pairs
    induction pairs with
    | nil => exact List.Sublist.slnil
    | cons pair pairs inductionHypothesis =>
        cases pair with
        | both a b => exact inductionHypothesis.cons_cons b
        | live a => exact inductionHypothesis
        | old b => exact inductionHypothesis.cons b
  simpa [filterMap_old?_pairByName] using sub (pairByName liveName oldName live old)

end Pairing

namespace Scan

variable {σ α β : Type}

/-! ### Runs of composite steps -/

theorem run_bind_eq_ok {x : ScanM σ α} {f : α → ScanM σ β} {s s' : ScanState σ} {r : β} :
    (x >>= f).run s = .ok (r, s') ↔ ∃ a s₁, x.run s = .ok (a, s₁) ∧ (f a).run s₁ = .ok (r, s') := by
  rw [StateT.run_bind]
  cases h : x.run s with
  | error e => simp [bind, Except.bind]
  | ok p =>
      obtain ⟨a, s₁⟩ := p
      simp [bind, Except.bind]

/-- A step whose run is known passes its result and state on. -/
theorem run_bind_of_eq_ok {x : ScanM σ α} {f : α → ScanM σ β} {s s₁ : ScanState σ} {a : α}
    (first : x.run s = .ok (a, s₁)) : (x >>= f).run s = (f a).run s₁ := by
  rw [StateT.run_bind, first]
  rfl

theorem run_pure_eq_ok {a r : α} {s s' : ScanState σ} :
    (pure a : ScanM σ α).run s = .ok (r, s') ↔ r = a ∧ s' = s := by
  rw [StateT.run_pure]
  constructor
  · intro h
    cases h
    exact ⟨rfl, rfl⟩
  · rintro ⟨rfl, rfl⟩
    rfl

theorem run_modify (f : ScanState σ → ScanState σ) (s : ScanState σ) :
    (modify f : ScanM σ PUnit).run s = .ok (⟨⟩, f s) := rfl

theorem run_get (s : ScanState σ) : (get : ScanM σ (ScanState σ)).run s = .ok (s, s) := rfl

theorem run_set (s s' : ScanState σ) : (set s' : ScanM σ PUnit).run s = .ok (⟨⟩, s') := rfl

theorem run_throw (e : ScanError) (s : ScanState σ) :
    (throw e : ScanM σ α).run s = .error e := rfl

theorem run_bind_throw (e : ScanError) (f : α → ScanM σ β) (s : ScanState σ) :
    (throw e >>= f : ScanM σ β).run s = .error e := rfl

theorem run_modify_bind (f : ScanState σ → ScanState σ) (k : PUnit → ScanM σ β)
    (s : ScanState σ) : (modify f >>= k).run s = (k ⟨⟩).run (f s) := rfl

theorem run_get_bind (k : ScanState σ → ScanM σ β) (s : ScanState σ) :
    (get >>= k).run s = (k s).run s := rfl

theorem run_set_bind (s' : ScanState σ) (k : PUnit → ScanM σ β) (s : ScanState σ) :
    (set s' >>= k).run s = (k ⟨⟩).run s' := rfl

/-! ### Primitive steps -/

theorem run_emit (line : Line) (s : ScanState σ) :
    (emit line : ScanM σ Unit).run s = .ok ((), { s with patch := s.patch.push line }) := rfl

theorem run_emitAll (lines : List Line) (s : ScanState σ) :
    (emitAll lines : ScanM σ Unit).run s =
      .ok ((), { s with patch := lines.foldl Array.push s.patch }) := rfl

theorem run_dumpAll (lines : List Line) (s : ScanState σ) :
    (dumpAll lines : ScanM σ Unit).run s =
      .ok ((), { s with dump := lines.foldl Array.push s.dump }) := rfl

theorem run_dumpAll_bind (lines : List Line) (k : Unit → ScanM σ β) (s : ScanState σ) :
    (dumpAll lines >>= k).run s = (k ()).run { s with dump := lines.foldl Array.push s.dump } :=
  rfl

/-- Writing the dump adds the lines to it and changes nothing else. -/
theorem dumpAll_eq_ok {lines : List Line} {s s' : ScanState σ} {r : Unit}
    (h : (dumpAll lines : ScanM σ Unit).run s = .ok (r, s')) :
    s'.walker = s.walker ∧ s'.ids = s.ids ∧ s'.batchStart = s.batchStart ∧
      s'.dump.toList = s.dump.toList ++ lines := by
  rw [run_dumpAll, Except.ok.injEq, Prod.mk.injEq] at h
  obtain ⟨-, rfl⟩ := h
  simp

theorem run_count (f : WalkStats → WalkStats) (s : ScanState σ) :
    (count f : ScanM σ Unit).run s = .ok ((), { s with stats := f s.stats }) := rfl

theorem run_count_bind (f : WalkStats → WalkStats) (k : Unit → ScanM σ β) (s : ScanState σ) :
    (count f >>= k).run s = (k ()).run { s with stats := f s.stats } := rfl

theorem run_emit_bind (line : Line) (k : Unit → ScanM σ β) (s : ScanState σ) :
    (emit line >>= k).run s = (k ()).run { s with patch := s.patch.push line } := rfl

theorem run_emitAll_bind (lines : List Line) (k : Unit → ScanM σ β) (s : ScanState σ) :
    (emitAll lines >>= k).run s = (k ()).run { s with patch := lines.foldl Array.push s.patch } :=
  rfl

theorem run_checked_ok_bind (counter : Counter) (a : α) (k : α → ScanM σ β) (s : ScanState σ) :
    (checked counter (.ok a) >>= k).run s = (k a).run s := rfl

theorem run_checked_eq_ok {counter : Counter} {x : Except Overflow α} {s s' : ScanState σ} {r : α} :
    (checked counter x : ScanM σ α).run s = .ok (r, s') ↔ x = .ok r ∧ s' = s := by
  cases x with
  | error e =>
      simp only [checked, run_throw, reduceCtorEq, false_and]
  | ok a =>
      simp only [checked]
      rw [run_pure_eq_ok]
      simp [eq_comm]

theorem run_checked_ok (counter : Counter) (a : α) (s : ScanState σ) :
    (checked counter (.ok a) : ScanM σ α).run s = .ok (a, s) := rfl

theorem run_bind_checked_error (counter : Counter) (e : Overflow) (f : α → ScanM σ β)
    (s : ScanState σ) :
    (checked counter (.error e) >>= f : ScanM σ β).run s = .error (.overflow counter) := rfl

/-- Taking an id hands out the supply's next id, which lies below the last 32-bit
value, and moves the supply on by one. -/
theorem run_takeId (s : ScanState σ) :
    (takeId : ScanM σ Nat).run s =
      if s.ids.next + 1 < idRange then .ok (s.ids.next, { s with ids := ⟨s.ids.next + 1⟩ })
      else .error (.overflow .nextId) := by
  by_cases room : s.ids.next + 1 < idRange
  · simp [takeId, checked, IdSupply.take, addWithin, room, Except.map]
    rfl
  · simp [takeId, checked, IdSupply.take, addWithin, room, Except.map]
    rfl

theorem run_takeId_eq_ok {s s' : ScanState σ} {id : Nat}
    (taken : (takeId : ScanM σ Nat).run s = .ok (id, s')) :
    s.ids.next + 1 < idRange ∧ id = s.ids.next ∧ s' = { s with ids := ⟨s.ids.next + 1⟩ } := by
  rw [run_takeId] at taken
  by_cases room : s.ids.next + 1 < idRange
  · rw [if_pos room, Except.ok.injEq, Prod.mk.injEq] at taken
    exact ⟨room, taken.1.symm, taken.2.symm⟩
  · rw [if_neg room] at taken
    cases taken

/-- Naming the chain's levels below the nearest named one: they are written top
down as `* 0` lines and marked named. -/
theorem run_announce (s : ScanState σ) :
    (announce : ScanM σ Unit).run s =
      .ok ((), { s with
        chain := (s.chain.takeWhile (!·.announced)).map (fun level => { level with announced := true }) ++
          s.chain.drop (s.chain.takeWhile (!·.announced)).length,
        patch := ((s.chain.takeWhile (!·.announced)).reverse.map fun level =>
          (⟨some .changed, .directory level.id level.path⟩ : Line)).foldl Array.push s.patch }) := rfl

/-! ### Steps of reading a directory -/

theorem run_listChildren (walker : Walker σ) (limits : Limits) (s : ScanState σ) :
    (listChildren walker limits).run s =
      .ok ((walker.list s.walker (limits.maxItems + 1)).2.take limits.maxItems,
        { s with walker := (walker.list s.walker (limits.maxItems + 1)).1,
                 stats := if limits.maxItems < (walker.list s.walker (limits.maxItems + 1)).2.length
                   then { s.stats with truncated := s.stats.truncated + 1 } else s.stats }) := by
  by_cases long : limits.maxItems < (walker.list s.walker (limits.maxItems + 1)).2.length
  · simp only [long, if_true]
    simp [listChildren, long]
    rfl
  · simp only [long, if_false]
    simp [listChildren, long]
    rfl

theorem run_recordListing (d : DirEntry) (s : ScanState σ) :
    (recordListing d : ScanM σ Unit).run s =
      .ok ((), { s with chain := match s.chain with
        | level :: up => { level with digest := d.digest, items := d.items } :: up
        | [] => [] }) := rfl

theorem run_pruneIfRepeats (limits : Limits) (d : DirEntry) (s : ScanState σ) :
    (pruneIfRepeats limits d : ScanM σ DirEntry).run s =
      if Level.chainRepeats limits.recursionThreshold s.chain then
        .ok ({ d with dirs := [], files := [], items := 0, size := 0 },
          { s with ids := ⟨s.batchStart⟩,
                   chain := match s.chain with
                     | level :: up => { level with items := 0 } :: up
                     | [] => [],
                   stats := { s.stats with pruned := s.stats.pruned + 1 } })
      else .ok (d, s) := by
  by_cases repeats : Level.chainRepeats limits.recursionThreshold s.chain
  · simp only [repeats, if_true]
    simp [pruneIfRepeats, repeats]
    rfl
  · simp only [repeats]
    simp [pruneIfRepeats, repeats]
    rfl

/-- Pruning either empties the directory and hands its children's ids back, or
keeps it as it is; the walker and the start of the batch stay. -/
theorem pruneIfRepeats_eq_ok {limits : Limits} {d d' : DirEntry} {s s' : ScanState σ}
    (h : (pruneIfRepeats limits d : ScanM σ DirEntry).run s = .ok (d', s')) :
    s'.walker = s.walker ∧ s'.batchStart = s.batchStart ∧
      (d' = { d with dirs := [], files := [], items := 0, size := 0 } ∧ s'.ids = ⟨s.batchStart⟩ ∨
        d' = d ∧ s'.ids = s.ids) := by
  rw [run_pruneIfRepeats] at h
  split at h
  · rw [Except.ok.injEq, Prod.mk.injEq] at h
    obtain ⟨rfl, rfl⟩ := h
    exact ⟨rfl, rfl, .inl ⟨rfl, rfl⟩⟩
  · rw [Except.ok.injEq, Prod.mk.injEq] at h
    obtain ⟨rfl, rfl⟩ := h
    exact ⟨rfl, rfl, .inr ⟨rfl, rfl⟩⟩

end Scan

/-- A directory with the kept part of a listing added to its children. -/
def DirEntry.withListing (d : DirEntry) (kept : List Item) : DirEntry :=
  { d with dirs := d.dirs ++ kept.filterMap Scan.Item.dirEntry?,
           files := d.files ++ kept.filterMap Scan.Item.fileEntry? }

/-- The chain with its nearest level changed by `f`. -/
def Level.setTop (f : Level → Level) : List Level → List Level
  | level :: up => f level :: up
  | [] => []

/-- The chain with the listing of `d`, its nearest directory, recorded. -/
def Level.record (d : DirEntry) (chain : List Level) : List Level :=
  Level.setTop (fun level => { level with digest := d.digest, items := d.items }) chain

/-- The part of a listing that reading a directory keeps. -/
def Walker.kept {σ : Type} (walker : Walker σ) (limits : Limits) (state : σ) : List Item :=
  (walker.list state (limits.maxItems + 1)).2.take limits.maxItems

namespace Scan

variable {σ α β : Type} {walker : Walker σ}

theorem setTop_eq_match (f : Level → Level) (chain : List Level) :
    (match chain with
      | level :: up => f level :: up
      | [] => []) = Level.setTop f chain := by
  cases chain <;> rfl

/-- Pruning empties the directory and hands its children's ids back exactly when
the chain repeats, and otherwise changes nothing. -/
theorem pruneIfRepeats_cases {limits : Limits} {d d' : DirEntry} {s s' : ScanState σ}
    (h : (pruneIfRepeats limits d : ScanM σ DirEntry).run s = .ok (d', s')) :
    Level.chainRepeats limits.recursionThreshold s.chain = true ∧
        d' = { d with dirs := [], files := [], items := 0, size := 0 } ∧
        s' = { s with ids := ⟨s.batchStart⟩,
                      chain := Level.setTop (fun level => { level with items := 0 }) s.chain,
                      stats := { s.stats with pruned := s.stats.pruned + 1 } } ∨
      Level.chainRepeats limits.recursionThreshold s.chain = false ∧ d' = d ∧ s' = s := by
  rw [run_pruneIfRepeats] at h
  cases repeats : Level.chainRepeats limits.recursionThreshold s.chain with
  | true =>
      rw [if_pos repeats, Except.ok.injEq, Prod.mk.injEq] at h
      obtain ⟨rfl, rfl⟩ := h
      exact .inl ⟨rfl, rfl, by rw [setTop_eq_match]⟩
  | false =>
      rw [if_neg (by simp [repeats]), Except.ok.injEq, Prod.mk.injEq] at h
      obtain ⟨rfl, rfl⟩ := h
      exact .inr ⟨rfl, rfl, rfl⟩

/-- What reading a directory does. It starts a new batch at the supply and writes
neither the patch nor the dump. Past `maxDirs` it leaves the directory, the walker,
the supply and the chain alone. Otherwise it lists the directory, reading one entry
more than it keeps, sorts and numbers the kept children from the supply, records
the listing in the chain, and either keeps the children with the files' total as
the size or, when the chain then repeats, empties the directory and hands the
children's ids back. Either way it counts one directory read. -/
theorem readDir_eq_ok {limits : Limits} {firstFresh : Nat} {d d₁ : DirEntry}
    {s s₁ : ScanState σ} (h : (readDir walker limits firstFresh d).run s = .ok (d₁, s₁)) :
    s₁.batchStart = s.ids.next ∧ s₁.patch = s.patch ∧ s₁.dump = s.dump ∧
    ((limits.maxDirs < ordinal firstFresh d.id ∧ d₁ = d ∧ s₁.walker = s.walker ∧
        s₁.ids = s.ids ∧ s₁.chain = s.chain ∧ s₁.stats.directories = s.stats.directories) ∨
      (ordinal firstFresh d.id ≤ limits.maxDirs ∧ s₁.walker = (walker.list s.walker (limits.maxItems + 1)).1 ∧
        s₁.stats.directories = s.stats.directories + 1 ∧
        ∃ ordered ids size,
          (d.withListing (walker.kept limits s.walker)).orderChildren s.ids = .ok (ordered, ids) ∧
          sumWithin sizeRange (ordered.files.map (·.size)) = .ok size ∧
          (Level.chainRepeats limits.recursionThreshold
                (Level.record { ordered with digest := some ordered.childDigest } s.chain) = false ∧
              d₁ = { ordered with digest := some ordered.childDigest, size } ∧ s₁.ids = ids ∧
              s₁.chain = Level.record { ordered with digest := some ordered.childDigest } s.chain ∨
            Level.chainRepeats limits.recursionThreshold
                (Level.record { ordered with digest := some ordered.childDigest } s.chain) = true ∧
              d₁ = { ordered with digest := some ordered.childDigest, dirs := [], files := [],
                                  items := 0, size := 0 } ∧
              s₁.ids = ⟨s.ids.next⟩ ∧
              s₁.chain = Level.setTop (fun level => { level with items := 0 })
                (Level.record { ordered with digest := some ordered.childDigest } s.chain)))) := by
  unfold readDir at h
  rw [run_modify_bind] at h
  split at h
  · -- Past `maxDirs`: nothing is listed.
    rename_i past
    rw [run_count_bind, run_pure_eq_ok] at h
    obtain ⟨rfl, rfl⟩ := h
    exact ⟨rfl, rfl, rfl, .inl ⟨past, rfl, rfl, rfl, rfl, rfl⟩⟩
  · rename_i within
    rw [run_bind_eq_ok] at h
    obtain ⟨kept, s₂, listed, h⟩ := h
    rw [run_listChildren, Except.ok.injEq, Prod.mk.injEq] at listed
    obtain ⟨rfl, rfl⟩ := listed
    rw [run_get_bind, run_bind_eq_ok] at h
    obtain ⟨⟨ordered, ids⟩, s₃, orderedRun, h⟩ := h
    rw [run_checked_eq_ok] at orderedRun
    obtain ⟨orderedEq, rfl⟩ := orderedRun
    dsimp only at h
    rw [run_modify_bind, run_bind_eq_ok] at h
    obtain ⟨size, s₄, summed, h⟩ := h
    rw [run_checked_eq_ok] at summed
    obtain ⟨summedEq, rfl⟩ := summed
    rw [run_bind_of_eq_ok (run_recordListing _ _), run_bind_eq_ok] at h
    obtain ⟨d₃, s₅, pruned, h⟩ := h
    rw [run_get_bind, run_bind_eq_ok] at h
    obtain ⟨bytes, s₆, added, h⟩ := h
    rw [run_checked_eq_ok] at added
    obtain ⟨-, rfl⟩ := added
    rw [run_count_bind, run_pure_eq_ok] at h
    obtain ⟨rfl, rfl⟩ := h
    -- Listing counts a truncation, which leaves the count of directories read alone.
    have counted : ∀ st : WalkStats, ∀ c : Prop, [Decidable c] →
        (if c then { st with truncated := st.truncated + 1 } else st).directories = st.directories :=
      fun st c _ => by split <;> rfl
    rcases pruneIfRepeats_cases pruned with ⟨repeats, rfl, rfl⟩ | ⟨fresh, rfl, rfl⟩
    · -- The chain repeats: the directory is emptied.
      rw [setTop_eq_match] at repeats
      exact ⟨rfl, rfl, rfl, .inr ⟨Nat.le_of_not_lt within, rfl, by simp only [counted],
        ordered, ids, size, orderedEq, summedEq, .inr ⟨repeats, rfl, rfl, by rw [setTop_eq_match]; rfl⟩⟩⟩
    · rw [setTop_eq_match] at fresh
      exact ⟨rfl, rfl, rfl, .inr ⟨Nat.le_of_not_lt within, rfl, by simp only [counted],
        ordered, ids, size, orderedEq, summedEq, .inl ⟨fresh, rfl, rfl, by rw [setTop_eq_match]; rfl⟩⟩⟩

/-! ### Steps that only write the patch -/

/-- A step that leaves the walker, the id supply, the start of the batch, the dump
and the statistics alone: it writes only the patch or the chain. -/
def Keeps (x : ScanM σ α) : Prop :=
  ∀ s a s', x.run s = .ok (a, s') →
    s'.walker = s.walker ∧ s'.ids = s.ids ∧ s'.batchStart = s.batchStart ∧ s'.dump = s.dump ∧
      s'.stats = s.stats

theorem Keeps.pure (a : α) : Keeps (Pure.pure a : ScanM σ α) := by
  intro s r s' h
  rw [run_pure_eq_ok] at h
  rw [h.2]
  exact ⟨rfl, rfl, rfl, rfl, rfl⟩

theorem Keeps.bind {x : ScanM σ α} {k : α → ScanM σ β} (first : Keeps x)
    (rest : ∀ a, Keeps (k a)) : Keeps (x >>= k) := by
  intro s r s' h
  obtain ⟨a, s₁, ran, continued⟩ := run_bind_eq_ok.mp h
  obtain ⟨walker₁, ids₁, start₁, dump₁, stats₁⟩ := first s a s₁ ran
  obtain ⟨walker₂, ids₂, start₂, dump₂, stats₂⟩ := rest a s₁ r s' continued
  exact ⟨walker₂.trans walker₁, ids₂.trans ids₁, start₂.trans start₁, dump₂.trans dump₁,
    stats₂.trans stats₁⟩

theorem Keeps.ite {c : Prop} [Decidable c] {x y : ScanM σ α} (yes : Keeps x) (no : Keeps y) :
    Keeps (if c then x else y) := by
  by_cases holds : c
  · rw [if_pos holds]
    exact yes
  · rw [if_neg holds]
    exact no

theorem keeps_modify {f : ScanState σ → ScanState σ}
    (kept : ∀ s, (f s).walker = s.walker ∧ (f s).ids = s.ids ∧ (f s).batchStart = s.batchStart ∧
      (f s).dump = s.dump ∧ (f s).stats = s.stats) :
    Keeps (modify f : ScanM σ PUnit) := by
  intro s r s' h
  rw [run_modify, Except.ok.injEq, Prod.mk.injEq] at h
  rw [← h.2]
  exact kept s

theorem keeps_emit (line : Line) : Keeps (emit line : ScanM σ Unit) :=
  keeps_modify fun _ => ⟨rfl, rfl, rfl, rfl, rfl⟩

theorem keeps_emitAll (lines : List Line) : Keeps (emitAll lines : ScanM σ Unit) :=
  keeps_modify fun _ => ⟨rfl, rfl, rfl, rfl, rfl⟩

theorem keeps_announce : Keeps (announce : ScanM σ Unit) := by
  intro s r s' h
  rw [run_announce, Except.ok.injEq, Prod.mk.injEq] at h
  rw [← h.2]
  exact ⟨rfl, rfl, rfl, rfl, rfl⟩

theorem keeps_mergeFile (d : DirEntry) (pair : Pairing FileEntry FileEntry) :
    Keeps (mergeFile d pair : ScanM σ Unit) := by
  cases pair with
  | both f b => exact Keeps.ite (keeps_announce.bind fun _ => keeps_emit _) (Keeps.pure _)
  | live f => exact keeps_announce.bind fun _ => keeps_emit _
  | old b => exact keeps_announce.bind fun _ => keeps_emit _

theorem keeps_mergeFiles (d : DirEntry) (pairs : List (Pairing FileEntry FileEntry)) :
    Keeps (mergeFiles d pairs : ScanM σ Unit) := by
  induction pairs with
  | nil => exact Keeps.pure _
  | cons pair pairs inductionHypothesis =>
      exact (keeps_mergeFile d pair).bind fun _ => inductionHypothesis

theorem keeps_removeContents (id : Nat) (path : String) (b : DirEntry) :
    Keeps (removeContents id path b : ScanM σ Unit) := by
  unfold removeContents
  dsimp only
  refine Keeps.ite ?_ (Keeps.pure _)
  exact (keeps_emit _).bind fun _ => keeps_emitAll _

theorem keeps_removeUnentered (path : String) (d c : DirEntry) (p : Option DirEntry) :
    Keeps (removeUnentered path d c p : ScanM σ Unit) := by
  cases p with
  | none => exact Keeps.pure _
  | some unentered =>
      rw [removeUnentered]
      refine Keeps.ite ?_ ?_
      · exact keeps_announce.bind fun _ => keeps_removeContents _ _ _
      · exact keeps_removeContents _ _ _

theorem keeps_compareChild (d c : DirEntry) (b : Option DirEntry) :
    Keeps (compareChild d c b : ScanM σ Unit) := by
  cases b with
  | none => exact keeps_announce.bind fun _ => keeps_emit _
  | some old => exact Keeps.ite (keeps_announce.bind fun _ => keeps_emit _) (Keeps.pure _)

theorem keeps_compareChildren (path : String) (d : DirEntry) :
    ∀ (cs : List DirEntry) (pending before : List (Option DirEntry)),
      Keeps (compareChildren path d cs pending before : ScanM σ Unit) := by
  intro cs
  induction cs with
  | nil =>
      intro pending before
      exact Keeps.pure _
  | cons c cs inductionHypothesis =>
      intro pending before
      cases pending with
      | nil => exact Keeps.pure _
      | cons p ps =>
          cases before with
          | nil => exact Keeps.pure _
          | cons b bs =>
              exact (keeps_removeUnentered path d c p).bind fun _ =>
                (keeps_compareChild d c b).bind fun _ => inductionHypothesis ps bs

theorem keeps_openRoot (root : DirEntry) (baseline : Option DirEntry) :
    Keeps (openRoot root baseline : ScanM σ Unit) :=
  Keeps.ite (keeps_emit _) (Keeps.pure _)

theorem keeps_closeRoot (d : DirEntry) (baseline : Option DirEntry) :
    Keeps (closeRoot d baseline : ScanM σ Unit) := by
  cases baseline with
  | none => exact keeps_emit _
  | some old => exact Keeps.ite (keeps_emit _) (Keeps.pure _)

end Scan

end TreeDump
