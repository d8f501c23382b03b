import TreeDump.Proofs.ScanSteps

/-!
Which errors each step of a scan can stop with.

`Throws allowed x` says that every error `x` stops with satisfies `allowed`. Like
`Keeps`, it is closed under `pure`, `bind` and `if`, so each step's lemma follows
the step's own code. Reading and merging a directory stop only on an overflow;
writing the patch or the dump and comparing the children never stop; moving back
up stops only with a lost position. So the error that says the depth budget ran
out comes from `visit` alone, when its fuel is spent.
-/

namespace TreeDump

namespace Scan

variable {σ α β : Type} {walker : Walker σ} {allowed : ScanError → Prop}

theorem run_bind_eq_error {x : ScanM σ α} {f : α → ScanM σ β} {s : ScanState σ} {e : ScanError} :
    (x >>= f).run s = .error e ↔
      x.run s = .error e ∨ ∃ a s₁, x.run s = .ok (a, s₁) ∧ (f a).run s₁ = .error e := by
  rw [StateT.run_bind]
  cases h : x.run s with
  | error e' => simp [bind, Except.bind]
  | ok p =>
      obtain ⟨a, s₁⟩ := p
      simp [bind, Except.bind]

/-- A step that stops passes its error on. -/
theorem run_bind_of_eq_error {x : ScanM σ α} {f : α → ScanM σ β} {s : ScanState σ} {e : ScanError}
    (failed : x.run s = .error e) : (x >>= f).run s = .error e := by
  rw [StateT.run_bind, failed]
  rfl

/-- Every error that `x` stops with satisfies `allowed`. -/
def Throws (allowed : ScanError → Prop) (x : ScanM σ α) : Prop :=
  ∀ s e, x.run s = .error e → allowed e

theorem Throws.pure (a : α) : Throws allowed (Pure.pure a : ScanM σ α) := by
  intro s e h
  cases h

theorem Throws.bind {x : ScanM σ α} {k : α → ScanM σ β} (first : Throws allowed x)
    (rest : ∀ a, Throws allowed (k a)) : Throws allowed (x >>= k) := by
  intro s e h
  rcases run_bind_eq_error.mp h with failed | ⟨a, s₁, -, failed⟩
  · exact first s e failed
  · exact rest a s₁ e failed

theorem Throws.ite {c : Prop} [Decidable c] {x y : ScanM σ α} (yes : Throws allowed x)
    (no : Throws allowed y) : Throws allowed (if c then x else y) := by
  by_cases holds : c
  · rw [if_pos holds]
    exact yes
  · rw [if_neg holds]
    exact no

/-- A step that goes on from every state stops with no error at all. -/
theorem Throws.of_run_ok {x : ScanM σ α} (ok : ∀ s, ∃ a s', x.run s = .ok (a, s')) :
    Throws allowed x := by
  intro s e h
  obtain ⟨a, s', ran⟩ := ok s
  rw [ran] at h
  cases h

theorem throws_modify (f : ScanState σ → ScanState σ) :
    Throws allowed (modify f : ScanM σ PUnit) :=
  .of_run_ok fun s => ⟨_, _, run_modify f s⟩

theorem throws_get : Throws allowed (get : ScanM σ (ScanState σ)) :=
  .of_run_ok fun s => ⟨_, _, run_get s⟩

theorem throws_checked {counter : Counter} (overflow : allowed (.overflow counter))
    (x : Except Overflow α) : Throws allowed (checked counter x : ScanM σ α) := by
  cases x with
  | error e =>
      intro s e' h
      cases h
      exact overflow
  | ok a => exact Throws.pure a

theorem throws_takeId (overflow : allowed (.overflow .nextId)) :
    Throws allowed (takeId : ScanM σ Nat) := by
  intro s e h
  rw [run_takeId] at h
  split at h
  · cases h
  · cases h
    exact overflow

theorem throws_announce : Throws allowed (announce : ScanM σ Unit) :=
  .of_run_ok fun s => ⟨_, _, run_announce s⟩

/-! ### Reading a directory -/

theorem throws_pruneIfRepeats (limits : Limits) (d : DirEntry) :
    Throws allowed (pruneIfRepeats limits d : ScanM σ DirEntry) := by
  refine .of_run_ok fun s => ?_
  rw [run_pruneIfRepeats]
  split
  · exact ⟨_, _, rfl⟩
  · exact ⟨_, _, rfl⟩

/-- Reading a directory stops only on an overflow: of the ids its children take,
of its size, or of the count of bytes. -/
theorem throws_readDir (overflow : ∀ counter, allowed (.overflow counter)) (limits : Limits)
    (firstFresh : Nat) (d : DirEntry) : Throws allowed (readDir walker limits firstFresh d) := by
  unfold readDir
  refine (throws_modify _).bind fun _ => ?_
  split
  · exact (throws_modify _).bind fun _ => Throws.pure _
  · refine (Throws.of_run_ok fun s => ⟨_, _, run_listChildren walker limits s⟩).bind fun kept => ?_
    refine throws_get.bind fun s => ?_
    refine (throws_checked (overflow _) _).bind fun ordered => ?_
    refine (throws_modify _).bind fun _ => ?_
    refine (throws_checked (overflow _) _).bind fun size => ?_
    refine (throws_modify _).bind fun _ => ?_
    refine (throws_pruneIfRepeats limits _).bind fun d => ?_
    refine throws_get.bind fun s => ?_
    refine (throws_checked (overflow _) _).bind fun bytes => ?_
    exact (throws_modify _).bind fun _ => Throws.pure _

/-! ### Merging with the baseline -/

theorem throws_mergeDir (overflow : allowed (.overflow .nextId)) (path : String) (d : DirEntry)
    (pair : Pairing DirEntry DirEntry) :
    Throws allowed (mergeDir path d pair : ScanM σ (Option (DirEntry × Option DirEntry))) := by
  cases pair with
  | both c b => exact Throws.pure _
  | live c =>
      exact (throws_takeId overflow).bind fun _ => throws_announce.bind fun _ =>
        (throws_modify _).bind fun _ => Throws.pure _
  | old b => exact throws_announce.bind fun _ => (throws_modify _).bind fun _ => Throws.pure _

theorem throws_mergeDirs (overflow : allowed (.overflow .nextId)) (path : String) (d : DirEntry)
    (pairs : List (Pairing DirEntry DirEntry)) :
    Throws allowed (mergeDirs path d pairs : ScanM σ (List (DirEntry × Option DirEntry))) := by
  induction pairs with
  | nil => exact Throws.pure _
  | cons pair pairs inductionHypothesis =>
      exact (throws_mergeDir overflow path d pair).bind fun _ =>
        inductionHypothesis.bind fun _ => Throws.pure _

theorem throws_mergeFiles (d : DirEntry) (pairs : List (Pairing FileEntry FileEntry)) :
    Throws allowed (mergeFiles d pairs : ScanM σ Unit) := by
  induction pairs with
  | nil => exact Throws.pure _
  | cons pair pairs inductionHypothesis =>
      refine Throws.bind ?_ fun _ => inductionHypothesis
      cases pair with
      | both f b =>
          exact Throws.ite (throws_announce.bind fun _ => throws_modify _) (Throws.pure _)
      | live f => exact throws_announce.bind fun _ => throws_modify _
      | old b => exact throws_announce.bind fun _ => throws_modify _

/-- Merging stops only when a new child finds no fresh id left. -/
theorem throws_merge (overflow : allowed (.overflow .nextId)) (path : String)
    (old : Option DirEntry) (d : DirEntry) :
    Throws allowed (merge path old d : ScanM σ (DirEntry × List (Option DirEntry))) := by
  cases old with
  | none =>
      exact (throws_modify _).bind fun _ => (throws_modify _).bind fun _ => Throws.pure _
  | some o =>
      exact (throws_modify _).bind fun _ => (throws_mergeDirs overflow path d _).bind fun _ =>
        (throws_mergeFiles d _).bind fun _ => Throws.pure _

/-! ### Steps after the children -/

theorem throws_removeUnentered (path : String) (d c : DirEntry) (p : Option DirEntry) :
    Throws allowed (removeUnentered path d c p : ScanM σ Unit) := by
  have removed : ∀ id path b, Throws allowed (removeContents id path b : ScanM σ Unit) :=
    fun _ _ _ => Throws.ite ((throws_modify _).bind fun _ => throws_modify _) (Throws.pure _)
  cases p with
  | none => exact Throws.pure _
  | some unentered =>
      exact Throws.ite (throws_announce.bind fun _ => removed _ _ _) (removed _ _ _)

theorem throws_compareChild (d c : DirEntry) (b : Option DirEntry) :
    Throws allowed (compareChild d c b : ScanM σ Unit) := by
  cases b with
  | none => exact throws_announce.bind fun _ => throws_modify _
  | some old => exact Throws.ite (throws_announce.bind fun _ => throws_modify _) (Throws.pure _)

/-- Comparing the children only writes the patch, and never stops. -/
theorem throws_compareChildren (path : String) (d : DirEntry) :
    ∀ (cs : List DirEntry) (pending before : List (Option DirEntry)),
      Throws allowed (compareChildren path d cs pending before : ScanM σ Unit) := by
  intro cs
  induction cs with
  | nil =>
      intro pending before
      exact Throws.pure _
  | cons c cs inductionHypothesis =>
      intro pending before
      cases pending with
      | nil => exact Throws.pure _
      | cons p ps =>
          cases before with
          | nil => exact Throws.pure _
          | cons b bs =>
              exact (throws_removeUnentered path d c p).bind fun _ =>
                (throws_compareChild d c b).bind fun _ => inductionHypothesis ps bs

/-- Moving back up stops only with the position lost below `path`. -/
theorem throws_leaveChild {path : String} (lost : ∀ reason, allowed (.lostPosition path reason)) :
    Throws allowed (leaveChild walker path : ScanM σ Unit) := by
  intro s e h
  unfold leaveChild at h
  rw [run_get_bind] at h
  split at h
  · cases h
    exact lost _
  · cases h

theorem throws_openRoot (root : DirEntry) (baseline : Option DirEntry) :
    Throws allowed (openRoot root baseline : ScanM σ Unit) :=
  Throws.ite (throws_modify _) (Throws.pure _)

theorem throws_closeRoot (d : DirEntry) (baseline : Option DirEntry) :
    Throws allowed (closeRoot d baseline : ScanM σ Unit) := by
  cases baseline with
  | none => exact throws_modify _
  | some old => exact Throws.ite (throws_modify _) (Throws.pure _)

end Scan

end TreeDump
