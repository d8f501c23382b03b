import Mathlib
import TreeDump.Proofs.CuckooAttempts

/-!
The load of a cuckoo table, in runs where rebuilds succeed at the size they ask for.

A rebuild changes the size on its own only after `rebuildAttempts` failed attempts at
one size; it then notes as many. Call a note steady when it records fewer failures,
and a call steady when it gives up on no rebuild and every note it writes is steady.
Along steady calls from a fresh table only the load rules change the size: an insert
of a new key doubles it exactly when `len + 1 ≥ capacity`, and a removal of a held key
halves it exactly when it leaves `len < capacity / 4` with `capacity > 4`. Every state
so reached has `len < capacity`, and `capacity = 4` or `4 * len ≥ capacity`; and
inserting and removing one key in turn changes the size at most once.

Owns: `Note.Steady`, `Quiet` (the notes written between two points are steady);
`Call`, `Call.apply`, `Call.Steady`, the calls of a reader; `Reached`, the states of
steady runs; `Load`, the load bounds; `Settled`, a table and key at which neither rule
fires; the step lemmas `insert_steady`, `remove_steady` and the run lemma
`Reached.load`.
-/

namespace TreeDump.CuckooTable

variable {α : Type}

/-! ### Steady notes -/

/-- A note of a rebuild that succeeded before its size had to change. A failed shrink
is never steady. -/
def Note.Steady : Note → Prop
  | .rebuilt _ _ attempts => attempts < rebuildAttempts
  | .shrinkFailed _ => False

/-- The notes written from `env` to `env'` are all steady. -/
def Quiet (env env' : Env) : Prop := ∃ notes, env'.notes = env.notes ++ notes ∧ ∀ n ∈ notes, n.Steady

/-- The log from `env` to `env'` only grows. -/
def Extends (env env' : Env) : Prop := ∃ notes, env'.notes = env.notes ++ notes

theorem Quiet.refl (env : Env) : Quiet env env := ⟨[], by simp, by simp⟩

/-- Quiet stretches of a log split at every point in between. -/
theorem Quiet.split {env env' env'' : Env} (quiet : Quiet env env'') (first : Extends env env')
    (second : Extends env' env'') : Quiet env env' ∧ Quiet env' env'' := by
  obtain ⟨all, whole, steady⟩ := quiet
  obtain ⟨ns1, earlier⟩ := first
  obtain ⟨ns2, later⟩ := second
  have same : all = ns1 ++ ns2 := by
    rw [later, earlier, List.append_assoc] at whole
    exact (List.append_cancel_left whole).symm
  subst same
  exact ⟨⟨ns1, earlier, fun n member => steady n (List.mem_append_left _ member)⟩,
    ⟨ns2, later, fun n member => steady n (List.mem_append_right _ member)⟩⟩

theorem rebuild_extends (c : CuckooTable α) (log : Nat) (extra : Option (UInt32 × α))
    (env : Env) : Extends env (c.rebuild log extra env).2.2 := by
  obtain ⟨n, -, -, outcome⟩ := rebuild_count c log extra env
  rcases outcome with ⟨-, -, -, noted⟩ | ⟨-, -, quiet⟩
  · exact ⟨_, noted⟩
  · exact ⟨[], by simp [quiet]⟩

/-- A rebuild that succeeds with steady notes ends at the size it was asked for. -/
theorem log_rebuild_of_quiet {c : CuckooTable α} {log : Nat} {extra : Option (UInt32 × α)}
    {env : Env} (ok : (c.rebuild log extra env).1 = .ok ())
    (quiet : Quiet env (c.rebuild log extra env).2.2) : (c.rebuild log extra env).2.1.log = log := by
  obtain ⟨n, -, -, outcome⟩ := rebuild_count c log extra env
  obtain ⟨notes, written, steady⟩ := quiet
  rcases outcome with ⟨-, -, sized, noted⟩ | ⟨failed, -⟩
  · rw [noted, List.append_cancel_left_eq] at written
    have few := steady _ (by rw [← written]; exact List.mem_singleton_self _)
    simp only [Note.Steady, rebuildAttempts] at few
    simp only [rebuildAttempts] at sized
    omega
  · rw [ok] at failed
    cases failed

theorem grow_extends (c : CuckooTable α) (env : Env) : Extends env (c.grow env).2.2 := by
  unfold grow
  split
  · exact rebuild_extends c _ none env
  · exact ⟨[], by simp⟩

/-- A growth that succeeds with steady notes doubles the tables exactly when they would
fill up. -/
theorem log_grow_of_quiet {c : CuckooTable α} {env : Env} (ok : (c.grow env).1 = .ok ())
    (quiet : Quiet env (c.grow env).2.2) :
    (c.grow env).2.1.log = if c.len + 1 ≥ c.capacity then c.log + 1 else c.log := by
  unfold grow at ok quiet ⊢
  split
  · rename_i full
    rw [if_pos full] at ok quiet
    exact log_rebuild_of_quiet ok quiet
  · rfl

theorem settle_extends (c : CuckooTable α) (e : UInt32 × α) (env : Env) :
    Extends env (c.settle e env).2.2 := by
  unfold settle
  rcases c.place e with ⟨_ | h, c'⟩
  · exact ⟨[], by simp⟩
  · exact rebuild_extends c' _ (some h) env

theorem log_settle_of_quiet {c : CuckooTable α} {e : UInt32 × α} {env : Env}
    (ok : (c.settle e env).1 = .ok ()) (quiet : Quiet env (c.settle e env).2.2) :
    (c.settle e env).2.1.log = c.log := by
  unfold settle at ok quiet ⊢
  rcases placed : c.place e with ⟨s, c'⟩
  have sameLog : c'.log = c.log := by
    have := log_evict c.rounds c e
    rwa [← place, placed] at this
  rw [placed] at ok quiet
  cases s with
  | none => exact sameLog
  | some h =>
    dsimp only at ok quiet ⊢
    exact (log_rebuild_of_quiet ok quiet).trans sameLog

/-- A steady shrink keeps the count and halves the tables exactly when fewer than a
quarter of their slots are in use: a failed shrink writes a note that is not steady. -/
theorem shrink_of_quiet {c : CuckooTable α} (homed : c.Homed) {env : Env}
    (quiet : Quiet env (c.shrink env).2) :
    (c.shrink env).1.len = c.len ∧
      (c.shrink env).1.log =
        if IdTable.minLog < c.log ∧ c.len < Nat.pow 2 (c.log - 2) then c.log - 1 else c.log := by
  unfold shrink at quiet ⊢
  split
  · rename_i sparse
    rw [if_pos sparse] at quiet
    have rebuilt := rebuild_spec homed (c.log - 1) (by omega) none
      (fun _ _ none_eq => by cases none_eq) env
    have kept := rebuild_extends c (c.log - 1) none env
    have sized : (c.rebuild (c.log - 1) none env).1 = .ok () →
        Quiet env (c.rebuild (c.log - 1) none env).2.2 →
        (c.rebuild (c.log - 1) none env).2.1.log = c.log - 1 := log_rebuild_of_quiet
    rcases rebuilding : c.rebuild (c.log - 1) none env with ⟨r, c', env'⟩
    rw [rebuilding] at quiet kept sized rebuilt
    cases r with
    | ok u =>
      rcases rebuilt with ⟨-, holding⟩ | ⟨failed, -⟩
      · exact ⟨holding.len, sized rfl quiet⟩
      · cases failed
    | error e =>
      -- the note of the failure is in the quiet stretch, and it is not steady
      exfalso
      obtain ⟨ns, written, steady⟩ := quiet
      obtain ⟨ns1, earlier⟩ := kept
      dsimp only at written
      rw [earlier, List.append_assoc, List.append_cancel_left_eq] at written
      exact steady (.shrinkFailed e) (by rw [← written]; simp)
  · exact ⟨rfl, rfl⟩

/-! ### Steady inserts and removals -/

/-- A steady insert of a new non-zero key adds one id and doubles the tables exactly
when they would fill up. -/
theorem insert_steady {c : CuckooTable α} (homed : c.Homed) {key : UInt32} (nonzero : key ≠ 0)
    (fresh : c.find key = none) (value : α) {env : Env}
    (notFull : (c.insert key value env).1 ≠ .error (.full IdTable.maxLog))
    (quiet : Quiet env (c.insert key value env).2.2) :
    (c.insert key value env).2.1.len = c.len + 1 ∧
      (c.insert key value env).2.1.log = if c.len + 1 ≥ c.capacity then c.log + 1 else c.log := by
  have grown := grow_spec homed env
  have grownLog : (c.grow env).1 = .ok () → Quiet env (c.grow env).2.2 →
      (c.grow env).2.1.log = if c.len + 1 ≥ c.capacity then c.log + 1 else c.log :=
    log_grow_of_quiet
  have grownKept := grow_extends c env
  simp only [insert, nonzero, fresh, if_false, Option.isSome_none, Bool.false_eq_true]
    at notFull quiet ⊢
  revert notFull quiet
  rcases growing : c.grow env with ⟨r1, c1, env1⟩
  rw [growing] at grown grownLog grownKept
  rcases grown with ⟨rfl, holding1⟩ | ⟨rfl, -⟩
  · dsimp only at holding1 grownLog grownKept ⊢
    have settled := settle_spec holding1.homed (e := (key, value)) nonzero env1
    have settledLog : (c1.settle (key, value) env1).1 = .ok () →
        Quiet env1 (c1.settle (key, value) env1).2.2 →
        (c1.settle (key, value) env1).2.1.log = c1.log := log_settle_of_quiet
    have settledKept := settle_extends c1 (key, value) env1
    rcases settling : c1.settle (key, value) env1 with ⟨r2, c2, env2⟩
    rw [settling] at settled settledLog settledKept
    rcases settled with ⟨rfl, holding2⟩ | ⟨rfl, -⟩
    · dsimp only at holding2 settledLog settledKept ⊢
      intro _ quiet
      obtain ⟨quiet1, quiet2⟩ := quiet.split grownKept settledKept
      refine ⟨by rw [holding2.len, holding1.len], ?_⟩
      rw [settledLog rfl quiet2, grownLog rfl quiet1]
    · intro notFull
      exact absurd rfl notFull
  · intro notFull
    exact absurd rfl notFull

/-- A steady removal of a held key takes one id out and halves the tables exactly when
fewer than a quarter of their slots stay in use. -/
theorem remove_steady {c : CuckooTable α} (layout : c.Layout) {key : UInt32} (nonzero : key ≠ 0)
    {t : Fin 2} {i : Nat} (found : c.find key = some (t, i)) {v : α}
    (held : c.slot t i = some (key, v)) {env : Env} (quiet : Quiet env (c.remove key env).2.2) :
    (c.remove key env).2.1.len = c.len - 1 ∧
      (c.remove key env).2.1.log =
        if IdTable.minLog < c.log ∧ c.len - 1 < Nat.pow 2 (c.log - 2) then c.log - 1 else c.log := by
  rw [remove_eq nonzero found held env] at quiet ⊢
  exact shrink_of_quiet ((layout.toHomed.setSlot t i (fun _ _ none_eq => by cases none_eq)).withLen _)
    quiet

/-! ### Sizes read on the capacity -/

/-- Tables in shape have four times a power of two slots. -/
theorem Homed.quarters {c : CuckooTable α} (homed : c.Homed) :
    c.capacity = 4 * Nat.pow 2 (c.log - 2) ∧ 0 < Nat.pow 2 (c.log - 2) := by
  have large := homed.logGe
  simp only [IdTable.minLog] at large
  obtain ⟨k, hk⟩ : ∃ k, c.log = k + 2 := ⟨c.log - 2, by omega⟩
  refine ⟨?_, Nat.two_pow_pos _⟩
  simp only [capacity, hk, Nat.add_sub_cancel, Nat.pow_eq, pow_add]
  ring

theorem minLog_lt_iff {c : CuckooTable α} (homed : c.Homed) :
    IdTable.minLog < c.log ↔ 4 < c.capacity := by
  obtain ⟨quarters, -⟩ := homed.quarters
  have large := homed.logGe
  simp only [IdTable.minLog] at large ⊢
  rw [quarters]
  constructor
  · intro lt
    have : 2 ≤ Nat.pow 2 (c.log - 2) :=
      calc 2 = Nat.pow 2 1 := rfl
        _ ≤ Nat.pow 2 (c.log - 2) := Nat.pow_le_pow_right (by decide) (by omega)
    omega
  · intro lt
    by_contra least
    have bottom : c.log - 2 = 0 := by omega
    rw [bottom] at lt
    exact absurd lt (by decide)

/-- The shrink rule read on the capacity: more than four slots a table, and `n` under a
quarter of them. -/
theorem shrinks_iff {c : CuckooTable α} (homed : c.Homed) (n : Nat) :
    (IdTable.minLog < c.log ∧ n < Nat.pow 2 (c.log - 2)) ↔ (4 < c.capacity ∧ n < c.capacity / 4) := by
  rw [minLog_lt_iff homed, homed.quarters.1]
  constructor <;> intro h <;> omega

theorem pow_succ_log (c : CuckooTable α) : Nat.pow 2 (c.log + 1) = 2 * c.capacity := by
  simp only [capacity, Nat.pow_eq, pow_succ]
  ring

theorem pow_pred_log {c : CuckooTable α} (large : IdTable.minLog < c.log) :
    2 * Nat.pow 2 (c.log - 1) = c.capacity := by
  obtain ⟨k, hk⟩ : ∃ k, c.log = k + 1 := ⟨c.log - 1, by simp only [IdTable.minLog] at large; omega⟩
  simp only [capacity, hk, Nat.add_sub_cancel, Nat.pow_eq, pow_succ]
  ring

/-- Changing a value in place keeps the size and the count. -/
theorem sizes_modify? (c : CuckooTable α) (key : UInt32) (f : α → α) :
    ((c.modify? key f).getD c).capacity = c.capacity ∧ ((c.modify? key f).getD c).len = c.len := by
  unfold modify?
  split
  · exact ⟨rfl, rfl⟩
  · split
    · rename_i t i _
      cases c.slot t i <;> simp [capacity]
    · exact ⟨rfl, rfl⟩

/-! ### Calls and steady runs -/

/-- A call of a reader on a table: every operation but `drain`. -/
inductive Call (α : Type) where
  | insert (key : UInt32) (value : α)
  | remove (key : UInt32)
  | get (key : UInt32)
  | contains (key : UInt32)
  | modify (key : UInt32) (f : α → α)

/-- The table and log a call leaves; lookups change neither. -/
def Call.apply : Call α → CuckooTable α × Env → CuckooTable α × Env
  | .insert key value, s => (s.1.insert key value s.2).2
  | .remove key, s => (s.1.remove key s.2).2
  | .get _, s => s
  | .contains _, s => s
  | .modify key f, s => ((s.1.modify? key f).getD s.1, s.2)

/-- A call is steady when it gives up on no rebuild and each of its rebuilds succeeds
before its size has to change. -/
def Call.Steady : Call α → CuckooTable α × Env → Prop
  | .insert key value, s =>
    (s.1.insert key value s.2).1 ≠ .error (.full IdTable.maxLog) ∧
      Quiet s.2 (s.1.insert key value s.2).2.2
  | .remove key, s => Quiet s.2 (s.1.remove key s.2).2.2
  | _, _ => True

/-- The call inserts or removes `key`. -/
def Call.OnKey (key : UInt32) : Call α → Prop
  | .insert k _ => k = key
  | .remove k => k = key
  | _ => False

/-- The states of steady runs from a fresh table. -/
inductive Reached : CuckooTable α × Env → Prop
  | fresh (env : Env) : Reached (new env)
  | step {s : CuckooTable α × Env} (call : Call α) : Reached s → call.Steady s →
      Reached (call.apply s)

/-- Every call of a run is steady where it is made. -/
def SteadyRun : List (Call α) → CuckooTable α × Env → Prop
  | [], _ => True
  | call :: calls, s => call.Steady s ∧ SteadyRun calls (call.apply s)

/-- The table and log a run of calls leaves. -/
def Call.applyAll : List (Call α) → CuckooTable α × Env → CuckooTable α × Env
  | [], s => s
  | call :: calls, s => Call.applyAll calls (call.apply s)

/-- How often the size changes along a run. -/
def resizes : List (Call α) → CuckooTable α × Env → Nat
  | [], _ => 0
  | call :: calls, s =>
    (if (call.apply s).1.capacity = s.1.capacity then 0 else 1) + resizes calls (call.apply s)

theorem Reached.layout {s : CuckooTable α × Env} (reached : Reached s) : s.1.Layout := by
  induction reached with
  | fresh env => exact layout_new env
  | @step s call _ _ ih =>
    cases call with
    | insert key value => exact ih.insert key value s.2
    | remove key => exact ih.remove key s.2
    | get _ => exact ih
    | contains _ => exact ih
    | modify key f =>
      show ((s.1.modify? key f).getD s.1).Layout
      rcases changed : s.1.modify? key f with _ | c'
      · exact ih
      · exact ih.modify? changed

/-- A steady run from a reached state reaches where it ends. -/
theorem Reached.applyAll {calls : List (Call α)} {s : CuckooTable α × Env} (reached : Reached s)
    (run : SteadyRun calls s) : Reached (Call.applyAll calls s) := by
  induction calls generalizing s with
  | nil => exact reached
  | cons call calls ih =>
    obtain ⟨steady, rest⟩ := run
    exact ih (reached.step call steady) rest

/-- A log that gained no note is quiet. -/
theorem Quiet.of_notes {env env' : Env} (same : env'.notes = env.notes) : Quiet env env' :=
  ⟨[], by rw [same, List.append_nil], by simp⟩

/-! ### Inserts and removals of one key -/

/-- An insert of key `0` or of a key already held changes nothing. -/
theorem insert_of_not_fresh {c : CuckooTable α} {key : UInt32}
    (old : ¬(key ≠ 0 ∧ c.contains key = false)) (value : α) (env : Env) :
    (c.insert key value env).2 = (c, env) := by
  by_cases zero : key = 0
  · subst zero
    rw [insert_zero]
  have present : c.contains key = true := by
    simpa [zero] using old
  obtain ⟨t, i, -, found, -⟩ := found_of_contains present
  rw [insert_of_find found zero]

theorem remove_of_not_contains {c : CuckooTable α} {key : UInt32} (absent : c.contains key = false)
    (env : Env) : c.remove key env = (none, c, env) := by
  by_cases zero : key = 0
  · subst zero
    exact remove_zero c env
  have missing : c.find key = none := by
    simpa [contains, zero] using absent
  exact remove_of_find_eq_none missing env

/-- A steady insert of a new non-zero key counts it, holds it, and doubles the tables
exactly when they would fill up. -/
theorem insert_grows {c : CuckooTable α} (layout : c.Layout) {key : UInt32} (nonzero : key ≠ 0)
    (fresh : c.contains key = false) {value : α} {env : Env}
    (steady : (Call.insert key value).Steady (c, env)) :
    (c.insert key value env).2.1.len = c.len + 1 ∧
      (c.insert key value env).2.1.capacity =
        (if c.len + 1 ≥ c.capacity then 2 * c.capacity else c.capacity) ∧
      (c.insert key value env).2.1.contains key = true := by
  obtain ⟨notFull, quiet⟩ := steady
  have missing : c.find key = none := by
    simpa [contains, nonzero] using fresh
  obtain ⟨counted, sized⟩ := insert_steady layout.toHomed nonzero missing value notFull quiet
  refine ⟨counted, ?_, ?_⟩
  · show Nat.pow 2 _ = _
    rw [sized]
    split_ifs
    · exact pow_succ_log c
    · rfl
  · rcases insert_spec layout.toHomed nonzero missing value env with ⟨-, holding⟩ | ⟨failed, -⟩
    · refine holding.homed.contains_iff.mpr ⟨nonzero, ?_⟩
      rw [(holding.perm.map (·.1)).mem_iff]
      simp
    · exact absurd failed notFull

/-- A steady removal of a held key uncounts it, drops it, and halves the tables exactly
when fewer than a quarter of their slots stay in use and they have more than four. -/
theorem remove_shrinks {c : CuckooTable α} (layout : c.Layout) {key : UInt32}
    (present : c.contains key = true) {env : Env} (steady : (Call.remove key).Steady (c, env)) :
    (c.remove key env).2.1.len = c.len - 1 ∧
      (c.remove key env).2.1.capacity =
        (if 4 < c.capacity ∧ c.len - 1 < c.capacity / 4 then c.capacity / 2 else c.capacity) ∧
      (c.remove key env).2.1.contains key = false := by
  have nonzero : key ≠ 0 := ((layout.toHomed.contains_iff).mp present).1
  obtain ⟨t, i, v, found, held⟩ := found_of_contains present
  obtain ⟨counted, sized⟩ := remove_steady layout nonzero found held steady
  refine ⟨counted, ?_, ?_⟩
  · show Nat.pow 2 _ = _
    rw [sized]
    by_cases shrinking : 4 < c.capacity ∧ c.len - 1 < c.capacity / 4
    · rw [if_pos ((shrinks_iff layout.toHomed _).mpr shrinking), if_pos shrinking]
      have halves := pow_pred_log ((minLog_lt_iff layout.toHomed).mpr shrinking.1)
      omega
    · rw [if_neg (mt (shrinks_iff layout.toHomed _).mp shrinking), if_neg shrinking]
      rfl
  · rw [Bool.eq_false_iff, ne_eq]
    rcases (remove_spec layout nonzero found held env).2 with holding | ⟨emptied, -⟩
    · rw [holding.homed.contains_iff, (holding.perm.map (·.1)).mem_iff]
      simp
    · rw [emptied.homed.contains_iff, emptied.entries]
      simp

theorem len_pos_of_contains {c : CuckooTable α} (layout : c.Layout) {key : UInt32}
    (present : c.contains key = true) : 0 < c.len := by
  obtain ⟨-, member⟩ := (layout.toHomed.contains_iff).mp present
  rw [layout.count]
  exact List.length_pos_of_mem (List.mem_map.mp member).choose_spec.1

/-! ### The load bounds -/

/-- The load bounds: never full, and at least a quarter full once larger than the least
size. -/
structure Load (c : CuckooTable α) : Prop where
  below : c.len < c.capacity
  dense : c.capacity = 4 ∨ c.capacity ≤ 4 * c.len

theorem load_new (env : Env) : Load (new env : CuckooTable α × Env).1 where
  below := by simp [new, capacity, len_withLog, log_withLog, IdTable.minLog]
  dense := .inl (by simp [new, capacity, log_withLog, IdTable.minLog])

theorem Load.insert {c : CuckooTable α} (load : Load c) (layout : c.Layout) {key : UInt32}
    {value : α} {env : Env} (steady : (Call.insert key value).Steady (c, env)) :
    Load (c.insert key value env).2.1 := by
  by_cases fresh : key ≠ 0 ∧ c.contains key = false
  · obtain ⟨counted, sized, -⟩ := insert_grows layout fresh.1 fresh.2 steady
    have below := load.below
    have dense := load.dense
    constructor <;> rw [counted, sized] <;> split_ifs <;> omega
  · rw [insert_of_not_fresh fresh]
    exact load

theorem Load.remove {c : CuckooTable α} (load : Load c) (layout : c.Layout) {key : UInt32}
    {env : Env} (steady : (Call.remove key).Steady (c, env)) : Load (c.remove key env).2.1 := by
  by_cases present : c.contains key = true
  · obtain ⟨counted, sized, -⟩ := remove_shrinks layout present steady
    obtain ⟨quarters, -⟩ := layout.toHomed.quarters
    have below := load.below
    have dense := load.dense
    constructor <;> rw [counted, sized] <;> split_ifs <;> omega
  · rw [remove_of_not_contains (by simpa using present)]
    exact load

theorem Load.modify {c : CuckooTable α} (load : Load c) (key : UInt32) (f : α → α) :
    Load ((c.modify? key f).getD c) := by
  obtain ⟨sameCapacity, sameLen⟩ := sizes_modify? c key f
  exact ⟨by rw [sameCapacity, sameLen]; exact load.below, by rw [sameCapacity, sameLen]; exact load.dense⟩

/-- Every reached table keeps the load bounds. -/
theorem Reached.load {s : CuckooTable α × Env} (reached : Reached s) : Load s.1 := by
  induction reached with
  | fresh env => exact load_new env
  | @step s call reached steady ih =>
    cases call with
    | insert key value => exact ih.insert reached.layout steady
    | remove key => exact ih.remove reached.layout steady
    | get _ => exact ih
    | contains _ => exact ih
    | modify key f => exact ih.modify key f

/-! ### No thrashing -/

/-- The pairs held for keys other than `key`. -/
def others (c : CuckooTable α) (key : UInt32) : Nat := c.len - if c.contains key then 1 else 0

/-- Neither load rule fires for `key`: inserting it would not fill the tables, and
removing it would not leave them under a quarter full. -/
def Settled (c : CuckooTable α) (key : UInt32) : Prop :=
  c.others key + 1 < c.capacity ∧ (4 < c.capacity → c.capacity / 4 ≤ c.others key)

/-- One steady call on `key` from a reached table keeps the count of the other keys. It
keeps the size where neither load rule fires for `key`, and a change of size lands
where neither does. -/
theorem Reached.step_onKey {s : CuckooTable α × Env} (reached : Reached s) {key : UInt32}
    {call : Call α} (onKey : call.OnKey key) (steady : call.Steady s) :
    (call.apply s).1.others key = s.1.others key ∧
      (s.1.Settled key → (call.apply s).1.capacity = s.1.capacity) ∧
      ((call.apply s).1.capacity ≠ s.1.capacity → (call.apply s).1.Settled key) := by
  have layout := reached.layout
  have below := reached.load.below
  have dense := reached.load.dense
  obtain ⟨quarters, positive⟩ := layout.toHomed.quarters
  cases call with
  | insert k value =>
    subst onKey
    by_cases fresh : k ≠ 0 ∧ s.1.contains k = false
    · obtain ⟨counted, sized, held⟩ := insert_grows layout fresh.1 fresh.2 steady
      simp only [Call.apply, others, Settled, counted, held, fresh.2, Bool.false_eq_true,
        if_true, if_false]
      by_cases full : s.1.len + 1 ≥ s.1.capacity
      · rw [sized, if_pos full]
        omega
      · rw [sized, if_neg full]
        omega
    · have same : (Call.insert k value).apply s = s := insert_of_not_fresh fresh value s.2
      rw [same]
      exact ⟨rfl, fun _ => rfl, fun changed => absurd rfl changed⟩
  | remove k =>
    subst onKey
    by_cases present : s.1.contains k = true
    · obtain ⟨counted, sized, gone⟩ := remove_shrinks layout present steady
      have nonempty := len_pos_of_contains layout present
      simp only [Call.apply, others, Settled, counted, gone, present, Bool.false_eq_true,
        if_true, if_false]
      by_cases shrinking : 4 < s.1.capacity ∧ s.1.len - 1 < s.1.capacity / 4
      · rw [sized, if_pos shrinking]
        omega
      · rw [sized, if_neg shrinking]
        omega
    · have same : (Call.remove k).apply s = s := by
        simp only [Call.apply, remove_of_not_contains (by simpa using present)]
      rw [same]
      exact ⟨rfl, fun _ => rfl, fun changed => absurd rfl changed⟩
  | get _ => exact absurd onKey id
  | contains _ => exact absurd onKey id
  | modify _ _ => exact absurd onKey id

/-- Along a steady run of inserts and removals of one key from a reached table, the size
changes at most once, and not at all from a table where neither load rule fires for
that key. The induction is on the run; `Settled` carries it, since every call keeps
it and every change of size ends in it. -/
theorem Reached.resizes_le {key : UInt32} {calls : List (Call α)} {s : CuckooTable α × Env}
    (reached : Reached s) (run : SteadyRun calls s) (onKey : ∀ call ∈ calls, call.OnKey key) :
    resizes calls s ≤ 1 ∧ (s.1.Settled key → resizes calls s = 0) := by
  induction calls generalizing s with
  | nil => simp [resizes]
  | cons call calls ih =>
    obtain ⟨steady, rest⟩ := run
    obtain ⟨same, keeps, lands⟩ := reached.step_onKey (onKey call List.mem_cons_self) steady
    obtain ⟨atMostOnce, still⟩ :=
      ih (reached.step call steady) rest fun c member => onKey c (List.mem_cons_of_mem _ member)
    have stays (settled : s.1.Settled key) : (call.apply s).1.Settled key := by
      rw [Settled, same, keeps settled]
      exact settled
    simp only [resizes]
    constructor
    · by_cases resized : (call.apply s).1.capacity = s.1.capacity
      · rw [if_pos resized]
        omega
      · rw [if_neg resized, still (lands resized)]
    · intro settled
      rw [if_pos (keeps settled), still (stays settled)]

/-- Steady runs keep a table balanced. Every reached table is never full and at least a
quarter full once larger than four slots a table. An insert doubles the tables exactly
when the key is new and non-zero and `len + 1 ≥ capacity`; a removal halves them exactly
when the key is held, there are more than four slots a table, and fewer than a quarter
stay in use; a change in place keeps them. Inserting and removing one key, in any
order and as often as one likes, changes the size at most once. -/
theorem steady_load_stays_balanced {s : CuckooTable α × Env} (reached : Reached s) :
    Load s.1 ∧
      (∀ key value, (Call.insert key value).Steady s →
        ((Call.insert key value).apply s).1.capacity =
          if key ≠ 0 ∧ s.1.contains key = false ∧ s.1.len + 1 ≥ s.1.capacity then
            2 * s.1.capacity
          else s.1.capacity) ∧
      (∀ key, (Call.remove key).Steady s →
        ((Call.remove key).apply s).1.capacity =
          if s.1.contains key = true ∧ 4 < s.1.capacity ∧ s.1.len - 1 < s.1.capacity / 4 then
            s.1.capacity / 2
          else s.1.capacity) ∧
      (∀ key f, ((Call.modify key f).apply s).1.capacity = s.1.capacity) ∧
      (∀ key (calls : List (Call α)), (∀ call ∈ calls, call.OnKey key) → SteadyRun calls s →
        resizes calls s ≤ 1) := by
  have layout := reached.layout
  refine ⟨reached.load, ?_, ?_, fun key f => (sizes_modify? s.1 key f).1,
    fun key calls onKey run => (reached.resizes_le run onKey).1⟩
  · intro key value steady
    show (s.1.insert key value s.2).2.1.capacity = _
    by_cases fresh : key ≠ 0 ∧ s.1.contains key = false
    · rw [(insert_grows layout fresh.1 fresh.2 steady).2.1]
      simp only [fresh, ne_eq, not_false_eq_true, true_and]
    · rw [if_neg fun grows => fresh ⟨grows.1, grows.2.1⟩, insert_of_not_fresh fresh]
  · intro key steady
    show (s.1.remove key s.2).2.1.capacity = _
    by_cases present : s.1.contains key = true
    · rw [(remove_shrinks layout present steady).2.1]
      simp only [present, true_and]
    · rw [if_neg fun shrinks => present shrinks.1, remove_of_not_contains (by simpa using present)]

/-- Inserting `1`, `2` and `3` into a fresh table and removing `2`, with multipliers from
a fixed source, is a steady run. The table it reaches holds two ids, four slots a table;
there a steady insert of a new id and a steady removal keep the size, and inserting,
removing and again inserting `5` resizes at most once. -/
theorem steady_run_balanced :
    let s := Call.applyAll [.insert 1 10, .insert 2 20, .insert 3 30, .remove 2]
      (new (α := Nat) { rng := { words := fun _ => 0x40000001 } })
    Reached s ∧ s.1.len = 2 ∧ Load s.1 ∧
      ((Call.insert 7 70).apply s).1.capacity = s.1.capacity ∧
      ((Call.remove 3).apply s).1.capacity = s.1.capacity ∧
      resizes [.insert 5 50, .remove 5, .insert 5 50] s ≤ 1 := by
  intro s
  -- no call of the run rebuilds, so the log stays empty and every call is steady
  have run : SteadyRun [.insert 1 10, .insert 2 20, .insert 3 30, .remove 2]
      (new (α := Nat) { rng := { words := fun _ => 0x40000001 } }) :=
    ⟨⟨by decide, .of_notes (by decide)⟩, ⟨by decide, .of_notes (by decide)⟩,
      ⟨by decide, .of_notes (by decide)⟩, .of_notes (by decide), trivial⟩
  have reached : Reached s := Reached.applyAll (.fresh _) run
  obtain ⟨load, inserts, removes, -, runs⟩ := steady_load_stays_balanced reached
  have insertSteady : (Call.insert 7 70).Steady s := ⟨by decide, .of_notes (by decide)⟩
  have removeSteady : (Call.remove 3).Steady s := .of_notes (by decide)
  have onKey : ∀ call ∈ ([.insert 5 50, .remove 5, .insert 5 50] : List (Call Nat)), call.OnKey 5 := by
    simp [Call.OnKey]
  have runSteady : SteadyRun [.insert 5 50, .remove 5, .insert 5 50] s :=
    ⟨⟨by decide, .of_notes (by decide)⟩, .of_notes (by decide), ⟨by decide, .of_notes (by decide)⟩, trivial⟩
  refine ⟨reached, by decide, load, ?_, ?_, runs 5 _ onKey runSteady⟩
  · rw [inserts 7 70 insertSteady, if_neg (by decide)]
  · rw [removes 3 removeSteady, if_neg (by decide)]

end TreeDump.CuckooTable
