import Mathlib
import TreeDump.Proofs.CuckooLayout

/-!
How long the operations of a cuckoo table run.

Every loop of a table is bounded, whatever state it starts from and whatever words
the random source gives. A placement takes at most `max (3 * log) 1` eviction rounds,
and so writes at most two slots a round. A rebuild makes attempts, each drawing two
fresh multipliers, and counts its failures: after every `rebuildAttempts` of them the
size doubles, and once the size would pass `2 ^ maxLog` it gives up. So a rebuild
asked for size `log` makes at most `rebuildAttempts * (maxLog - log + 1)` attempts;
when it gives up it has made exactly `rebuildAttempts * (maxLog + 1 - log)`, and when
it succeeds after `n - 1` failures it ends at size `log + (n - 1) / rebuildAttempts`
and notes them. The attempts of an insert (two rebuilds at most) and of a removal (one)
are bounded in turn.

Owns: `taken_withLog` and the other small lemmas on the random source and the log;
`rebuildFrom_count`, the attempts of the rebuild loop, by the same recursion as the
loop; `rebuild_count`, `insert_draws`, `remove_draws`; `evict_touches`, the slots
a placement writes.
-/

namespace TreeDump.CuckooTable

variable {α : Type}

/-! ### The random source and the log -/

@[simp] theorem taken_withLog (log : Nat) (env : Env) :
    (withLog log env : CuckooTable α × Env).2.rng.taken = env.rng.taken + 2 := rfl

@[simp] theorem notes_withLog (log : Nat) (env : Env) :
    (withLog log env : CuckooTable α × Env).2.notes = env.notes := rfl

/-- Eviction only writes slots: what every slot write keeps, it keeps. -/
theorem evict_keeps {P : CuckooTable α → Prop} (kept : ∀ c t i s, P c → P (c.setSlot t i s)) :
    ∀ (n : Nat) (c : CuckooTable α) (e : UInt32 × α), P c → P (evict n c e).2 := by
  intro n
  induction n with
  | zero => exact fun _ _ holds => holds
  | succ n ih =>
    intro c e holds
    rw [evict]
    -- each round writes table 0, then table 1
    rcases first : c.swap 0 e with ⟨s0, c0⟩
    have kept0 : P c0 := by
      simp only [swap, Prod.mk.injEq] at first
      rw [← first.2]
      exact kept _ _ _ _ holds
    cases s0 with
    | none => exact kept0
    | some e0 =>
      dsimp only
      rcases second : c0.swap 1 e0 with ⟨s1, c1⟩
      have kept1 : P c1 := by
        simp only [swap, Prod.mk.injEq] at second
        rw [← second.2]
        exact kept _ _ _ _ kept0
      cases s1 with
      | none => exact kept1
      | some e1 => exact ih c1 e1 kept1

/-- Filling only places pairs: what every slot write keeps, it keeps. -/
theorem fill_keeps {P : CuckooTable α → Prop} (kept : ∀ c t i s, P c → P (c.setSlot t i s)) :
    ∀ (c : CuckooTable α) (pending : List (UInt32 × α)), P c → P (c.fill pending).2 := by
  intro c pending
  induction pending generalizing c with
  | nil => exact id
  | cons e rest ih =>
    intro holds
    rw [fill]
    have placed := evict_keeps kept c.rounds c e holds
    rcases placing : c.place e with ⟨_ | h, c1⟩
    · rw [← place, placing] at placed
      exact ih c1 placed
    · rw [← place, placing] at placed
      exact placed

/-- Eviction changes nothing but slots; in particular not the size. -/
@[simp] theorem log_evict (n : Nat) (c : CuckooTable α) (e : UInt32 × α) :
    (evict n c e).2.log = c.log :=
  evict_keeps (P := fun c' => c'.log = c.log) (fun _ _ _ _ same => by simp [same]) n c e rfl

@[simp] theorem log_fill (c : CuckooTable α) (pending : List (UInt32 × α)) :
    (c.fill pending).2.log = c.log :=
  fill_keeps (P := fun c' => c'.log = c.log) (fun _ _ _ _ same => by simp [same]) c pending rfl

/-! ### Rebuilds -/

/-- How a rebuild loop that started its count at `attempts`, at size `log`, went: it made
`n` attempts, drawing two words for each. A success comes at the `n`-th, at the size
the failures before it have reached, and is noted; giving up comes after every attempt
up to the limit, and notes nothing. -/
def Counted (len log attempts n : Nat) (env : Env)
    (out : Except TableError Unit × CuckooTable α × Env) : Prop :=
  out.2.2.rng.taken = env.rng.taken + 2 * n ∧
    n ≤ rebuildAttempts * (IdTable.maxLog + 1 - log) - attempts % rebuildAttempts ∧
    ((out.1 = .ok () ∧ 0 < n ∧
        out.2.1.log = log + (attempts % rebuildAttempts + n - 1) / rebuildAttempts ∧
        out.2.2.notes = env.notes ++ [.rebuilt out.2.1.log len (attempts + n - 1)]) ∨
      (out.1 = .error (.full IdTable.maxLog) ∧
        n = rebuildAttempts * (IdTable.maxLog + 1 - log) - attempts % rebuildAttempts ∧
        out.2.2.notes = env.notes))

/-- The rebuild loop, counted: every failed attempt lowers the attempts left before the
size passes the limit by exactly one, and the size goes up by one after every
`rebuildAttempts` failures. -/
theorem rebuildFrom_count (len : Nat) (c : CuckooTable α) (log attempts : Nat)
    (pending : List (UInt32 × α)) (env : Env) :
    ∃ n, Counted len log attempts n env (rebuildFrom len c log attempts pending env) := by
  fun_induction rebuildFrom len c log attempts pending env with
  | case1 c log attempts pending env beyond =>
    refine ⟨0, rfl, Nat.zero_le _, .inr ⟨rfl, ?_, rfl⟩⟩
    simp only [rebuildAttempts]
    omega
  | case2 c log attempts pending env0 within fresh env made c' filled =>
    have freshLog : fresh.log = log := by simpa [made] using (log_withLog (α := α) log env0)
    have filledLog : c'.log = log := by
      have := log_fill fresh pending
      rw [filled] at this
      exact this.trans freshLog
    have drawn : env.rng.taken = env0.rng.taken + 2 := by
      simpa [made] using (taken_withLog (α := α) log env0)
    have kept : env.notes = env0.notes := by simpa [made] using (notes_withLog (α := α) log env0)
    refine ⟨1, drawn, ?_, .inl ⟨rfl, Nat.one_pos, ?_, ?_⟩⟩
    · simp only [rebuildAttempts] at *
      omega
    · rw [filledLog]
      simp only [rebuildAttempts] at *
      omega
    · dsimp only
      rw [kept, filledLog]
      simp
  | case3 c log attempts pending env0 within fresh env made h rest c1 filled placed c2 requeued ih =>
    -- the size of the next attempt: one up exactly when this failure completes a round
    have nextLog : (if (attempts + 1) % rebuildAttempts = 0 then log + 1 else log) =
        log + (attempts % rebuildAttempts + 1) / rebuildAttempts := by
      split <;> simp only [rebuildAttempts] at * <;> omega
    simp only [dite_eq_ite] at ih
    rw [nextLog] at ih ⊢
    obtain ⟨n, drawn, bound, outcome⟩ := ih
    have drawn0 : env.rng.taken = env0.rng.taken + 2 := by
      simpa [made] using (taken_withLog (α := α) log env0)
    have kept : env.notes = env0.notes := by simpa [made] using (notes_withLog (α := α) log env0)
    refine ⟨n + 1, by rw [drawn, drawn0]; ring, ?_, ?_⟩
    · simp only [rebuildAttempts] at *
      omega
    · rcases outcome with ⟨ok, pos, sized, noted⟩ | ⟨failed, all, quiet⟩
      · refine .inl ⟨ok, Nat.succ_pos n, ?_, ?_⟩
        · rw [sized]
          simp only [rebuildAttempts] at *
          omega
        · rw [noted, kept]
          congr 3
          omega
      · refine .inr ⟨failed, ?_, quiet.trans kept⟩
        simp only [rebuildAttempts] at *
        omega

/-- A rebuild is the loop from no failures at all. -/
theorem rebuild_count (c : CuckooTable α) (log : Nat) (extra : Option (UInt32 × α)) (env : Env) :
    ∃ n, Counted c.len log 0 n env (c.rebuild log extra env) :=
  rebuildFrom_count c.len _ log 0 _ env

theorem rebuild_draws (c : CuckooTable α) (log : Nat) (extra : Option (UInt32 × α)) (env : Env) :
    (c.rebuild log extra env).2.2.rng.taken ≤
      env.rng.taken + 2 * (rebuildAttempts * (IdTable.maxLog + 1 - log)) := by
  obtain ⟨n, drawn, bound, -⟩ := rebuild_count c log extra env
  rw [drawn]
  simp only [Nat.zero_mod, Nat.sub_zero] at bound
  omega

/-- A rebuild that succeeds ends at the size it was asked for or larger. -/
theorem le_log_rebuild {c : CuckooTable α} {log : Nat} {extra : Option (UInt32 × α)} {env : Env}
    (ok : (c.rebuild log extra env).1 = .ok ()) : log ≤ (c.rebuild log extra env).2.1.log := by
  obtain ⟨n, -, -, outcome⟩ := rebuild_count c log extra env
  rcases outcome with ⟨-, -, sized, -⟩ | ⟨failed, -⟩
  · rw [sized]
    exact Nat.le_add_right _ _
  · rw [ok] at failed
    cases failed

/-! ### Inserts and removals -/

theorem grow_draws (c : CuckooTable α) (env : Env) :
    (c.grow env).2.2.rng.taken ≤
      env.rng.taken + 2 * (rebuildAttempts * (IdTable.maxLog + 1 - c.log)) := by
  unfold grow
  split
  · exact (rebuild_draws c (c.log + 1) none env).trans (by simp only [rebuildAttempts]; omega)
  · exact Nat.le_add_right _ _

theorem le_log_grow {c : CuckooTable α} {env : Env} (ok : (c.grow env).1 = .ok ()) :
    c.log ≤ (c.grow env).2.1.log := by
  unfold grow at ok ⊢
  split at ok
  · rename_i full
    rw [if_pos full]
    exact Nat.le_of_succ_le (le_log_rebuild ok)
  · rename_i roomy
    rw [if_neg roomy]

theorem settle_draws (c : CuckooTable α) (e : UInt32 × α) (env : Env) :
    (c.settle e env).2.2.rng.taken ≤
      env.rng.taken + 2 * (rebuildAttempts * (IdTable.maxLog + 1 - c.log)) := by
  unfold settle
  rcases placed : c.place e with ⟨s, c'⟩
  have sameLog : c'.log = c.log := by
    have := log_evict c.rounds c e
    rw [← place, placed] at this
    exact this
  cases s with
  | none => exact Nat.le_add_right _ _
  | some h =>
    dsimp only
    rw [← sameLog]
    exact rebuild_draws c' c'.log (some h) env

/-- An insert makes two rebuilds at most, the second at least at the size of the first,
and so draws at most this many words: at most `2 * rebuildAttempts * (maxLog + 1 - log)`
attempts. -/
theorem insert_draws (c : CuckooTable α) (key : UInt32) (value : α) (env : Env) :
    (c.insert key value env).2.2.rng.taken ≤
      env.rng.taken + 2 * (2 * rebuildAttempts * (IdTable.maxLog + 1 - c.log)) := by
  unfold insert
  split
  · exact Nat.le_add_right _ _
  split
  · exact Nat.le_add_right _ _
  have grown := grow_draws c env
  rcases growing : c.grow env with ⟨r1, c1, env1⟩
  rw [growing] at grown
  cases r1 with
  | error e => exact grown.trans (by simp only [rebuildAttempts]; omega)
  | ok u =>
    have sized : c.log ≤ c1.log := by
      have := le_log_grow (show (c.grow env).1 = .ok () by rw [growing])
      rwa [growing] at this
    have settled := settle_draws c1 (key, value) env1
    dsimp only
    rcases settling : c1.settle (key, value) env1 with ⟨r2, c2, env2⟩
    rw [settling] at settled
    have total : env2.rng.taken ≤
        env.rng.taken + 2 * (2 * rebuildAttempts * (IdTable.maxLog + 1 - c.log)) := by
      simp only [rebuildAttempts] at *
      omega
    cases r2 with
    | error e => exact total
    | ok u => exact total

theorem shrink_draws (c : CuckooTable α) (env : Env) :
    (c.shrink env).2.rng.taken ≤
      env.rng.taken + 2 * (rebuildAttempts * (IdTable.maxLog + 2 - c.log)) := by
  unfold shrink
  split
  · have drawn := rebuild_draws c (c.log - 1) none env
    rcases rebuilding : c.rebuild (c.log - 1) none env with ⟨r, c', env'⟩
    rw [rebuilding] at drawn
    have total : env'.rng.taken ≤
        env.rng.taken + 2 * (rebuildAttempts * (IdTable.maxLog + 2 - c.log)) := by
      simp only [rebuildAttempts] at *
      omega
    cases r with
    | error e => exact total
    | ok u => exact total
  · exact Nat.le_add_right _ _

/-- A removal makes one rebuild at most, at half the size. -/
theorem remove_draws (c : CuckooTable α) (key : UInt32) (env : Env) :
    (c.remove key env).2.2.rng.taken ≤
      env.rng.taken + 2 * (rebuildAttempts * (IdTable.maxLog + 2 - c.log)) := by
  unfold remove
  split
  · exact Nat.le_add_right _ _
  split
  · exact Nat.le_add_right _ _
  · rename_i t i found
    split
    · exact Nat.le_add_right _ _
    · exact shrink_draws _ env

/-! ### Placements -/

theorem slot_setSlot_of_ne (c : CuckooTable α) {t u : Fin 2} {i j : Nat} (s : Slot α)
    (apart : (u, j) ≠ (t, i)) : (c.setSlot t i s).slot u j = c.slot u j := by
  rw [slot_setSlot, if_neg]
  rintro ⟨rfl, rfl, -⟩
  exact apart rfl

/-- `n` eviction rounds write at most two slots each: outside a set of at most `2 * n`
slots the tables stay as they were. -/
theorem evict_touches (n : Nat) (c : CuckooTable α) (e : UInt32 × α) :
    ∃ S : Finset (Fin 2 × Nat), S.card ≤ 2 * n ∧
      ∀ t i, (t, i) ∉ S → (evict n c e).2.slot t i = c.slot t i := by
  induction n generalizing c e with
  | zero => exact ⟨∅, by simp, fun _ _ _ => rfl⟩
  | succ n ih =>
    rw [evict]
    rcases first : c.swap 0 e with ⟨s0, c0⟩
    simp only [swap, Prod.mk.injEq] at first
    obtain ⟨-, rfl⟩ := first
    cases s0 with
    | none =>
      refine ⟨{(0, c.index 0 e.1)}, by rw [Finset.card_singleton]; omega, fun t i outside => ?_⟩
      exact slot_setSlot_of_ne c _ (by simpa using outside)
    | some e0 =>
      dsimp only
      rcases second : (c.setSlot 0 (c.index 0 e.1) (some e)).swap 1 e0 with ⟨s1, c1⟩
      simp only [swap, Prod.mk.injEq] at second
      obtain ⟨-, rfl⟩ := second
      cases s1 with
      | none =>
        dsimp only
        refine ⟨{(0, c.index 0 e.1), (1, c.index 1 e0.1)}, (Finset.card_le_two).trans (by omega),
          fun t i outside => ?_⟩
        simp only [Finset.mem_insert, Finset.mem_singleton, not_or] at outside
        rw [index_setSlot, slot_setSlot_of_ne _ _ outside.2, slot_setSlot_of_ne _ _ outside.1]
      | some e1 =>
        rw [index_setSlot]
        obtain ⟨S, small, kept⟩ := ih (((c.setSlot 0 (c.index 0 e.1) (some e))).setSlot 1
          (c.index 1 e0.1) (some e0)) e1
        refine ⟨{(0, c.index 0 e.1), (1, c.index 1 e0.1)} ∪ S, ?_, fun t i outside => ?_⟩
        · calc ({(0, c.index 0 e.1), (1, c.index 1 e0.1)} ∪ S).card
                ≤ ({(0, c.index 0 e.1), (1, c.index 1 e0.1)} : Finset (Fin 2 × Nat)).card + S.card :=
                  Finset.card_union_le _ _
              _ ≤ 2 + 2 * n := Nat.add_le_add Finset.card_le_two small
              _ = 2 * (n + 1) := by ring
        · simp only [Finset.mem_union, Finset.mem_insert, Finset.mem_singleton, not_or] at outside
          dsimp only
          rw [kept t i outside.2, slot_setSlot_of_ne _ _ outside.1.2, slot_setSlot_of_ne _ _ outside.1.1]

/-! ### Every operation is bounded -/

/-- Every operation of a table runs a bounded time, whatever the table and whatever
words the random source gives. A placement takes at most `max (3 * log) 1` eviction
rounds and writes at most two slots in each. A rebuild asked for size `log` makes
`n ≤ rebuildAttempts * (maxLog - log + 1)` attempts, drawing two words for each: it
succeeds at the `n`-th, at size `log + (n - 1) / rebuildAttempts` since the size goes
up after every `rebuildAttempts` failures, and notes the `n - 1` failures; or it gives
up with `Capacity` after exactly `rebuildAttempts * (maxLog + 1 - log)` attempts. An
insert makes at most two rebuilds and a removal one, so they make at most
`2 * rebuildAttempts * (maxLog + 1 - log)` and `rebuildAttempts * (maxLog + 2 - log)`
attempts. -/
theorem table_operations_bounded (c : CuckooTable α) (env : Env) (e : UInt32 × α) (log : Nat)
    (extra : Option (UInt32 × α)) (key : UInt32) (value : α) :
    (∃ S : Finset (Fin 2 × Nat), S.card ≤ 2 * max (3 * c.log) 1 ∧
      ∀ t i, (t, i) ∉ S → (c.place e).2.slot t i = c.slot t i) ∧
    (∃ n, n ≤ rebuildAttempts * (IdTable.maxLog - log + 1) ∧
      (c.rebuild log extra env).2.2.rng.taken = env.rng.taken + 2 * n ∧
      (((c.rebuild log extra env).1 = .ok () ∧ 0 < n ∧
          (c.rebuild log extra env).2.1.log = log + (n - 1) / rebuildAttempts ∧
          (c.rebuild log extra env).2.2.notes =
            env.notes ++ [.rebuilt (c.rebuild log extra env).2.1.log c.len (n - 1)]) ∨
        ((c.rebuild log extra env).1 = .error (.full IdTable.maxLog) ∧
          n = rebuildAttempts * (IdTable.maxLog + 1 - log)))) ∧
    (c.insert key value env).2.2.rng.taken ≤
      env.rng.taken + 2 * (2 * rebuildAttempts * (IdTable.maxLog + 1 - c.log)) ∧
    (c.remove key env).2.2.rng.taken ≤
      env.rng.taken + 2 * (rebuildAttempts * (IdTable.maxLog + 2 - c.log)) := by
  refine ⟨evict_touches c.rounds c e, ?_, insert_draws c key value env, remove_draws c key env⟩
  obtain ⟨n, drawn, bound, outcome⟩ := rebuild_count c log extra env
  simp only [Nat.zero_mod, Nat.zero_add, Nat.sub_zero] at bound outcome
  refine ⟨n, bound.trans (Nat.mul_le_mul_left _ (by omega)), drawn, ?_⟩
  rcases outcome with ⟨ok, pos, sized, noted⟩ | ⟨failed, all, -⟩
  · exact .inl ⟨ok, pos, sized, noted⟩
  · exact .inr ⟨failed, all⟩

end TreeDump.CuckooTable
