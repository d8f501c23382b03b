import Mathlib
import TreeDump.Proofs.CuckooAttempts

/-!
What failed inserts and removals leave behind.

A rebuild drains the tables into its pending entries before it knows whether it will
succeed, and when it gives up for Capacity it leaves the last tables it drained. So
an insert refused for key `0` or for a key already held changes nothing, but one that
gives up for Capacity leaves empty tables with the count `0`; and a removal whose
shrink gives up leaves empty tables too, after noting the failure.

Whether a rebuild gives up depends on the words the random source draws. A source
that repeats one word makes every multiplier the same. With multiplier `1` a key under
`4` has slot `0` in both tables at every size up to `2 ^ maxLog`, and tables in shape
hold at most two such keys: the third drives every rebuild to the limit.

Owns: `Env.Repeats`, `Drawn` and the lemmas that keep the multipliers through every
operation under such a source; `index_small` and `Homed.length_le_two`, the crowding
argument; `insert_crowded_fails`; `zeroSource` and `crowded`, a table holding keys `1`
and `2` drawn from a source of `0`s.

Does not own: how likely a random source is to repeat itself.
-/

namespace TreeDump.CuckooTable

variable {α : Type}

/-! ### Multipliers under a source that repeats one word -/

/-- Every word the source draws is `w`. -/
def Env.Repeats (env : Env) (w : UInt32) : Prop := ∀ n, env.rng.words n = w

/-- Tables whose multipliers are `w ||| 1`, with a source that draws `w` only. -/
structure Drawn (w : UInt32) (s : CuckooTable α × Env) : Prop where
  mul : ∀ t, s.1.mul t = w ||| 1
  repeats : s.2.Repeats w

@[simp] theorem mul_evict (n : Nat) (c : CuckooTable α) (e : UInt32 × α) :
    (evict n c e).2.mul = c.mul :=
  evict_keeps (P := fun c' => c'.mul = c.mul) (fun _ _ _ _ same => by simp [same]) n c e rfl

@[simp] theorem mul_fill (c : CuckooTable α) (pending : List (UInt32 × α)) :
    (c.fill pending).2.mul = c.mul :=
  fill_keeps (P := fun c' => c'.mul = c.mul) (fun _ _ _ _ same => by simp [same]) c pending rfl

theorem drawn_fill {w : UInt32} {c : CuckooTable α} {env : Env} (drawn : Drawn w (c, env))
    (pending : List (UInt32 × α)) : Drawn w ((c.fill pending).2, env) :=
  ⟨fun t => by rw [mul_fill]; exact drawn.mul t, drawn.repeats⟩

theorem drawn_place {w : UInt32} {c : CuckooTable α} {env : Env} (drawn : Drawn w (c, env))
    (e : UInt32 × α) : Drawn w ((c.place e).2, env) :=
  ⟨fun t => by rw [place, mul_evict]; exact drawn.mul t, drawn.repeats⟩

theorem drawn_withLog {w : UInt32} {env : Env} (repeats : env.Repeats w) (log : Nat) :
    Drawn w (withLog log env : CuckooTable α × Env) where
  mul t := by simp [withLog, Rng.next, repeats env.rng.taken, repeats (env.rng.taken + 1)]
  repeats := repeats

/-- Under a source repeating `w`, a rebuild loop that starts from tables with
multipliers `w ||| 1` ends with such tables: fresh ones, or those it started from. -/
theorem drawn_rebuildFrom {w : UInt32} (len : Nat) (c : CuckooTable α) (log attempts : Nat)
    (pending : List (UInt32 × α)) (env : Env) (drawn : Drawn w (c, env)) :
    Drawn w (rebuildFrom len c log attempts pending env).2 := by
  fun_induction rebuildFrom len c log attempts pending env with
  | case1 c log attempts pending env beyond => exact drawn
  | case2 c log attempts pending env0 within fresh env made c' filled =>
    have freshDrawn : Drawn w (fresh, env) := by
      rw [← made]
      exact drawn_withLog drawn.repeats log
    have filledDrawn := drawn_fill freshDrawn pending
    rw [filled] at filledDrawn
    exact ⟨filledDrawn.mul, filledDrawn.repeats⟩
  | case3 c log attempts pending env0 within fresh env made h rest c1 filled placed c2 requeued
      ih =>
    have freshDrawn : Drawn w (fresh, env) := by
      rw [← made]
      exact drawn_withLog drawn.repeats log
    have filledDrawn := drawn_fill freshDrawn pending
    rw [filled] at filledDrawn
    rw [requeue_eq, Prod.mk.injEq] at requeued
    obtain ⟨-, rfl⟩ := requeued
    exact ih ⟨filledDrawn.mul, filledDrawn.repeats⟩

theorem drawn_rebuild {w : UInt32} {c : CuckooTable α} {env : Env} (drawn : Drawn w (c, env))
    (log : Nat) (extra : Option (UInt32 × α)) : Drawn w (c.rebuild log extra env).2 := by
  rw [rebuild_eq]
  exact drawn_rebuildFrom _ _ _ _ _ _ ⟨drawn.mul, drawn.repeats⟩

theorem drawn_grow {w : UInt32} {c : CuckooTable α} {env : Env} (drawn : Drawn w (c, env)) :
    Drawn w (c.grow env).2 := by
  unfold grow
  split
  · exact drawn_rebuild drawn _ none
  · exact drawn

theorem drawn_settle {w : UInt32} {c : CuckooTable α} {env : Env} (drawn : Drawn w (c, env))
    (e : UInt32 × α) : Drawn w (c.settle e env).2 := by
  unfold settle
  have placedDrawn := drawn_place drawn e
  rcases placing : c.place e with ⟨_ | h, c'⟩
  all_goals rw [placing] at placedDrawn
  · exact placedDrawn
  · exact drawn_rebuild placedDrawn _ _

theorem drawn_insert {w : UInt32} {c : CuckooTable α} {env : Env} (drawn : Drawn w (c, env))
    (key : UInt32) (value : α) : Drawn w (c.insert key value env).2 := by
  unfold insert
  split
  · exact drawn
  split
  · exact drawn
  have grown := drawn_grow drawn
  rcases growing : c.grow env with ⟨r1, c1, env1⟩
  rw [growing] at grown
  rcases r1 with e | ⟨⟩
  · exact grown
  dsimp only
  have settled := drawn_settle grown (key, value)
  rcases settling : c1.settle (key, value) env1 with ⟨r2, c2, env2⟩
  rw [settling] at settled
  rcases r2 with e | ⟨⟩
  · exact settled
  · exact ⟨settled.mul, settled.repeats⟩

/-! ### Crowded tables -/

/-- With multiplier `1`, a key under `4` has slot `0` at every size from `4` to
`2 ^ maxLog`: the product is the key itself, and the shift drops at least two bits. -/
theorem index_small {c : CuckooTable α} (homed : c.Homed) {t : Fin 2} (one : c.mul t = 1)
    {key : UInt32} (small : key.toNat < 4) : c.index t key = 0 := by
  have logGe := homed.logGe
  have logLe := homed.logLe
  simp only [IdTable.minLog, IdTable.maxLog] at logGe logLe
  rw [index, one, one_mul, UInt32.toNat_shiftRight]
  simp only [Nat.toUInt32, UInt32.toNat_ofNat']
  rw [Nat.shiftRight_eq_div_pow]
  apply Nat.div_eq_of_lt
  have shift : (32 - c.log) % 2 ^ 32 % 32 = 32 - c.log := by omega
  rw [shift]
  calc key.toNat < 2 ^ 2 := small
    _ ≤ 2 ^ (32 - c.log) := Nat.pow_le_pow_right (by decide) (by omega)

/-- A table of tables in shape holds at most one pair whose key has slot `0` there:
every pair sits at its own slot, so all of them sit at the first. -/
theorem Homed.length_filterMap_le_one {c : CuckooTable α} (homed : c.Homed) (t : Fin 2)
    (bottom : ∀ e ∈ c.entries, c.index t e.1 = 0) : ((c.tables t).filterMap id).length ≤ 1 := by
  rcases listed : c.tables t with _ | ⟨first, rest⟩
  · simp
  · have empty : ∀ s ∈ rest, s = none := by
      intro s member
      rcases s with _ | e
      · rfl
      obtain ⟨j, at_j⟩ := List.mem_iff_getElem?.mp member
      have held : c.slot t (j + 1) = some e := by
        simp [slot, listed, at_j]
      have own := (homed.home t (j + 1) e.1 e.2 held).2
      rw [bottom e (slot_mem_entries held)] at own
      omega
    have rest_nil : rest.filterMap (fun s => s) = [] :=
      List.filterMap_eq_nil_iff.mpr fun s member => by simp [empty s member]
    cases first <;> simp [rest_nil]

/-- Tables in shape hold at most two pairs whose keys have slot `0` in both tables. -/
theorem Homed.length_le_two {c : CuckooTable α} (homed : c.Homed)
    (bottom : ∀ e ∈ c.entries, ∀ t, c.index t e.1 = 0) : c.entries.length ≤ 2 := by
  have first := homed.length_filterMap_le_one 0 fun e member => bottom e member 0
  have second := homed.length_filterMap_le_one 1 fun e member => bottom e member 1
  simp only [entries, List.length_append]
  omega

/-- Under a source of `0`s, an insert that brings the keys under `4` of tables with
multiplier `1` to three gives up for Capacity, and leaves empty tables. -/
theorem insert_crowded_fails {c : CuckooTable α} (homed : c.Homed) {env : Env}
    (drawn : Drawn 0 (c, env)) {key : UInt32} (nonzero : key ≠ 0) (fresh : c.find key = none)
    (value : α) (smallKey : key.toNat < 4) (small : ∀ e ∈ c.entries, e.1.toNat < 4)
    (two : c.entries.length = 2) :
    (c.insert key value env).1 = .error (.full IdTable.maxLog) ∧
      Emptied (c.insert key value env).2.1 := by
  rcases insert_spec homed nonzero fresh value env with ⟨-, holding⟩ | failed
  · exfalso
    have ones : ∀ t, (c.insert key value env).2.1.mul t = 1 := (drawn_insert drawn key value).mul
    -- all three keys are in the tables, and all have slot `0` in both
    have bottom : ∀ e ∈ (c.insert key value env).2.1.entries, ∀ t,
        (c.insert key value env).2.1.index t e.1 = 0 := by
      intro e member t
      refine index_small holding.homed (ones t) ?_
      rcases List.mem_cons.mp (holding.perm.mem_iff.mp member) with rfl | old
      · exact smallKey
      · exact small e old
    have three := holding.perm.length_eq
    have atMost := holding.homed.length_le_two bottom
    simp only [List.length_cons, two] at three
    omega
  · exact failed

/-! ### A table that loses its pairs -/

/-- A source that draws `0` only: every multiplier is `1`. -/
def zeroSource : Env := { rng := { words := fun _ => 0 } }

/-- Keys `1` and `2` inserted into a fresh table drawn from `zeroSource`. -/
def crowded : CuckooTable Nat × Env :=
  let fresh : CuckooTable Nat × Env := new zeroSource
  let first := (fresh.1.insert 1 10 fresh.2).2
  (first.1.insert 2 20 first.2).2

theorem crowded_entries : crowded.1.entries = [(2, 20), (1, 10)] := by decide

theorem crowded_len : crowded.1.len = 2 := by decide

theorem crowded_layout : crowded.1.Layout :=
  ((layout_new zeroSource).insert 1 10 (new zeroSource).2).insert 2 20 _

theorem crowded_drawn : Drawn 0 crowded :=
  drawn_insert (drawn_insert (drawn_withLog (fun _ => rfl) IdTable.minLog) 1 10) 2 20

/-- An insert that gives up for Capacity loses the pairs held before it: the table
holding keys `1` and `2` ends empty, with the count `0`, after a failed insert of
key `3`. -/
theorem crowded_insert_loses_pairs :
    crowded.1.entries = [(2, 20), (1, 10)] ∧ crowded.1.len = 2 ∧
      (crowded.1.insert 3 30 crowded.2).1 = .error (.full IdTable.maxLog) ∧
      (crowded.1.insert 3 30 crowded.2).2.1.entries = [] ∧
      (crowded.1.insert 3 30 crowded.2).2.1.len = 0 := by
  have missing : crowded.1.find 3 = none := by decide
  have small : ∀ e ∈ crowded.1.entries, e.1.toNat < 4 := by
    rw [crowded_entries]
    decide
  obtain ⟨failed, emptied⟩ := insert_crowded_fails crowded_layout.toHomed crowded_drawn
    (by decide) missing 30 (by decide) small (by rw [crowded_entries]; rfl)
  exact ⟨crowded_entries, crowded_len, failed, emptied.entries, emptied.len⟩

/-! ### What failed updates leave -/

/-- What failed updates of a table in layout leave. An insert refused for key `0` or
for a key already held leaves the table and the log as they were; one that gives up
for Capacity leaves empty tables with the count `0`. A removal of a held key gives its
value and leaves exactly the other pairs, or, when its shrink gives up, empty tables
with the count `0` and the failure noted. -/
theorem failed_updates_keep_or_empty {c : CuckooTable α} (layout : c.Layout) (key : UInt32)
    (value : α) (env : Env) :
    (∀ e, (c.insert key value env).1 = .error e →
      (e ≠ .full IdTable.maxLog ∧ (c.insert key value env).2 = (c, env)) ∨
        (e = .full IdTable.maxLog ∧ (c.insert key value env).2.1.entries = [] ∧
          (c.insert key value env).2.1.len = 0)) ∧
    (c.contains key = true → ∃ v, (key, v) ∈ c.entries ∧ (c.remove key env).1 = some v ∧
      (((c.remove key env).2.1.entries.Perm (c.entries.filter (·.1 != key)) ∧
          (c.remove key env).2.1.len = c.len - 1) ∨
        ((c.remove key env).2.1.entries = [] ∧ (c.remove key env).2.1.len = 0 ∧
          ∃ notes, (c.remove key env).2.2.notes =
            notes ++ [.shrinkFailed (.full IdTable.maxLog)]))) := by
  constructor
  · intro e failed
    by_cases zero : key = 0
    · subst zero
      rw [insert_zero] at failed ⊢
      cases failed
      exact .inl ⟨by simp, rfl⟩
    rcases finding : c.find key with _ | ⟨t, i⟩
    · -- a new key: the insert ends in a rebuild's outcome
      rcases insert_spec layout.toHomed zero finding value env with ⟨ok, -⟩ | ⟨full, emptied⟩
      · rw [ok] at failed
        cases failed
      · rw [full] at failed
        cases failed
        exact .inr ⟨rfl, emptied.entries, emptied.len⟩
    · rw [insert_of_find finding zero] at failed ⊢
      cases failed
      exact .inl ⟨by simp, rfl⟩
  · intro present
    have nonzero : key ≠ 0 := (layout.toHomed.contains_iff.mp present).1
    obtain ⟨t, i, v, found, held⟩ := found_of_contains present
    obtain ⟨removed, outcome⟩ := remove_spec layout nonzero found held env
    refine ⟨v, slot_mem_entries held, removed, ?_⟩
    rcases outcome with holding | ⟨emptied, noted⟩
    · exact .inl ⟨holding.perm, holding.len⟩
    · exact .inr ⟨emptied.entries, emptied.len, noted⟩

theorem crowded_failed_updates :
    crowded.1.Layout ∧
      ∀ e, (crowded.1.insert 3 30 crowded.2).1 = .error e →
        (e ≠ .full IdTable.maxLog ∧
            (crowded.1.insert 3 30 crowded.2).2 = (crowded.1, crowded.2)) ∨
          (e = .full IdTable.maxLog ∧ (crowded.1.insert 3 30 crowded.2).2.1.entries = [] ∧
            (crowded.1.insert 3 30 crowded.2).2.1.len = 0) :=
  ⟨crowded_layout, (failed_updates_keep_or_empty crowded_layout 3 30 crowded.2).1⟩

end TreeDump.CuckooTable
