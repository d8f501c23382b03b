import Mathlib
import TreeDump.CuckooTable

/-!
The layout of a cuckoo table, and what keeps it.

A table is in shape (`Homed`) when both tables have `2 ^ log` slots, with
`minLog ≤ log ≤ maxLog`, and every occupied slot holds a non-zero key at that key's
own index; its layout (`Layout`) adds that no key sits in two slots and that `len`
counts the occupied slots.

Owns: the slot lemmas (`slot_setSlot`, `entries_setSlot_perm`); one lemma per
placement step saying what it keeps and how it moves the pairs, as a permutation of
tables, homeless entry and pending entries (`swap_spec`, `evict_spec`, `fill_spec`,
`requeue_spec`); the rebuild loop (`rebuildFrom_spec`): it ends with every pending
entry at its slot, or gives up with empty tables, through any number of failed
attempts; and the public operations, each of which keeps the layout.
-/

namespace TreeDump.CuckooTable

variable {α : Type}

/-! ### Slots -/

theorem filterMap_id_cons {β : Type} (a : Option β) (l : List (Option β)) :
    (a :: l).filterMap id = a.toList ++ l.filterMap id := by
  cases a <;> rfl

/-- Writing slot `i` of a list trades what it held for what is written. -/
theorem filterMap_set_perm {β : Type} (l : List (Option β)) {i : Nat} (hi : i < l.length)
    (s : Option β) :
    ((l.set i s).filterMap id ++ (l.getD i none).toList).Perm (s.toList ++ l.filterMap id) := by
  induction l generalizing i with
  | nil => simp at hi
  | cons a l ih =>
    cases i with
    | zero =>
      simp only [List.set_cons_zero, List.getD_cons_zero, filterMap_id_cons]
      rw [← Multiset.coe_eq_coe]
      simp only [← Multiset.coe_add]
      abel
    | succ j =>
      have below := ih (i := j) (by simpa using hi)
      simp only [List.set_cons_succ, List.getD_cons_succ, filterMap_id_cons]
      rw [← Multiset.coe_eq_coe] at below ⊢
      simp only [← Multiset.coe_add] at below ⊢
      rw [add_assoc, below]
      abel

/-- A key's index lies below the number of slots. -/
theorem index_lt (c : CuckooTable α) (t : Fin 2) (key : UInt32) (pos : 0 < c.log)
    (le : c.log ≤ 32) : c.index t key < 2 ^ c.log := by
  have shift : (32 - c.log).toUInt32.toNat % 32 = 32 - c.log := by
    rw [Nat.toUInt32, UInt32.toNat_ofNat']
    omega
  simp only [index, UInt32.toNat_shiftRight, shift, Nat.shiftRight_eq_div_pow]
  rw [Nat.div_lt_iff_lt_mul (by positivity), ← Nat.pow_add, Nat.add_sub_cancel' le]
  exact UInt32.toNat_lt _

@[simp] theorem mul_setSlot (c : CuckooTable α) (t : Fin 2) (i : Nat) (s : Slot α) :
    (c.setSlot t i s).mul = c.mul := rfl

@[simp] theorem log_setSlot (c : CuckooTable α) (t : Fin 2) (i : Nat) (s : Slot α) :
    (c.setSlot t i s).log = c.log := rfl

@[simp] theorem len_setSlot (c : CuckooTable α) (t : Fin 2) (i : Nat) (s : Slot α) :
    (c.setSlot t i s).len = c.len := rfl

@[simp] theorem index_setSlot (c : CuckooTable α) (t : Fin 2) (i : Nat) (s : Slot α) :
    (c.setSlot t i s).index = c.index := rfl

@[simp] theorem length_setSlot (c : CuckooTable α) (t u : Fin 2) (i : Nat) (s : Slot α) :
    ((c.setSlot t i s).tables u).length = (c.tables u).length := by
  by_cases same : u = t <;> simp [setSlot, same]

theorem slot_setSlot (c : CuckooTable α) (t u : Fin 2) (i j : Nat) (s : Slot α) :
    (c.setSlot t i s).slot u j =
      if u = t ∧ i = j ∧ i < (c.tables t).length then s else c.slot u j := by
  by_cases same : u = t
  · subst same
    by_cases at_i : i = j
    · subst at_i
      by_cases inside : i < (c.tables u).length <;>
        simp [slot, setSlot, List.getD_eq_getElem?_getD, inside]
    · simp [slot, setSlot, List.getD_eq_getElem?_getD, at_i]
  · simp [slot, setSlot, same]

/-- Writing a slot trades the pair it held for the one written. -/
theorem entries_setSlot_perm (c : CuckooTable α) (t : Fin 2) {i : Nat}
    (hi : i < (c.tables t).length) (s : Slot α) :
    ((c.setSlot t i s).entries ++ (c.slot t i).toList).Perm (s.toList ++ c.entries) := by
  have written := filterMap_set_perm (c.tables t) hi s
  rw [← Multiset.coe_eq_coe] at written ⊢
  simp only [← Multiset.coe_add] at written
  fin_cases t
  · simp only [entries, setSlot, slot, Fin.zero_eta, if_true, Fin.isValue,
      show (1 : Fin 2) ≠ 0 by decide, if_false, ← Multiset.coe_add] at written ⊢
    rw [add_right_comm, written, add_assoc]
  · simp only [entries, setSlot, slot, Fin.mk_one, if_true, Fin.isValue,
      show (0 : Fin 2) ≠ 1 by decide, if_false, ← Multiset.coe_add] at written ⊢
    rw [add_assoc, written, add_left_comm]

/-! ### Tables in shape -/

/-- Tables in shape: `2 ^ log` slots in each, with `minLog ≤ log ≤ maxLog`, and every
occupied slot holding a non-zero key at that key's own index. -/
structure Homed (c : CuckooTable α) : Prop where
  logGe : IdTable.minLog ≤ c.log
  logLe : c.log ≤ IdTable.maxLog
  length : ∀ t, (c.tables t).length = c.capacity
  home : ∀ t i k v, c.slot t i = some (k, v) → k ≠ 0 ∧ c.index t k = i

/-- The layout of a table: in shape, no key in two slots, and `len` counting the
occupied slots. -/
structure Layout (c : CuckooTable α) : Prop extends c.Homed where
  nodup : (c.entries.map (·.1)).Nodup
  count : c.len = c.entries.length

theorem Homed.index_lt_length {c : CuckooTable α} (homed : c.Homed) (t : Fin 2) (key : UInt32) :
    c.index t key < (c.tables t).length := by
  have bounds : IdTable.minLog ≤ c.log ∧ c.log ≤ IdTable.maxLog := ⟨homed.logGe, homed.logLe⟩
  simp only [IdTable.minLog, IdTable.maxLog] at bounds
  rw [homed.length t, capacity, Nat.pow_eq]
  exact index_lt c t key (by omega) (by omega)

/-- A slot written with nothing, or with a non-zero key at its own index, keeps the
tables in shape. -/
theorem Homed.setSlot {c : CuckooTable α} (homed : c.Homed) (t : Fin 2) (i : Nat) {s : Slot α}
    (fits : ∀ k v, s = some (k, v) → k ≠ 0 ∧ c.index t k = i) : (c.setSlot t i s).Homed where
  logGe := homed.logGe
  logLe := homed.logLe
  length u := by simpa [capacity] using homed.length u
  home u j k v held := by
    rw [slot_setSlot] at held
    split at held
    · rename_i here
      obtain ⟨rfl, rfl, -⟩ := here
      simpa using fits k v held
    · simpa using homed.home u j k v held

/-! ### Placement -/

/-- What a placement step keeps: the tables stay in shape, with their multipliers,
size and count. -/
structure Rearranged (c c' : CuckooTable α) : Prop where
  homed : c'.Homed
  mul : c'.mul = c.mul
  log : c'.log = c.log
  len : c'.len = c.len

theorem Rearranged.trans {c c' c'' : CuckooTable α} (first : Rearranged c c')
    (second : Rearranged c' c'') : Rearranged c c'' where
  homed := second.homed
  mul := second.mul.trans first.mul
  log := second.log.trans first.log
  len := second.len.trans first.len

/-- Pairs that only entries with non-zero keys can be. -/
def KeyedSlot (s : Slot α) : Prop := ∀ k v, s = some (k, v) → k ≠ 0

/-- A swap puts the entry at its own slot and hands back what was there. -/
theorem swap_spec {c : CuckooTable α} (homed : c.Homed) (t : Fin 2) {e : UInt32 × α}
    (key : e.1 ≠ 0) {s : Slot α} {c' : CuckooTable α} (h : c.swap t e = (s, c')) :
    Rearranged c c' ∧ (c'.entries ++ s.toList).Perm (e :: c.entries) ∧ KeyedSlot s := by
  simp only [swap, Prod.mk.injEq] at h
  obtain ⟨rfl, rfl⟩ := h
  have inside := homed.index_lt_length t e.1
  refine ⟨⟨homed.setSlot t _ ?_, rfl, rfl, rfl⟩, entries_setSlot_perm c t inside _, ?_⟩
  · rintro k v ⟨⟩
    exact ⟨key, rfl⟩
  · intro k v held
    exact (homed.home t _ k v held).1

/-- Eviction rounds keep the tables in shape and lose no entry: either all are placed,
or exactly one is handed back. -/
theorem evict_spec (n : Nat) {c : CuckooTable α} (homed : c.Homed) {e : UInt32 × α}
    (key : e.1 ≠ 0) {s : Slot α} {c' : CuckooTable α} (h : evict n c e = (s, c')) :
    Rearranged c c' ∧ (c'.entries ++ s.toList).Perm (e :: c.entries) ∧ KeyedSlot s := by
  induction n generalizing c e with
  | zero =>
    simp only [evict, Prod.mk.injEq] at h
    obtain ⟨rfl, rfl⟩ := h
    refine ⟨⟨homed, rfl, rfl, rfl⟩, List.perm_append_singleton e _, ?_⟩
    rintro k v ⟨⟩
    exact key
  | succ n ih =>
    rw [evict] at h
    rcases first : c.swap 0 e with ⟨s0, c0⟩
    obtain ⟨moved0, perm0, keyed0⟩ := swap_spec homed 0 key first
    rw [first] at h
    cases s0 with
    | none =>
      simp only [Prod.mk.injEq] at h
      obtain ⟨rfl, rfl⟩ := h
      exact ⟨moved0, by simpa using perm0, fun k v none_eq => by cases none_eq⟩
    | some e0 =>
      have key0 : e0.1 ≠ 0 := keyed0 e0.1 e0.2 rfl
      rcases second : c0.swap 1 e0 with ⟨s1, c1⟩
      obtain ⟨moved1, perm1, keyed1⟩ := swap_spec moved0.homed 1 key0 second
      -- what the second swap hands back, and the first's evicted entry, are the same pairs
      have chain : (c1.entries ++ s1.toList).Perm (e :: c.entries) :=
        perm1.trans ((List.perm_append_singleton e0 c0.entries).symm.trans perm0)
      simp only [second] at h
      cases s1 with
      | none =>
        simp only [Prod.mk.injEq] at h
        obtain ⟨rfl, rfl⟩ := h
        exact ⟨moved0.trans moved1, chain, fun k v none_eq => by cases none_eq⟩
      | some e1 =>
        obtain ⟨moved, perm, keyed⟩ := ih moved1.homed (keyed1 e1.1 e1.2 rfl) h
        exact ⟨moved0.trans (moved1.trans moved),
          perm.trans ((List.perm_append_singleton e1 c1.entries).symm.trans chain), keyed⟩

theorem place_spec {c : CuckooTable α} (homed : c.Homed) {e : UInt32 × α} (key : e.1 ≠ 0)
    {s : Slot α} {c' : CuckooTable α} (h : c.place e = (s, c')) :
    Rearranged c c' ∧ (c'.entries ++ s.toList).Perm (e :: c.entries) ∧ KeyedSlot s :=
  evict_spec c.rounds homed key h

/-- Entries with non-zero keys only. -/
def Keyed (es : List (UInt32 × α)) : Prop := ∀ e ∈ es, e.1 ≠ 0

/-- The entries a fill leaves over: the one without a slot and those not yet tried. -/
def leftover : Option ((UInt32 × α) × List (UInt32 × α)) → List (UInt32 × α)
  | none => []
  | some (h, rest) => h :: rest

/-- Filling places pending entries in turn and loses none: the tables, the entry left
without a slot and the entries not yet tried hold the pairs the tables and the
pending entries held. -/
theorem fill_spec (pending : List (UInt32 × α)) {c : CuckooTable α} (homed : c.Homed)
    (keyed : Keyed pending) {r : Option ((UInt32 × α) × List (UInt32 × α))} {c' : CuckooTable α}
    (h : c.fill pending = (r, c')) :
    Rearranged c c' ∧ (c'.entries ++ leftover r).Perm (c.entries ++ pending) ∧
      Keyed (leftover r) := by
  induction pending generalizing c with
  | nil =>
    simp only [fill, Prod.mk.injEq] at h
    obtain ⟨rfl, rfl⟩ := h
    exact ⟨⟨homed, rfl, rfl, rfl⟩, List.Perm.refl _, by simp [leftover, Keyed]⟩
  | cons e rest ih =>
    have key : e.1 ≠ 0 := keyed e List.mem_cons_self
    rw [fill] at h
    rcases placed : c.place e with ⟨s, c1⟩
    obtain ⟨moved, perm, keyedSlot⟩ := place_spec homed key placed
    -- the tables after placing `e`, with the rest still pending, hold what `c` and all the pending entries held
    have before : (c1.entries ++ s.toList ++ rest).Perm (c.entries ++ e :: rest) :=
      (perm.append_right rest).trans List.perm_middle.symm
    rw [placed] at h
    cases s with
    | none =>
      obtain ⟨moved', perm', keyed'⟩ :=
        ih moved.homed (fun e' member => keyed e' (List.mem_cons_of_mem e member)) h
      exact ⟨moved.trans moved', perm'.trans (by simpa using before), keyed'⟩
    | some h0 =>
      simp only [Prod.mk.injEq] at h
      obtain ⟨rfl, rfl⟩ := h
      refine ⟨moved, by simpa [leftover] using before, ?_⟩
      intro e' member
      rcases List.mem_cons.mp member with rfl | later
      · exact keyedSlot e'.1 e'.2 rfl
      · exact keyed e' (List.mem_cons_of_mem e later)

/-! ### Draining and fresh tables -/

@[simp] theorem entries_drain (c : CuckooTable α) : c.drain.2.entries = [] := by
  simp [drain, entries]

@[simp] theorem fst_drain (c : CuckooTable α) : c.drain.1 = c.entries := rfl

@[simp] theorem len_drain (c : CuckooTable α) : c.drain.2.len = 0 := rfl

@[simp] theorem log_drain (c : CuckooTable α) : c.drain.2.log = c.log := rfl

theorem Homed.drain {c : CuckooTable α} (homed : c.Homed) : c.drain.2.Homed where
  logGe := homed.logGe
  logLe := homed.logLe
  length t := by simpa [CuckooTable.drain, capacity] using homed.length t
  home t i k v held := by
    simp only [CuckooTable.drain, slot, List.getD_eq_getElem?_getD, List.getElem?_replicate] at held
    split at held <;> simp at held

theorem requeue_eq (c : CuckooTable α) (h : UInt32 × α) (rest : List (UInt32 × α)) :
    c.requeue h rest = (c.entries.reverse ++ h :: rest, c.drain.2) := rfl

/-- After a failed attempt the pending entries are again every pair of the attempt:
those placed, the one without a slot and those not tried. -/
theorem requeue_perm (c : CuckooTable α) (h : UInt32 × α) (rest : List (UInt32 × α)) :
    (c.requeue h rest).1.Perm (c.entries ++ h :: rest) := by
  rw [requeue_eq]
  exact (List.reverse_perm _).append_right _

@[simp] theorem log_withLog (log : Nat) (env : Env) : (withLog log env : CuckooTable α × Env).1.log = log := rfl

@[simp] theorem len_withLog (log : Nat) (env : Env) : (withLog log env : CuckooTable α × Env).1.len = 0 := rfl

@[simp] theorem entries_withLog (log : Nat) (env : Env) :
    (withLog log env : CuckooTable α × Env).1.entries = [] := by
  simp [withLog, entries]

theorem homed_withLog {log : Nat} (ge : IdTable.minLog ≤ log) (le : log ≤ IdTable.maxLog)
    (env : Env) : (withLog log env : CuckooTable α × Env).1.Homed where
  logGe := ge
  logLe := le
  length t := by simp [withLog, capacity]
  home t i k v held := by
    simp only [withLog, slot, List.getD_eq_getElem?_getD, List.getElem?_replicate] at held
    split at held <;> simp at held

theorem mem_entries {c : CuckooTable α} {e : UInt32 × α} (member : e ∈ c.entries) :
    ∃ t i, c.slot t i = some e := by
  simp only [entries, List.mem_append, List.mem_filterMap, id_eq, exists_eq_right] at member
  rcases member with inside | inside
  · obtain ⟨i, at_i⟩ := List.mem_iff_getElem?.mp inside
    exact ⟨0, i, by simp [slot, List.getD_eq_getElem?_getD, at_i]⟩
  · obtain ⟨i, at_i⟩ := List.mem_iff_getElem?.mp inside
    exact ⟨1, i, by simp [slot, List.getD_eq_getElem?_getD, at_i]⟩

theorem slot_mem_entries {c : CuckooTable α} {t : Fin 2} {i : Nat} {e : UInt32 × α}
    (held : c.slot t i = some e) : e ∈ c.entries := by
  simp only [slot, List.getD_eq_getElem?_getD] at held
  have inside : some e ∈ c.tables t := by
    rcases at_i : (c.tables t)[i]? with _ | s
    · simp [at_i] at held
    · simp only [at_i, Option.getD_some] at held
      subst held
      exact List.mem_of_getElem? at_i
  simp only [entries, List.mem_append, List.mem_filterMap, id_eq, exists_eq_right]
  rcases (by decide : ∀ u : Fin 2, u = 0 ∨ u = 1) t with rfl | rfl
  · exact .inl inside
  · exact .inr inside

theorem Homed.keyed {c : CuckooTable α} (homed : c.Homed) : Keyed c.entries := by
  intro e member
  obtain ⟨t, i, held⟩ := mem_entries member
  exact (homed.home t i e.1 e.2 held).1

@[simp] theorem entries_withLen (c : CuckooTable α) (len : Nat) :
    ({ c with len } : CuckooTable α).entries = c.entries := rfl

/-- The count is no part of the shape. -/
theorem Homed.withLen {c : CuckooTable α} (homed : c.Homed) (len : Nat) :
    ({ c with len } : CuckooTable α).Homed :=
  ⟨homed.logGe, homed.logLe, homed.length, homed.home⟩

/-! ### Rebuilds -/

/-- Tables in shape holding the pairs `pairs`, in some order, with the count `len` and
a size of at least `log`. -/
structure Holding (pairs : List (UInt32 × α)) (len log : Nat) (c : CuckooTable α) : Prop where
  homed : c.Homed
  perm : c.entries.Perm pairs
  len : c.len = len
  logGe : log ≤ c.log

/-- Empty tables in shape. -/
structure Emptied (c : CuckooTable α) : Prop where
  homed : c.Homed
  entries : c.entries = []
  len : c.len = 0

/-- How a rebuild of `pairs` may end: every pair placed, or nothing left at all when the
tables cannot grow any further. -/
def RebuildEnds (pairs : List (UInt32 × α)) (len log : Nat)
    (out : Except TableError Unit × CuckooTable α × Env) : Prop :=
  (out.1 = .ok () ∧ Holding pairs len log out.2.1) ∨
    (out.1 = .error (.full IdTable.maxLog) ∧ Emptied out.2.1)

theorem Holding.perm_pairs {pairs pairs' : List (UInt32 × α)} {len log : Nat} {c : CuckooTable α}
    (holding : Holding pairs len log c) (same : pairs.Perm pairs') : Holding pairs' len log c :=
  ⟨holding.homed, holding.perm.trans same, holding.len, holding.logGe⟩

theorem RebuildEnds.perm_pairs {pairs pairs' : List (UInt32 × α)} {len log : Nat}
    {out : Except TableError Unit × CuckooTable α × Env} (ends : RebuildEnds pairs len log out)
    (same : pairs.Perm pairs') : RebuildEnds pairs' len log out := by
  rcases ends with ⟨ok, holding⟩ | failed
  · exact .inl ⟨ok, holding.perm_pairs same⟩
  · exact .inr failed

theorem RebuildEnds.logGe_le {pairs : List (UInt32 × α)} {len log log' : Nat}
    {out : Except TableError Unit × CuckooTable α × Env} (ends : RebuildEnds pairs len log out)
    (le : log' ≤ log) : RebuildEnds pairs len log' out := by
  rcases ends with ⟨ok, holding⟩ | failed
  · exact .inl ⟨ok, ⟨holding.homed, holding.perm, holding.len, le.trans holding.logGe⟩⟩
  · exact .inr failed

theorem RebuildEnds.homed {pairs : List (UInt32 × α)} {len log : Nat}
    {out : Except TableError Unit × CuckooTable α × Env} (ends : RebuildEnds pairs len log out) :
    out.2.1.Homed := by
  rcases ends with ⟨-, holding⟩ | ⟨-, emptied⟩
  · exact holding.homed
  · exact emptied.homed

/-- How a rebuild loop ends, whatever the multipliers: with every pending entry at its
slot and the count set, at the size asked for or larger; or, once the size would pass
`2 ^ maxLog`, with empty tables in shape. The failed attempts on the way lose no
entry: each one hands all of them on to the next. -/
theorem rebuildFrom_spec (len : Nat) (c : CuckooTable α) (log attempts : Nat)
    (pending : List (UInt32 × α)) (env : Env) (emptied : Emptied c)
    (logGe : IdTable.minLog ≤ log) (keyed : Keyed pending) :
    RebuildEnds pending len log (rebuildFrom len c log attempts pending env) := by
  fun_induction rebuildFrom len c log attempts pending env with
  | case1 c log attempts pending env beyond =>
    exact .inr ⟨rfl, emptied⟩
  | case2 c log attempts pending env0 within fresh env made c' filled =>
    have freshHomed : fresh.Homed := by
      simpa [made] using (homed_withLog (α := α) logGe (Nat.le_of_not_lt within) env0)
    have freshEmpty : fresh.entries = [] := by simpa [made] using (entries_withLog (α := α) log env0)
    have freshLog : fresh.log = log := by simpa [made] using (log_withLog (α := α) log env0)
    obtain ⟨moved, perm, -⟩ := fill_spec pending freshHomed keyed filled
    refine .inl ⟨rfl, moved.homed.withLen len, ?_, rfl, ?_⟩
    · simpa [leftover, freshEmpty] using perm
    · exact (moved.log.trans freshLog).ge
  | case3 c log attempts pending env0 within fresh env made h rest c1 filled placed c2 requeued ih =>
    have freshHomed : fresh.Homed := by
      simpa [made] using (homed_withLog (α := α) logGe (Nat.le_of_not_lt within) env0)
    have freshEmpty : fresh.entries = [] := by simpa [made] using (entries_withLog (α := α) log env0)
    obtain ⟨moved, perm, keyedLeft⟩ := fill_spec pending freshHomed keyed filled
    rw [requeue_eq, Prod.mk.injEq] at requeued
    obtain ⟨rfl, rfl⟩ := requeued
    -- the entries handed to the next attempt are the pending entries of this one
    have again : (c1.entries.reverse ++ h :: rest).Perm pending := by
      have := ((List.reverse_perm c1.entries).append_right (h :: rest)).trans perm
      simpa [freshEmpty] using this
    have keyedAgain : Keyed (c1.entries.reverse ++ h :: rest) := by
      intro e member
      rcases List.mem_append.mp member with placedHere | left
      · exact moved.homed.keyed e (List.mem_reverse.mp placedHere)
      · exact keyedLeft e left
    have grows : log ≤ (if (attempts + 1) % rebuildAttempts = 0 then log + 1 else log) := by
      split <;> omega
    have next := ih ⟨moved.homed.drain, entries_drain c1, len_drain c1⟩ (logGe.trans grows) keyedAgain
    exact (next.perm_pairs again).logGe_le grows

theorem rebuild_eq (c : CuckooTable α) (log : Nat) (extra : Option (UInt32 × α)) (env : Env) :
    c.rebuild log extra env =
      rebuildFrom c.len c.drain.2 log 0 (extra.toList ++ c.entries.reverse) env := rfl

/-- A rebuild of tables in shape places every pair, and the extra entry, again, or gives
up with nothing left. -/
theorem rebuild_spec {c : CuckooTable α} (homed : c.Homed) (log : Nat)
    (logGe : IdTable.minLog ≤ log) (extra : Option (UInt32 × α)) (keyedExtra : KeyedSlot extra)
    (env : Env) : RebuildEnds (extra.toList ++ c.entries) c.len log (c.rebuild log extra env) := by
  rw [rebuild_eq]
  have keyed : Keyed (extra.toList ++ c.entries.reverse) := by
    intro e member
    rcases List.mem_append.mp member with fromExtra | fromTables
    · exact keyedExtra e.1 e.2 (Option.mem_toList.mp fromExtra)
    · exact homed.keyed e (List.mem_reverse.mp fromTables)
  exact (rebuildFrom_spec c.len _ log 0 _ env ⟨homed.drain, entries_drain c, len_drain c⟩ logGe keyed).perm_pairs
    ((List.reverse_perm c.entries).append_left _)

/-! ### Finding keys -/

theorem holdsKey_eq_true {c : CuckooTable α} {t : Fin 2} {i : Nat} {key : UInt32} :
    c.holdsKey t i key = true ↔ ∃ v, c.slot t i = some (key, v) := by
  unfold holdsKey
  split <;> simp_all

/-- A key is found where it sits. -/
theorem find_eq_some {c : CuckooTable α} {key : UInt32} {t : Fin 2} {i : Nat}
    (found : c.find key = some (t, i)) : ∃ v, c.slot t i = some (key, v) := by
  unfold find at found
  split at found
  · rename_i held
    simp only [Option.some.injEq, Prod.mk.injEq] at found
    obtain ⟨rfl, rfl⟩ := found
    exact holdsKey_eq_true.mp held
  · split at found
    · rename_i held
      simp only [Option.some.injEq, Prod.mk.injEq] at found
      obtain ⟨rfl, rfl⟩ := found
      exact holdsKey_eq_true.mp held
    · cases found

/-- In tables in shape, a key that is held is found: it sits at its own slot, and that
is where `find` looks. -/
theorem Homed.find_isSome {c : CuckooTable α} (homed : c.Homed) {key : UInt32}
    (member : key ∈ c.entries.map (·.1)) : (c.find key).isSome := by
  obtain ⟨e, inside, rfl⟩ := List.mem_map.mp member
  obtain ⟨t, i, held⟩ := mem_entries inside
  have own := (homed.home t i e.1 e.2 held).2
  have holds : c.holdsKey t (c.index t e.1) e.1 = true := holdsKey_eq_true.mpr ⟨e.2, by rw [own]; exact held⟩
  unfold find
  rcases (by decide : ∀ u : Fin 2, u = 0 ∨ u = 1) t with rfl | rfl
  · simp [holds]
  · split <;> simp_all

theorem mem_of_find_eq_some {c : CuckooTable α} {key : UInt32} {t : Fin 2} {i : Nat}
    (found : c.find key = some (t, i)) : key ∈ c.entries.map (·.1) := by
  obtain ⟨v, held⟩ := find_eq_some found
  exact List.mem_map_of_mem (f := (·.1)) (slot_mem_entries held)

/-- Tables in shape contain exactly the non-zero keys of their pairs. -/
theorem Homed.contains_iff {c : CuckooTable α} (homed : c.Homed) {key : UInt32} :
    c.contains key = true ↔ key ≠ 0 ∧ key ∈ c.entries.map (·.1) := by
  simp only [contains, Bool.and_eq_true, bne_iff_ne, ne_eq]
  refine and_congr_right fun _ => ⟨fun found => ?_, homed.find_isSome⟩
  rcases finding : c.find key with _ | ⟨t, i⟩
  · rw [finding] at found
    cases found
  · exact mem_of_find_eq_some finding

/-- A key the table contains is found, at a slot that holds it. -/
theorem found_of_contains {c : CuckooTable α} {key : UInt32} (present : c.contains key = true) :
    ∃ t i v, c.find key = some (t, i) ∧ c.slot t i = some (key, v) := by
  simp only [contains, Bool.and_eq_true] at present
  obtain ⟨⟨t, i⟩, found⟩ := Option.isSome_iff_exists.mp present.2
  obtain ⟨v, held⟩ := find_eq_some found
  exact ⟨t, i, v, found, held⟩

theorem Homed.not_mem_of_find_eq_none {c : CuckooTable α} (homed : c.Homed) {key : UInt32}
    (absent : c.find key = none) : key ∉ c.entries.map (·.1) := fun member => by
  have found := homed.find_isSome member
  rw [absent] at found
  cases found

/-! ### Inserts -/

theorem grow_spec {c : CuckooTable α} (homed : c.Homed) (env : Env) :
    RebuildEnds c.entries c.len c.log (c.grow env) := by
  unfold grow
  split
  · have grown := rebuild_spec homed (c.log + 1) (Nat.le_succ_of_le homed.logGe) none
      (fun _ _ none_eq => by cases none_eq) env
    simpa using grown.logGe_le (Nat.le_succ c.log)
  · exact .inl ⟨rfl, homed, List.Perm.refl _, rfl, le_rfl⟩

theorem settle_spec {c : CuckooTable α} (homed : c.Homed) {e : UInt32 × α} (key : e.1 ≠ 0)
    (env : Env) : RebuildEnds (e :: c.entries) c.len c.log (c.settle e env) := by
  unfold settle
  rcases placed : c.place e with ⟨s, c'⟩
  obtain ⟨moved, perm, keyedSlot⟩ := place_spec homed key placed
  cases s with
  | none => exact .inl ⟨rfl, moved.homed, by simpa using perm, moved.len, moved.log.ge⟩
  | some h =>
    dsimp only
    have rebuilt := rebuild_spec moved.homed c'.log moved.homed.logGe (some h) keyedSlot env
    rw [moved.len] at rebuilt
    exact (rebuilt.perm_pairs ((List.perm_append_comm).trans perm)).logGe_le moved.log.ge

theorem insert_zero (c : CuckooTable α) (value : α) (env : Env) :
    c.insert 0 value env = (.error .reserved, c, env) := by
  simp [insert]

theorem insert_of_find {c : CuckooTable α} {key : UInt32} {t : Fin 2} {i : Nat}
    (found : c.find key = some (t, i)) (nonzero : key ≠ 0) (value : α) (env : Env) :
    c.insert key value env = (.error (.duplicate key.toNat), c, env) := by
  simp [insert, nonzero, found]

/-- An insert of a new non-zero key into tables in shape ends with the new pair held
besides the old ones and the count one up; or, when the tables cannot grow any
further, with nothing left at all. -/
theorem insert_spec {c : CuckooTable α} (homed : c.Homed) {key : UInt32} (nonzero : key ≠ 0)
    (fresh : c.find key = none) (value : α) (env : Env) :
    RebuildEnds ((key, value) :: c.entries) (c.len + 1) c.log (c.insert key value env) := by
  have grown := grow_spec homed env
  simp only [insert, nonzero, fresh, if_false, Option.isSome_none, Bool.false_eq_true]
  rcases growing : c.grow env with ⟨r1, c1, env1⟩
  rw [growing] at grown
  rcases grown with ⟨rfl, holding1⟩ | ⟨rfl, emptied⟩
  · dsimp only at holding1
    have settled := settle_spec holding1.homed (e := (key, value)) nonzero env1
    dsimp only
    rcases settling : c1.settle (key, value) env1 with ⟨r2, c2, env2⟩
    rw [settling] at settled
    rcases settled with ⟨rfl, holding2⟩ | ⟨rfl, emptied⟩
    · dsimp only at holding2 ⊢
      refine .inl ⟨rfl, holding2.homed.withLen _, ?_, ?_, ?_⟩
      · exact holding2.perm.trans (holding1.perm.cons _)
      · simp [holding2.len, holding1.len]
      · exact holding1.logGe.trans holding2.logGe
    · exact .inr ⟨rfl, emptied⟩
  · exact .inr ⟨rfl, emptied⟩

/-! ### Removals and changes in place -/

/-- A shrink keeps every pair, at a size at most halved; or, when its rebuild fails,
leaves nothing and notes the failure. -/
theorem shrink_spec {c : CuckooTable α} (homed : c.Homed) (env : Env) :
    Holding c.entries c.len (c.log - 1) (c.shrink env).1 ∨
      (Emptied (c.shrink env).1 ∧
        ∃ notes, (c.shrink env).2.notes = notes ++ [.shrinkFailed (.full IdTable.maxLog)]) := by
  unfold shrink
  split
  · rename_i sparse
    have rebuilt := rebuild_spec homed (c.log - 1) (by omega) none
      (fun _ _ none_eq => by cases none_eq) env
    rcases rebuilding : c.rebuild (c.log - 1) none env with ⟨r, c', env'⟩
    rw [rebuilding] at rebuilt
    rcases rebuilt with ⟨rfl, holding⟩ | ⟨rfl, emptied⟩
    · exact .inl (by simpa using holding)
    · exact .inr ⟨emptied, _, rfl⟩
  · exact .inl ⟨homed, List.Perm.refl _, rfl, Nat.sub_le _ _⟩

theorem remove_zero (c : CuckooTable α) (env : Env) : c.remove 0 env = (none, c, env) := by
  simp [remove]

theorem remove_of_find_eq_none {c : CuckooTable α} {key : UInt32} (absent : c.find key = none)
    (env : Env) : c.remove key env = (none, c, env) := by
  by_cases zero : key = 0
  · subst zero
    exact remove_zero c env
  · simp [remove, zero, absent]

/-- The tables with the slot of a removed key emptied and the count one down. -/
def without (c : CuckooTable α) (t : Fin 2) (i : Nat) : CuckooTable α :=
  { c.setSlot t i none with len := c.len - 1 }

theorem entries_without (c : CuckooTable α) (t : Fin 2) (i : Nat) :
    (c.without t i).entries = (c.setSlot t i none).entries := rfl

theorem remove_eq {c : CuckooTable α} {key : UInt32} (nonzero : key ≠ 0) {t : Fin 2} {i : Nat}
    (found : c.find key = some (t, i)) {v : α} (held : c.slot t i = some (key, v)) (env : Env) :
    c.remove key env = (some v, ((c.without t i).shrink env).1, ((c.without t i).shrink env).2) := by
  simp [remove, nonzero, found, held, without]

/-- Emptying the slot of a held key leaves exactly the pairs with the other keys. -/
theorem entries_without_perm {c : CuckooTable α} (layout : c.Layout) {key : UInt32} {t : Fin 2}
    {i : Nat} {v : α} (held : c.slot t i = some (key, v)) :
    (c.without t i).entries.Perm (c.entries.filter (·.1 != key)) ∧
      (c.without t i).entries.length + 1 = c.entries.length := by
  have inside : i < (c.tables t).length := by
    rw [← (layout.home t i key v held).2]
    exact layout.index_lt_length t key
  have traded : ((c.without t i).entries ++ [(key, v)]).Perm c.entries := by
    simpa [entries_without, held] using entries_setSlot_perm c t inside none
  -- no other slot holds `key`, since the keys of `c` are distinct
  have others : ∀ e ∈ (c.without t i).entries, (e.1 != key) = true := by
    have distinct := (traded.map (·.1)).nodup_iff.mpr layout.nodup
    simp only [List.map_append, List.map_cons, List.map_nil] at distinct
    intro e member
    have apart := List.disjoint_of_nodup_append distinct (List.mem_map_of_mem member)
    simp only [List.mem_singleton] at apart
    simpa using apart
  refine ⟨?_, by simpa using traded.length_eq⟩
  have filtered := traded.filter (·.1 != key)
  rw [List.filter_append, List.filter_eq_self.mpr others] at filtered
  simpa using filtered

/-- Removing a held key gives its value and ends with exactly the pairs of the other
keys and the count one down, at a size at most halved; or, when the shrink that
follows fails, with nothing left and the failure noted. -/
theorem remove_spec {c : CuckooTable α} (layout : c.Layout) {key : UInt32} (nonzero : key ≠ 0)
    {t : Fin 2} {i : Nat} (found : c.find key = some (t, i)) {v : α}
    (held : c.slot t i = some (key, v)) (env : Env) :
    (c.remove key env).1 = some v ∧
      (Holding (c.entries.filter (·.1 != key)) (c.len - 1) (c.log - 1) (c.remove key env).2.1 ∨
        (Emptied (c.remove key env).2.1 ∧
          ∃ notes, (c.remove key env).2.2.notes = notes ++ [.shrinkFailed (.full IdTable.maxLog)])) := by
  rw [remove_eq nonzero found held env]
  have homedWithout : (c.without t i).Homed :=
    (layout.toHomed.setSlot t i (fun _ _ none_eq => by cases none_eq)).withLen _
  obtain ⟨perm, -⟩ := entries_without_perm layout held
  refine ⟨rfl, ?_⟩
  rcases shrink_spec homedWithout env with holding | failed
  · exact .inl (holding.perm_pairs perm)
  · exact .inr failed

/-- Changing a value in place keeps the keys where they are. -/
theorem modify?_spec {c : CuckooTable α} (homed : c.Homed) {key : UInt32} {f : α → α}
    {c' : CuckooTable α} (changed : c.modify? key f = some c') :
    c'.Homed ∧ (c'.entries.map (·.1)).Perm (c.entries.map (·.1)) ∧ c'.len = c.len := by
  unfold modify? at changed
  split at changed
  · cases changed
  · split at changed
    · rename_i t i found
      obtain ⟨v, held⟩ := find_eq_some found
      rw [held] at changed
      simp only [Option.map_some, Option.some.injEq] at changed
      subst changed
      have own := homed.home t i key v held
      have inside : i < (c.tables t).length := by
        rw [← own.2]
        exact homed.index_lt_length t key
      have traded := (entries_setSlot_perm c t inside (some (key, f v))).map (·.1)
      rw [held] at traded
      simp only [Option.toList_some, List.map_append, List.map_cons, List.map_nil,
        List.singleton_append] at traded
      refine ⟨homed.setSlot t i ?_, (List.perm_append_singleton _ _).symm.trans traded |>.cons_inv, rfl⟩
      rintro k w ⟨⟩
      exact own
    · cases changed

/-! ### The layout through every operation -/

theorem Layout.of_holding {pairs : List (UInt32 × α)} {len log : Nat} {c : CuckooTable α}
    (holding : Holding pairs len log c) (distinct : (pairs.map (·.1)).Nodup)
    (counted : len = pairs.length) : c.Layout where
  toHomed := holding.homed
  nodup := (holding.perm.map (·.1)).nodup_iff.mpr distinct
  count := by rw [holding.len, counted, holding.perm.length_eq]

theorem Layout.of_emptied {c : CuckooTable α} (emptied : Emptied c) : c.Layout where
  toHomed := emptied.homed
  nodup := by simp [emptied.entries]
  count := by simp [emptied.entries, emptied.len]

theorem RebuildEnds.layout {pairs : List (UInt32 × α)} {len log : Nat}
    {out : Except TableError Unit × CuckooTable α × Env} (ends : RebuildEnds pairs len log out)
    (distinct : (pairs.map (·.1)).Nodup) (counted : len = pairs.length) : out.2.1.Layout := by
  rcases ends with ⟨-, holding⟩ | ⟨-, emptied⟩
  · exact .of_holding holding distinct counted
  · exact .of_emptied emptied

theorem layout_new (env : Env) : (new env : CuckooTable α × Env).1.Layout :=
  .of_emptied ⟨homed_withLog (by decide) (by decide) env, entries_withLog _ env, rfl⟩

theorem Layout.drain {c : CuckooTable α} (layout : c.Layout) : c.drain.2.Layout :=
  .of_emptied ⟨layout.toHomed.drain, entries_drain c, len_drain c⟩

theorem Layout.insert {c : CuckooTable α} (layout : c.Layout) (key : UInt32) (value : α)
    (env : Env) : (c.insert key value env).2.1.Layout := by
  by_cases zero : key = 0
  · simpa [zero, insert_zero] using layout
  rcases finding : c.find key with _ | ⟨t, i⟩
  · have fresh := layout.not_mem_of_find_eq_none finding
    refine (insert_spec layout.toHomed zero finding value env).layout ?_ ?_
    · exact List.nodup_cons.mpr ⟨fresh, layout.nodup⟩
    · simp [layout.count]
  · simpa [insert_of_find finding zero] using layout

theorem Layout.remove {c : CuckooTable α} (layout : c.Layout) (key : UInt32) (env : Env) :
    (c.remove key env).2.1.Layout := by
  by_cases zero : key = 0
  · simpa [zero, remove_zero] using layout
  rcases finding : c.find key with _ | ⟨t, i⟩
  · simpa [remove_of_find_eq_none finding] using layout
  · obtain ⟨v, held⟩ := find_eq_some finding
    obtain ⟨perm, shorter⟩ := entries_without_perm layout held
    rcases (remove_spec layout zero finding held env).2 with holding | ⟨emptied, -⟩
    · refine .of_holding holding ?_ ?_
      · exact (layout.nodup.sublist (List.Sublist.map _ List.filter_sublist))
      · rw [← perm.length_eq, layout.count]
        omega
    · exact .of_emptied emptied

theorem Layout.modify? {c : CuckooTable α} (layout : c.Layout) {key : UInt32} {f : α → α}
    {c' : CuckooTable α} (changed : c.modify? key f = some c') : c'.Layout := by
  obtain ⟨homed, keys, len⟩ := modify?_spec layout.toHomed changed
  refine ⟨homed, keys.nodup_iff.mpr layout.nodup, ?_⟩
  have same := keys.length_eq
  simp only [List.length_map] at same
  rw [len, layout.count, same]

/-- The layout of a table holds of a fresh table and after every insert, removal,
change in place and drain, whichever multipliers the rebuilds on the way draw and
however many of their attempts fail: both tables have `2 ^ log` slots with
`minLog ≤ log ≤ maxLog`, every occupied slot holds a non-zero key at that key's own
index, no key is in two slots, and `len` counts the occupied slots. Underneath, a
placement either puts every entry at its own slot or hands back exactly one entry,
and an attempt of a rebuild neither loses nor adds an entry: the tables, the entry
left without a slot and the entries still pending hold the pairs the tables and the
pending entries held, and a failed attempt hands them all on to the next. -/
theorem cuckoo_layout_kept (env : Env) :
    (new env : CuckooTable α × Env).1.Layout ∧
    (∀ (c : CuckooTable α), c.Layout → ∀ key value env,
      (c.insert key value env).2.1.Layout ∧ (c.remove key env).2.1.Layout ∧
      (∀ f c', c.modify? key f = some c' → c'.Layout) ∧ c.drain.2.Layout) ∧
    (∀ (c : CuckooTable α) e s c', c.Homed → e.1 ≠ 0 → c.place e = (s, c') →
      c'.Homed ∧ (c'.entries ++ s.toList).Perm (e :: c.entries)) ∧
    (∀ (c : CuckooTable α) pending r c', c.Homed → Keyed pending → c.fill pending = (r, c') →
      c'.Homed ∧ (c'.entries ++ leftover r).Perm (c.entries ++ pending)) ∧
    (∀ (c : CuckooTable α) h rest,
      (c.requeue h rest).1.Perm (c.entries ++ h :: rest) ∧ (c.requeue h rest).2.entries = []) := by
  refine ⟨layout_new env, ?_, ?_, ?_, ?_⟩
  · intro c layout key value env
    exact ⟨layout.insert key value env, layout.remove key env,
      fun _ _ changed => layout.modify? changed, layout.drain⟩
  · intro c e s c' homed key placed
    obtain ⟨moved, perm, -⟩ := place_spec homed key placed
    exact ⟨moved.homed, perm⟩
  · intro c pending r c' homed keyed filled
    obtain ⟨moved, perm, -⟩ := fill_spec pending homed keyed filled
    exact ⟨moved.homed, perm⟩
  · intro c h rest
    exact ⟨requeue_perm c h rest, entries_drain c⟩

end TreeDump.CuckooTable
