import Mathlib
import TreeDump.IdTable

/-!
Tables of pending directories, as finite maps.

Owns: the well-formedness of an `IdTable` (distinct positive keys, fewer keys than
slots, never more than `2 ^ maxLog` slots); that `insert`, `erase?` and `modify?`
keep it; and what each of them does to the value of every key and to the number
of keys.

The one bound that matters to a reader of the table: an insert of a new positive
key succeeds exactly when the table then holds fewer than `2 ^ maxLog` keys
(`insert_isOk_iff`). The capacity may have grown and shrunk in any pattern before;
only the well-formedness is needed to see that.
-/

namespace TreeDump.IdTable

variable {α : Type}

/-- The keys of a table, in the order of its pairs. -/
def keys (t : IdTable α) : List Nat := t.entries.map (·.1)

/-- The number of keys no table reaches: the largest capacity. -/
def limit : Nat := Nat.pow 2 maxLog

/-- A table as its operations leave it: distinct positive keys, fewer keys than
slots, and at most `2 ^ maxLog` slots. -/
structure WellFormed (t : IdTable α) : Prop where
  nodup : t.keys.Nodup
  positive : ∀ k ∈ t.keys, k ≠ 0
  below : t.size < t.capacity
  logLe : t.log ≤ maxLog

@[simp] theorem size_empty : (empty : IdTable α).size = 0 := rfl

@[simp] theorem get?_empty (k : Nat) : (empty : IdTable α).get? k = none := by
  simp [empty, get?]

theorem wellFormed_empty : (empty : IdTable α).WellFormed where
  nodup := by simp [keys, empty]
  positive := by simp [keys, empty]
  below := by simp [empty, size, capacity]
  logLe := by simp [empty, maxLog]

@[simp] theorem get?_zero (t : IdTable α) : t.get? 0 = none := by
  simp [get?]

theorem get?_of_ne_zero (t : IdTable α) {k : Nat} (hk : k ≠ 0) :
    t.get? k = (t.entries.find? (·.1 == k)).map (·.2) := by
  simp [get?, hk]

theorem get?_eq_none_of_not_mem {t : IdTable α} {k : Nat} (absent : k ∉ t.keys) :
    t.get? k = none := by
  by_cases hk : k = 0
  · simp [hk]
  · rw [get?_of_ne_zero t hk, Option.map_eq_none_iff, List.find?_eq_none]
    intro e member same
    exact absent (List.mem_map.mpr ⟨e, member, by simpa using same⟩)

theorem mem_keys_of_get?_eq_some {t : IdTable α} {k : Nat} {v : α} (found : t.get? k = some v) :
    k ∈ t.keys := by
  by_contra absent
  rw [get?_eq_none_of_not_mem absent] at found
  cases found

/-- A table of at most one key holding `k` holds `k` alone. -/
theorem keys_eq_singleton {t : IdTable α} {k : Nat} (member : k ∈ t.keys) (small : t.size ≤ 1) :
    t.keys = [k] := by
  have length : t.keys.length ≤ 1 := by simpa [keys, size] using small
  rcases keysEq : t.keys with _ | ⟨a, _ | ⟨b, rest⟩⟩
  · rw [keysEq] at member
    cases member
  · rw [keysEq, List.mem_singleton] at member
    rw [member]
  · rw [keysEq] at length
    simp at length

theorem exists_get?_of_mem_keys {t : IdTable α} {k : Nat} (positive : k ≠ 0) (member : k ∈ t.keys) :
    ∃ v, t.get? k = some v := by
  obtain ⟨e, inside, key⟩ := List.mem_map.mp member
  have found : (t.entries.find? (·.1 == k)).isSome := List.find?_isSome.mpr ⟨e, inside, by simp [key]⟩
  obtain ⟨e', found'⟩ := Option.isSome_iff_exists.mp found
  exact ⟨e'.2, by rw [get?_of_ne_zero t positive, found']; rfl⟩

theorem contains_eq (t : IdTable α) (k : Nat) : t.contains k = (t.get? k).isSome := rfl

theorem capacity_eq (t : IdTable α) : t.capacity = 2 ^ t.log := Nat.pow_eq

/-- The capacity of a well-formed table is at most the limit. -/
theorem WellFormed.capacity_le {t : IdTable α} (wf : t.WellFormed) : t.capacity ≤ limit :=
  Nat.pow_le_pow_right (by decide) wf.logLe

/-- A well-formed table holds fewer keys than the limit. -/
theorem WellFormed.size_lt_limit {t : IdTable α} (wf : t.WellFormed) : t.size < limit :=
  Nat.lt_of_lt_of_le wf.below wf.capacity_le

/-! ### Insert -/

theorem insert_zero (t : IdTable α) (v : α) : t.insert 0 v = .error .reserved := by
  simp [insert]

theorem insert_of_get?_eq_some {t : IdTable α} {k : Nat} {w : α} (found : t.get? k = some w)
    (v : α) : t.insert k v = .error (.duplicate k) := by
  have hk : k ≠ 0 := by
    rintro rfl
    simp at found
  simp [insert, hk, contains_eq, found]

/-- The capacity an insert into `t` leaves. -/
private theorem insert_eq (t : IdTable α) {k : Nat} (hk : k ≠ 0) (fresh : t.get? k = none)
    (v : α) :
    t.insert k v =
      let log := if t.size + 1 ≥ t.capacity then t.log + 1 else t.log
      if maxLog < log then .error (.full maxLog)
      else .ok { entries := t.entries ++ [(k, v)], log } := by
  simp [insert, hk, contains_eq, fresh]

/-- An insert of a new positive key into a well-formed table succeeds exactly when
the table then holds fewer keys than the limit. -/
theorem insert_isOk_iff {t : IdTable α} (wf : t.WellFormed) {k : Nat} (hk : k ≠ 0)
    (fresh : t.get? k = none) (v : α) :
    (t.insert k v).isOk ↔ t.size + 1 < limit := by
  rw [insert_eq t hk fresh]
  have below := wf.below
  have logLe := wf.logLe
  simp only [capacity, limit, Nat.pow_eq] at below ⊢
  by_cases grows : t.size + 1 ≥ 2 ^ t.log
  · have full : t.size + 1 = 2 ^ t.log := by omega
    simp only [grows, if_true]
    rw [full]
    by_cases top : t.log = maxLog
    · simp [top, Except.isOk, Except.toBool]
    · have room : 2 ^ t.log < 2 ^ maxLog := Nat.pow_lt_pow_right (by decide) (by omega)
      simp [show ¬ maxLog < t.log + 1 by omega, Except.isOk, Except.toBool, room]
  · have fits : t.size + 1 < 2 ^ maxLog :=
      Nat.lt_of_lt_of_le (by omega) (Nat.pow_le_pow_right (by decide) logLe)
    simp [grows, show ¬ maxLog < t.log by omega, Except.isOk, Except.toBool, fits]

theorem exists_insert_eq_ok {t : IdTable α} (wf : t.WellFormed) {k : Nat} (hk : k ≠ 0)
    (fresh : t.get? k = none) (v : α) (room : t.size + 1 < limit) :
    ∃ t', t.insert k v = .ok t' := by
  have isOk := (insert_isOk_iff wf hk fresh v).mpr room
  cases inserted : t.insert k v with
  | error e => simp [inserted, Except.isOk, Except.toBool] at isOk
  | ok t' => exact ⟨t', rfl⟩

theorem exists_insert_eq_error {t : IdTable α} (wf : t.WellFormed) {k : Nat} (hk : k ≠ 0)
    (fresh : t.get? k = none) (v : α) (full : limit ≤ t.size + 1) :
    ∃ e, t.insert k v = .error e := by
  have notOk : ¬ (t.insert k v).isOk := fun isOk =>
    absurd ((insert_isOk_iff wf hk fresh v).mp isOk) (Nat.not_lt.mpr full)
  cases inserted : t.insert k v with
  | error e => exact ⟨e, rfl⟩
  | ok t' => simp [inserted, Except.isOk, Except.toBool] at notOk

section Inserted

variable {t t' : IdTable α} {k : Nat} {v : α}

/-- What an insert that succeeds did: a new positive key appended, the capacity doubled
when the table would have filled. -/
theorem insert_eq_ok_cases (h : t.insert k v = .ok t') :
    k ≠ 0 ∧ t.get? k = none ∧ t'.entries = t.entries ++ [(k, v)] ∧
      t'.log = (if t.size + 1 ≥ t.capacity then t.log + 1 else t.log) ∧ t'.log ≤ maxLog := by
  have hk : k ≠ 0 := by
    rintro rfl
    simp [insert_zero] at h
  cases fresh : t.get? k with
  | some w => simp [insert_of_get?_eq_some fresh] at h
  | none =>
    rw [insert_eq t hk fresh] at h
    dsimp only at h
    by_cases big : maxLog < (if t.size + 1 ≥ t.capacity then t.log + 1 else t.log)
    · rw [if_pos big] at h
      cases h
    · rw [if_neg big, Except.ok.injEq] at h
      subst h
      exact ⟨hk, rfl, rfl, rfl, Nat.le_of_not_lt big⟩

theorem get?_of_insert_eq_ok (h : t.insert k v = .ok t') (j : Nat) :
    t'.get? j = if j = k then some v else t.get? j := by
  obtain ⟨hk, fresh, entries, -, -⟩ := insert_eq_ok_cases h
  by_cases hj : j = 0
  · subst hj
    simp [Ne.symm hk]
  rw [get?_of_ne_zero t' hj, get?_of_ne_zero t hj, entries, List.find?_append]
  by_cases same : j = k
  · subst same
    rw [get?_of_ne_zero t hj, Option.map_eq_none_iff] at fresh
    simp [fresh]
  · have skip : ((k, v).1 == j) = false := by simpa using Ne.symm same
    cases (t.entries.find? (·.1 == j)) <;> simp [same, skip]

theorem size_of_insert_eq_ok (h : t.insert k v = .ok t') : t'.size = t.size + 1 := by
  obtain ⟨-, -, entries, -, -⟩ := insert_eq_ok_cases h
  simp [size, entries]

theorem keys_of_insert_eq_ok (h : t.insert k v = .ok t') : t'.keys = t.keys ++ [k] := by
  obtain ⟨-, -, entries, -, -⟩ := insert_eq_ok_cases h
  simp [keys, entries]

/-- A key is inserted only where the table holds none. -/
theorem not_mem_keys_of_insert_eq_ok (h : t.insert k v = .ok t') : k ∉ t.keys := fun member => by
  obtain ⟨hk, fresh, -, -, -⟩ := insert_eq_ok_cases h
  obtain ⟨e, eMem, eKey⟩ := List.mem_map.mp member
  rw [get?_of_ne_zero t hk, Option.map_eq_none_iff, List.find?_eq_none] at fresh
  exact fresh e eMem (by simp [eKey])

theorem WellFormed.of_insert (wf : t.WellFormed) (h : t.insert k v = .ok t') : t'.WellFormed := by
  obtain ⟨hk, -, -, log, logLe⟩ := insert_eq_ok_cases h
  have absent := not_mem_keys_of_insert_eq_ok h
  have keysEq := keys_of_insert_eq_ok h
  have below := wf.below
  refine ⟨?_, ?_, ?_, logLe⟩
  · rw [keysEq, List.nodup_append]
    refine ⟨wf.nodup, List.nodup_singleton k, ?_⟩
    simp only [List.mem_singleton]
    rintro j member _ rfl rfl
    exact absent member
  · rw [keysEq]
    simp only [List.mem_append, List.mem_singleton]
    rintro j (member | rfl)
    · exact wf.positive j member
    · exact hk
  · rw [size_of_insert_eq_ok h, capacity_eq, log]
    rw [capacity_eq] at below
    by_cases grows : t.size + 1 ≥ t.capacity
    · rw [if_pos grows, Nat.pow_succ]
      rw [capacity_eq] at grows
      omega
    · rw [if_neg grows]
      rw [capacity_eq] at grows
      omega

end Inserted

/-! ### Erase -/

theorem erase?_eq_none_iff (t : IdTable α) (k : Nat) : t.erase? k = none ↔ t.get? k = none := by
  simp [erase?]

section Erased

variable {t t' : IdTable α} {k : Nat} {v : α}

/-- What a removal that finds its key did: the key's pairs filtered out, the capacity
halved when under a quarter of it stays in use. -/
theorem erase?_eq_some_cases (h : t.erase? k = some (v, t')) :
    t.get? k = some v ∧ t'.entries = t.entries.filter (·.1 != k) ∧
      (t'.log = t.log ∨ (minLog < t.log ∧ t'.entries.length < Nat.pow 2 (t.log - 2) ∧
        t'.log = t.log - 1)) := by
  simp only [erase?, Option.map_eq_some_iff, Prod.mk.injEq] at h
  obtain ⟨w, found, rfl, rfl⟩ := h
  refine ⟨found, rfl, ?_⟩
  split_ifs with shrink
  · exact .inr ⟨shrink.1, shrink.2, rfl⟩
  · exact .inl rfl

theorem get?_of_erase?_eq_some (h : t.erase? k = some (v, t')) (j : Nat) :
    t'.get? j = if j = k then none else t.get? j := by
  obtain ⟨-, entries, -⟩ := erase?_eq_some_cases h
  by_cases hj : j = 0
  · subst hj
    simp
  rw [get?_of_ne_zero t' hj, entries, List.find?_filter]
  by_cases same : j = k
  · subst same
    simp only [if_true, Option.map_eq_none_iff, List.find?_eq_none]
    intro e _
    simp
  · rw [if_neg same, get?_of_ne_zero t hj]
    congr 2
    funext e
    by_cases ej : e.1 = j
    · simp [ej, same]
    · simp [ej]

theorem get?_of_erase?_eq_some_self (h : t.erase? k = some (v, t')) : t.get? k = some v :=
  (erase?_eq_some_cases h).1

theorem exists_erase?_eq_some (found : t.get? k = some v) : ∃ t', t.erase? k = some (v, t') := by
  cases erased : t.erase? k with
  | none =>
      rw [erase?_eq_none_iff] at erased
      simp [erased] at found
  | some pair =>
      obtain ⟨w, t'⟩ := pair
      have same := get?_of_erase?_eq_some_self erased
      rw [found, Option.some.injEq] at same
      exact ⟨t', by rw [same]⟩

theorem size_of_erase?_eq_some (wf : t.WellFormed) (h : t.erase? k = some (v, t')) :
    t'.size + 1 = t.size := by
  obtain ⟨found, entries, -⟩ := erase?_eq_some_cases h
  have member := mem_keys_of_get?_eq_some found
  have counted : (t.keys.filter (· != k)).length + 1 = t.keys.length := by
    rw [← wf.nodup.erase_eq_filter, List.length_erase_of_mem member]
    have nonempty : 0 < t.keys.length := List.length_pos_of_mem member
    omega
  simpa [size, entries, keys, List.filter_map, Function.comp_def] using counted

theorem mem_keys_of_erase?_eq_some (h : t.erase? k = some (v, t')) : k ∈ t.keys :=
  mem_keys_of_get?_eq_some (get?_of_erase?_eq_some_self h)

theorem keys_of_erase?_eq_some (h : t.erase? k = some (v, t')) : t'.keys = t.keys.filter (· != k) := by
  obtain ⟨-, entries, -⟩ := erase?_eq_some_cases h
  simp [keys, entries, List.filter_map, Function.comp_def]

theorem WellFormed.of_erase? (wf : t.WellFormed) (h : t.erase? k = some (v, t')) :
    t'.WellFormed := by
  have sizeEq := size_of_erase?_eq_some wf h
  obtain ⟨-, -, log⟩ := erase?_eq_some_cases h
  have keysEq := keys_of_erase?_eq_some h
  have below := wf.below
  have logLe := wf.logLe
  refine ⟨?_, ?_, ?_, ?_⟩
  · rw [keysEq]
    exact wf.nodup.filter _
  · rw [keysEq]
    intro j member
    exact wf.positive j (List.mem_of_mem_filter member)
  · simp only [capacity, size] at below sizeEq ⊢
    rcases log with same | ⟨bigger, small, shrunk⟩
    · rw [same]
      omega
    · rw [shrunk]
      have halves : Nat.pow 2 (t.log - 2) ≤ Nat.pow 2 (t.log - 1) :=
        Nat.pow_le_pow_right (by decide) (by omega)
      omega
  · rcases log with same | ⟨-, -, shrunk⟩ <;> omega

end Erased

/-! ### Modify -/

theorem modify?_eq_none_iff (t : IdTable α) (k : Nat) (f : α → α) :
    t.modify? k f = none ↔ t.get? k = none := by
  simp [modify?, contains_eq]

section Modified

variable {t t' : IdTable α} {k : Nat} {f : α → α}

/-- What a change in place that finds its key did: the key's value changed, the rest and
the capacity kept. -/
theorem modify?_eq_some_cases (h : t.modify? k f = some t') :
    (t.get? k).isSome ∧
      t'.entries = t.entries.map (fun e => if e.1 == k then (e.1, f e.2) else e) ∧
      t'.log = t.log := by
  simp only [modify?] at h
  by_cases found : t.contains k
  · rw [if_pos found, Option.some.injEq] at h
    subst h
    exact ⟨found, rfl, rfl⟩
  · rw [if_neg found] at h
    cases h

theorem get?_of_modify?_eq_some (h : t.modify? k f = some t') (j : Nat) :
    t'.get? j = if j = k then (t.get? k).map f else t.get? j := by
  obtain ⟨-, entries, -⟩ := modify?_eq_some_cases h
  by_cases hj : j = 0
  · subst hj
    by_cases zero : 0 = k
    · subst zero
      simp
    · simp [zero]
  rw [get?_of_ne_zero t' hj, entries, List.find?_map]
  by_cases same : j = k
  · subst same
    rw [if_pos rfl, get?_of_ne_zero t hj, Option.map_map]
    have keyKept : ((fun e : Nat × α => e.1 == j) ∘
        (fun e => if e.1 == j then (e.1, f e.2) else e)) = (fun e => e.1 == j) := by
      funext e
      by_cases ej : e.1 = j <;> simp [ej]
    rw [keyKept]
    cases found : t.entries.find? (·.1 == j) with
    | none => rfl
    | some e =>
      have ej : e.1 = j := by simpa using List.find?_some found
      simp [ej]
  · rw [if_neg same, get?_of_ne_zero t hj, Option.map_map]
    have keyKept : ((fun e : Nat × α => e.1 == j) ∘
        (fun e => if e.1 == k then (e.1, f e.2) else e)) = (fun e => e.1 == j) := by
      funext e
      by_cases ek : e.1 = k <;> simp [ek]
    rw [keyKept]
    cases found : t.entries.find? (·.1 == j) with
    | none => rfl
    | some e =>
      have ej : e.1 = j := by simpa using List.find?_some found
      have ek : e.1 ≠ k := by rw [ej]; exact same
      simp [ek]

theorem exists_modify?_eq_some {v : α} (found : t.get? k = some v) (f : α → α) :
    ∃ t', t.modify? k f = some t' := by
  cases modified : t.modify? k f with
  | none =>
      rw [modify?_eq_none_iff] at modified
      simp [modified] at found
  | some t' => exact ⟨t', rfl⟩

theorem mem_keys_of_modify?_eq_some (h : t.modify? k f = some t') : k ∈ t.keys := by
  obtain ⟨found, -, -⟩ := modify?_eq_some_cases h
  obtain ⟨v, held⟩ := Option.isSome_iff_exists.mp found
  exact mem_keys_of_get?_eq_some held

theorem keys_of_modify?_eq_some (h : t.modify? k f = some t') : t'.keys = t.keys := by
  obtain ⟨-, entries, -⟩ := modify?_eq_some_cases h
  simp only [keys, entries, List.map_map]
  congr 1
  funext e
  by_cases ek : e.1 = k <;> simp [ek]

theorem size_of_modify?_eq_some (h : t.modify? k f = some t') : t'.size = t.size := by
  obtain ⟨-, entries, -⟩ := modify?_eq_some_cases h
  simp [size, entries]

theorem WellFormed.of_modify? (wf : t.WellFormed) (h : t.modify? k f = some t') :
    t'.WellFormed := by
  have keysEq := keys_of_modify?_eq_some h
  obtain ⟨-, -, log⟩ := modify?_eq_some_cases h
  refine ⟨keysEq ▸ wf.nodup, keysEq ▸ wf.positive, ?_, log ▸ wf.logLe⟩
  rw [size_of_modify?_eq_some h]
  simpa [capacity, log] using wf.below

end Modified

end TreeDump.IdTable
