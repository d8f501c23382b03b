import Mathlib
import TreeDump.Proofs.Table

/-!
Id tables answer as hash maps.

A reader of an `IdTable` inserts, removes, looks up, changes in place, tests for,
drains and counts ids. Each of these answers exactly as the same operation on a
hash map of ids, and leaves the table holding the map the operation leaves, as long
as no insert finds the table full: id `0` is refused and never present, an id
already present is refused and leaves the table as it was, and a drain gives every
pair once, in some order, and empties the table.

Owns: `IdTable.Op` and `IdTable.Answer`, the operations and what they answer;
`IdTable.step` and `IdTable.run`, a table going through operations; `IdTable.mapStep`
and `IdTable.mapRun`, a hash map going through the same; `IdTable.Holds`, a table
holding a map. Main statements: `Holds.step_answers`, one operation, and
`Holds.run_answers`, any sequence of operations none of which finds the table full.
The stored table answers the same way (`CuckooTable.stored_table_answers_as_map`).
-/

namespace TreeDump.IdTable

variable {α : Type}

/-! ### Operations -/

/-- An operation on a table of values by id. -/
inductive Op (α : Type) where
  | insert (key : Nat) (value : α)
  | remove (key : Nat)
  | get (key : Nat)
  | modify (key : Nat) (f : α → α)
  | contains (key : Nat)
  | drain
  | len

/-- What an operation answers: whether an insert went in, the value a removal or a
look-up found, whether a key is present (or was changed in place), the pairs a drain
gave in whatever order, and the number of ids. -/
inductive Answer (α : Type) where
  | inserted (result : Except TableError Unit)
  | value (found : Option α)
  | present (found : Bool)
  | drained (pairs : Multiset (Nat × α))
  | size (n : Nat)

/-- Whether the answer is an insert that found the table full. -/
def Answer.full : Answer α → Bool
  | .inserted (.error (.full _)) => true
  | _ => false

/-- Applies one operation to a table: what it answers, and the table after it. A
refused insert leaves the table as it was. -/
def step (t : IdTable α) : Op α → Answer α × IdTable α
  | .insert key value =>
    match t.insert key value with
    | .ok t' => (.inserted (.ok ()), t')
    | .error e => (.inserted (.error e), t)
  | .remove key =>
    match t.erase? key with
    | some (value, t') => (.value (some value), t')
    | none => (.value none, t)
  | .get key => (.value (t.get? key), t)
  | .modify key f =>
    match t.modify? key f with
    | some t' => (.present true, t')
    | none => (.present false, t)
  | .contains key => (.present (t.contains key), t)
  | .drain => (.drained t.drain.1, t.drain.2)
  | .len => (.size t.size, t)

/-- The answers of a table to operations one after another. -/
def run (t : IdTable α) : List (Op α) → List (Answer α)
  | [] => []
  | op :: ops => (t.step op).1 :: (t.step op).2.run ops

/-- The same operation on a hash map of ids, which refuses id `0` and an id it
already holds. -/
def mapStep (m : Std.HashMap Nat α) : Op α → Answer α × Std.HashMap Nat α
  | .insert key value =>
    if key = 0 then (.inserted (.error .reserved), m)
    else if m.contains key then (.inserted (.error (.duplicate key)), m)
    else (.inserted (.ok ()), m.insert key value)
  | .remove key => (.value m[key]?, m.erase key)
  | .get key => (.value m[key]?, m)
  | .modify key f => (.present (m.contains key), m.modify key f)
  | .contains key => (.present (m.contains key), m)
  | .drain => (.drained m.toList, ∅)
  | .len => (.size m.size, m)

/-- The answers of a hash map to operations one after another. -/
def mapRun (m : Std.HashMap Nat α) : List (Op α) → List (Answer α)
  | [] => []
  | op :: ops => (mapStep m op).1 :: mapRun (mapStep m op).2 ops

/-! ### A table holding a map -/

/-- The table `t` holds the map `m`: it is well formed, every id has in it the value
it has in `m`, and it holds as many ids as `m`. -/
structure Holds (t : IdTable α) (m : Std.HashMap Nat α) : Prop where
  wf : t.WellFormed
  get : ∀ key, t.get? key = m[key]?
  size : t.size = m.size

theorem holds_empty : (empty : IdTable α).Holds ∅ where
  wf := wellFormed_empty
  get key := by rw [get?_empty, Std.HashMap.getElem?_empty]
  size := by rw [size_empty, Std.HashMap.size_empty]

/-- In a well-formed table, a pair is one of its entries exactly when the id has
that value. -/
theorem mem_entries_iff {t : IdTable α} (wf : t.WellFormed) {key : Nat} {value : α} :
    (key, value) ∈ t.entries ↔ t.get? key = some value := by
  constructor
  · intro member
    have positive : key ≠ 0 := wf.positive key (List.mem_map_of_mem member)
    rw [get?_of_ne_zero t positive]
    cases found : t.entries.find? (·.1 == key) with
    | none =>
        exact absurd (List.find?_eq_none.mp found (key, value) member) (by simp)
    | some e =>
        -- Keys are distinct, so the first pair with this key is the pair itself.
        have same : e.1 = (key, value).1 := by simpa using List.find?_some found
        have equal := List.inj_on_of_nodup_map wf.nodup (List.mem_of_find?_eq_some found) member same
        rw [equal]
        rfl
  · intro found
    have positive : key ≠ 0 := fun zero => by rw [zero, get?_zero] at found; cases found
    rw [get?_of_ne_zero t positive, Option.map_eq_some_iff] at found
    obtain ⟨e, located, rfl⟩ := found
    have same : e.1 = key := by simpa using List.find?_some located
    rw [← same]
    exact List.mem_of_find?_eq_some located

/-- A well-formed table holding `m` holds exactly its pairs, each once. -/
theorem Holds.entries_perm {t : IdTable α} {m : Std.HashMap Nat α} (holds : t.Holds m) :
    t.entries.Perm m.toList := by
  have tableNodup : t.entries.Nodup := List.Nodup.of_map (fun e : Nat × α => e.1) holds.wf.nodup
  have mapNodup : m.toList.Nodup :=
    Std.HashMap.distinct_keys_toList.imp fun distinct same => by
      rw [same, beq_self_eq_true] at distinct
      cases distinct
  rw [List.perm_ext_iff_of_nodup tableNodup mapNodup]
  intro ⟨key, value⟩
  rw [mem_entries_iff holds.wf, Std.HashMap.mem_toList_iff_getElem?_eq_some, holds.get]

theorem Holds.contains {t : IdTable α} {m : Std.HashMap Nat α} (holds : t.Holds m) (key : Nat) :
    t.contains key = m.contains key := by
  rw [contains_eq, holds.get, Std.HashMap.contains_eq_isSome_getElem?]

theorem Holds.mem_iff {t : IdTable α} {m : Std.HashMap Nat α} (holds : t.Holds m) {key : Nat} :
    key ∈ m ↔ (t.get? key).isSome := by
  rw [holds.get, Std.HashMap.mem_iff_isSome_getElem?]

/-- The only refusal of a new positive id is a full table. -/
theorem insert_eq_error_of_fresh {t : IdTable α} {key : Nat} {value : α} {e : TableError}
    (positive : key ≠ 0) (fresh : t.get? key = none) (refused : t.insert key value = .error e) :
    e = .full maxLog := by
  simp only [insert, positive, contains_eq, fresh, Option.isSome_none, if_false,
    Bool.false_eq_true] at refused
  -- Whether or not the insert would double the table, it is refused only past the
  -- largest capacity.
  split_ifs at refused <;> exact (Except.error.inj refused).symm

/-! ### One operation -/

section Step

variable {t : IdTable α} {m : Std.HashMap Nat α}

/-- An insert answers as the map's, unless it finds the table full. -/
theorem Holds.step_insert (holds : t.Holds m) (key : Nat) (value : α)
    (notFull : (t.step (.insert key value)).1.full = false) :
    (t.step (.insert key value)).1 = (mapStep m (.insert key value)).1 ∧
      (t.step (.insert key value)).2.Holds (mapStep m (.insert key value)).2 := by
  by_cases zero : key = 0
  · -- Id `0` is refused by both.
    subst zero
    simp only [step, mapStep, insert_zero, if_true, true_and]
    exact holds
  cases present : m.contains key with
  | true =>
      -- So is an id already present.
      obtain ⟨w, found⟩ := Option.isSome_iff_exists.mp
        (Std.HashMap.contains_eq_isSome_getElem?.symm.trans present)
      rw [← holds.get] at found
      simp only [step, mapStep, insert_of_get?_eq_some found, zero, present, if_false, if_true,
        true_and]
      exact holds
  | false =>
      have absent : key ∉ m := Std.HashMap.contains_eq_false_iff_not_mem.mp present
      have fresh : t.get? key = none :=
        Option.not_isSome_iff_eq_none.mp fun found => absent (holds.mem_iff.mpr found)
      cases inserted : t.insert key value with
      | error e =>
          -- A refused insert of a new positive id found the table full.
          rw [insert_eq_error_of_fresh zero fresh inserted] at inserted
          simp [step, inserted, Answer.full] at notFull
      | ok t' =>
          simp only [step, mapStep, inserted, zero, present, if_false, Bool.false_eq_true,
            true_and]
          refine ⟨holds.wf.of_insert inserted, fun j => ?_, ?_⟩
          · rw [get?_of_insert_eq_ok inserted, Std.HashMap.getElem?_insert, holds.get]
            by_cases same : key = j
            · subst same
              simp
            · simp [same, Ne.symm same]
          · rw [size_of_insert_eq_ok inserted, Std.HashMap.size_insert, if_neg absent, holds.size]

/-- A removal gives the value the map holds, if any, and takes it out. -/
theorem Holds.step_remove (holds : t.Holds m) (key : Nat) :
    (t.step (.remove key)).1 = (mapStep m (.remove key)).1 ∧
      (t.step (.remove key)).2.Holds (mapStep m (.remove key)).2 := by
  cases erased : t.erase? key with
  | none =>
      have gone : t.get? key = none := (erase?_eq_none_iff t key).mp erased
      have absent : m[key]? = none := (holds.get key).symm.trans gone
      have notMember : key ∉ m := fun member => by
        rw [holds.mem_iff, gone] at member
        cases member
      simp only [step, mapStep, erased, absent, true_and]
      refine ⟨holds.wf, fun j => ?_, ?_⟩
      · rw [Std.HashMap.getElem?_erase, ← holds.get]
        by_cases same : key = j
        · subst same
          simp [holds.get, absent]
        · simp [same]
      · rw [Std.HashMap.size_erase, if_neg notMember, holds.size]
  | some pair =>
      obtain ⟨value, t'⟩ := pair
      have kept : t.get? key = some value := get?_of_erase?_eq_some_self erased
      have found : m[key]? = some value := (holds.get key).symm.trans kept
      have member : key ∈ m := holds.mem_iff.mpr (by rw [kept]; rfl)
      simp only [step, mapStep, erased, found, true_and]
      refine ⟨holds.wf.of_erase? erased, fun j => ?_, ?_⟩
      · rw [get?_of_erase?_eq_some erased, Std.HashMap.getElem?_erase, holds.get]
        by_cases same : key = j
        · subst same
          simp
        · simp [same, Ne.symm same]
      · have shrunk := size_of_erase?_eq_some holds.wf erased
        rw [Std.HashMap.size_erase, if_pos member]
        have counted := holds.size
        omega

/-- A change in place finds the key exactly when the map holds it, and changes its
value as the map does. -/
theorem Holds.step_modify (holds : t.Holds m) (key : Nat) (f : α → α) :
    (t.step (.modify key f)).1 = (mapStep m (.modify key f)).1 ∧
      (t.step (.modify key f)).2.Holds (mapStep m (.modify key f)).2 := by
  cases modified : t.modify? key f with
  | none =>
      have absent : m[key]? = none := by
        rw [← holds.get, ← modify?_eq_none_iff t key f]
        exact modified
      have notContained : m.contains key = false := by
        rw [Std.HashMap.contains_eq_isSome_getElem?, absent]
        rfl
      simp only [step, mapStep, modified, notContained, true_and]
      refine ⟨holds.wf, fun j => ?_, ?_⟩
      · rw [Std.HashMap.getElem?_modify, ← holds.get]
        by_cases same : key = j
        · subst same
          simp [holds.get, absent]
        · simp [same, holds.get]
      · rw [Std.HashMap.size_modify, holds.size]
  | some t' =>
      have contained : m.contains key = true := by
        rw [← holds.contains, contains_eq]
        cases found : t.get? key with
        | none =>
            rw [← modify?_eq_none_iff t key f, modified] at found
            cases found
        | some v => rfl
      simp only [step, mapStep, modified, contained, true_and]
      refine ⟨holds.wf.of_modify? modified, fun j => ?_, ?_⟩
      · rw [get?_of_modify?_eq_some modified, Std.HashMap.getElem?_modify]
        simp only [holds.get]
        by_cases same : key = j
        · subst same
          simp
        · simp [same, Ne.symm same]
      · rw [size_of_modify?_eq_some modified, Std.HashMap.size_modify, holds.size]

/-- A drain gives the map's pairs, each once, and leaves the table empty. -/
theorem Holds.step_drain (holds : t.Holds m) :
    (t.step .drain).1 = (mapStep m .drain).1 ∧ (t.step .drain).2.Holds (mapStep m .drain).2 := by
  refine ⟨?_, ⟨⟨?_, ?_, ?_, holds.wf.logLe⟩, fun key => ?_, ?_⟩⟩
  · show Answer.drained (t.entries.mergeSort _ : Multiset (Nat × α)) = Answer.drained m.toList
    rw [Multiset.coe_eq_coe.mpr ((List.mergeSort_perm _ _).trans holds.entries_perm)]
  · exact List.nodup_nil
  · exact fun _ member => absurd member List.not_mem_nil
  · show 0 < t.capacity
    rw [capacity_eq]
    exact Nat.two_pow_pos t.log
  · show IdTable.get? { t with entries := [] } key = (∅ : Std.HashMap Nat α)[key]?
    simp [get?]
  · rfl

/-- An operation that does not find the table full answers as the same operation on
the map the table holds, and leaves the table holding the map it leaves. -/
theorem Holds.step_answers (holds : t.Holds m) (op : Op α) (notFull : (t.step op).1.full = false) :
    (t.step op).1 = (mapStep m op).1 ∧ (t.step op).2.Holds (mapStep m op).2 := by
  cases op with
  | insert key value => exact holds.step_insert key value notFull
  | remove key => exact holds.step_remove key
  | get key => exact ⟨congrArg Answer.value (holds.get key), holds⟩
  | modify key f => exact holds.step_modify key f
  | contains key => exact ⟨congrArg Answer.present (holds.contains key), holds⟩
  | drain => exact holds.step_drain
  | len => exact ⟨congrArg Answer.size holds.size, holds⟩

end Step

/-! ### Runs -/

/-- A table holding a map answers any operations, none of which finds it full, as
the map does. -/
theorem Holds.run_answers {t : IdTable α} {m : Std.HashMap Nat α} (holds : t.Holds m) :
    ∀ ops : List (Op α), (∀ a ∈ t.run ops, a.full = false) → t.run ops = mapRun m ops := by
  intro ops
  induction ops generalizing t m with
  | nil => intro _; rfl
  | cons op ops inductionHypothesis =>
      intro notFull
      -- The first answer is not full, nor is any later one: the step keeps the table
      -- holding the map, and the rest of the run goes on from there.
      have stepped := holds.step_answers op (notFull _ List.mem_cons_self)
      rw [run, mapRun, stepped.1,
        inductionHypothesis stepped.2 fun a later => notFull a (List.mem_cons_of_mem _ later)]

end TreeDump.IdTable
