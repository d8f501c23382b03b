import Mathlib
import TreeDump.Proofs.TableMap
import TreeDump.Proofs.CuckooLoad

/-!
The cuckoo store holds an id table.

An `IdTable` is a table of ids seen from outside: the pairs it holds and its capacity.
A `CuckooTable` is the same table as it is stored, two slot arrays with random
multipliers, rebuilt as it grows and shrinks. The store holds a table (`Stores`) when
its pairs, ids read as numbers, are the table's pairs in some order, and it has its
layout and a free slot to spare. Every operation keeps that, and answers on the store as
on the table, unless a rebuild in it gives up: an insert then reports that the tables
cannot grow, a shrink notes its failure in the log, and the store is left empty.

Owns: `CuckooTable.pairs` and `Stores`; the store's lookups read through its layout
(`Layout.get?_eq_some_iff`); the room an insert and a removal leave (`insert_below`,
`remove_below`); one lemma per operation relating store and table; `CuckooTable.Op`,
`step` and `run`, a store going through operations. Main statement
(`stored_table_answers_as_map`): from a fresh store, whatever multipliers its rebuilds
draw, operations none of which gives up on a rebuild answer as a hash map of ids.
-/

namespace TreeDump.CuckooTable

variable {α : Type}

/-! ### Looking up what a store holds -/

theorem contains_eq_isSome_get? (c : CuckooTable α) (key : UInt32) :
    c.contains key = (c.get? key).isSome := by
  by_cases zero : key = 0
  · simp [contains, get?, zero]
  rcases located : c.find key with _ | ⟨t, i⟩
  · simp [contains, get?, zero, located]
  · obtain ⟨v, held⟩ := find_eq_some located
    simp [contains, get?, zero, located, held]

/-- In a table with its layout, a key's value is the one it is paired with. -/
theorem Layout.get?_eq_some_iff {c : CuckooTable α} (layout : c.Layout) {key : UInt32} {v : α} :
    c.get? key = some v ↔ (key, v) ∈ c.entries := by
  constructor
  · intro found
    by_cases zero : key = 0
    · simp [get?, zero] at found
    rcases located : c.find key with _ | ⟨t, i⟩
    · simp [get?, zero, located] at found
    · obtain ⟨w, held⟩ := find_eq_some located
      simp only [get?, zero, if_false, located, held, Option.map_some, Option.some.injEq] at found
      subst found
      exact slot_mem_entries held
  · intro member
    have nonzero : key ≠ 0 := layout.keyed _ member
    obtain ⟨⟨t, i⟩, located⟩ :=
      Option.isSome_iff_exists.mp (layout.find_isSome (List.mem_map_of_mem (f := (·.1)) member))
    obtain ⟨w, held⟩ := find_eq_some located
    -- no key sits in two slots, so the pair found is the pair given
    have same : (key, w) = (key, v) :=
      List.inj_on_of_nodup_map layout.nodup (slot_mem_entries held) member rfl
    simp only [Prod.mk.injEq, true_and] at same
    simp [get?, nonzero, located, held, same]

/-- The pairs held, each id read as a number. -/
def pairs (c : CuckooTable α) : List (Nat × α) := c.entries.map fun e => (e.1.toNat, e.2)

theorem mem_pairs_iff {c : CuckooTable α} {key : UInt32} {v : α} :
    (key.toNat, v) ∈ c.pairs ↔ (key, v) ∈ c.entries := by
  simp only [pairs, List.mem_map, Prod.mk.injEq]
  constructor
  · rintro ⟨⟨k, w⟩, member, same, rfl⟩
    rw [show k = key from UInt32.toNat_inj.mp same] at member
    exact member
  · intro member
    exact ⟨(key, v), member, rfl, rfl⟩

theorem pairs_perm {c' : CuckooTable α} {es : List (UInt32 × α)} (perm : c'.entries.Perm es) :
    c'.pairs.Perm (es.map fun e => (e.1.toNat, e.2)) :=
  perm.map _

/-! ### Room to spare -/

theorem capacity_pos (c : CuckooTable α) : 0 < c.capacity := Nat.two_pow_pos c.log

/-- A growth that succeeds leaves room for one more id. -/
theorem grow_below {c : CuckooTable α} {env : Env} (below : c.len < c.capacity)
    (ok : (c.grow env).1 = .ok ()) : c.len + 1 < (c.grow env).2.1.capacity := by
  unfold grow at ok ⊢
  split at ok
  · rename_i full
    rw [if_pos full]
    calc c.len + 1 < 2 * c.capacity := by omega
      _ = Nat.pow 2 (c.log + 1) := (pow_succ_log c).symm
      _ ≤ (c.rebuild (c.log + 1) none env).2.1.capacity :=
        Nat.pow_le_pow_right (by decide) (le_log_rebuild ok)
  · rename_i roomy
    rw [if_neg roomy]
    show c.len + 1 < c.capacity
    omega

/-- An insert keeps a free slot in every table: it grows the tables before they fill. -/
theorem insert_below {c : CuckooTable α} (homed : c.Homed) (below : c.len < c.capacity)
    (key : UInt32) (value : α) (env : Env) :
    (c.insert key value env).2.1.len < (c.insert key value env).2.1.capacity := by
  by_cases zero : key = 0
  · rw [zero, insert_zero]
    exact below
  rcases finding : c.find key with _ | ⟨t, i⟩
  swap
  · rw [insert_of_find finding zero]
    exact below
  have grown := grow_spec homed env
  have roomy : (c.grow env).1 = .ok () → c.len + 1 < (c.grow env).2.1.capacity := grow_below below
  simp only [insert, zero, finding, if_false, Option.isSome_none, Bool.false_eq_true]
  rcases growing : c.grow env with ⟨r1, c1, env1⟩
  rw [growing] at grown roomy
  rcases grown with ⟨rfl, holding1⟩ | ⟨rfl, emptied⟩
  · have settled := settle_spec holding1.homed (e := (key, value)) zero env1
    dsimp only at holding1 roomy ⊢
    rcases settling : c1.settle (key, value) env1 with ⟨r2, c2, env2⟩
    rw [settling] at settled
    rcases settled with ⟨rfl, holding2⟩ | ⟨rfl, emptied⟩
    · -- the settled tables are at least as large as the grown ones, which had room
      show c2.len + 1 < Nat.pow 2 c2.log
      have larger : c1.capacity ≤ Nat.pow 2 c2.log := Nat.pow_le_pow_right (by decide) holding2.logGe
      have counted : c2.len = c.len := holding2.len.trans holding1.len
      have room := roomy rfl
      omega
    · rw [emptied.len]
      exact capacity_pos c2
  · rw [emptied.len]
    exact capacity_pos c1

/-- A shrink keeps a free slot: it halves only tables less than a quarter full. -/
theorem shrink_below {c : CuckooTable α} (homed : c.Homed) (below : c.len < c.capacity)
    (env : Env) : (c.shrink env).1.len < (c.shrink env).1.capacity := by
  unfold shrink
  split
  · rename_i sparse
    have rebuilt := rebuild_spec homed (c.log - 1) (by omega) none
      (fun _ _ none_eq => by cases none_eq) env
    rcases rebuilding : c.rebuild (c.log - 1) none env with ⟨r, c', env'⟩
    rw [rebuilding] at rebuilt
    rcases rebuilt with ⟨rfl, holding⟩ | ⟨rfl, emptied⟩
    · dsimp only at holding
      show c'.len < Nat.pow 2 c'.log
      rw [holding.len]
      calc c.len < Nat.pow 2 (c.log - 2) := sparse.2
        _ ≤ Nat.pow 2 c'.log := Nat.pow_le_pow_right (by decide) (by have := holding.logGe; omega)
    · show c'.len < c'.capacity
      rw [emptied.len]
      exact capacity_pos c'
  · exact below

/-- A removal keeps a free slot. -/
theorem remove_below {c : CuckooTable α} (layout : c.Layout) (below : c.len < c.capacity)
    (key : UInt32) (env : Env) : (c.remove key env).2.1.len < (c.remove key env).2.1.capacity := by
  by_cases zero : key = 0
  · rw [zero, remove_zero]
    exact below
  rcases finding : c.find key with _ | ⟨t, i⟩
  · rw [remove_of_find_eq_none finding]
    exact below
  · obtain ⟨v, held⟩ := find_eq_some finding
    rw [remove_eq zero finding held env]
    refine shrink_below ((layout.toHomed.setSlot t i (fun _ _ none_eq => by cases none_eq)).withLen _)
      ?_ env
    show c.len - 1 < c.capacity
    omega

/-! ### What the store's operations do to its pairs -/

/-- A key with a value is non-zero and found, at a slot holding it with that value. -/
theorem found_of_get? {c : CuckooTable α} {key : UInt32} {v : α} (found : c.get? key = some v) :
    key ≠ 0 ∧ ∃ t i, c.find key = some (t, i) ∧ c.slot t i = some (key, v) := by
  by_cases zero : key = 0
  · simp [get?, zero] at found
  rcases located : c.find key with _ | ⟨t, i⟩
  · simp [get?, zero, located] at found
  · obtain ⟨w, held⟩ := find_eq_some located
    simp only [get?, zero, if_false, located, held, Option.map_some, Option.some.injEq] at found
    exact ⟨zero, t, i, rfl, by rw [held, found]⟩

theorem find_eq_none_of_get? {c : CuckooTable α} {key : UInt32} (nonzero : key ≠ 0)
    (absent : c.get? key = none) : c.find key = none := by
  rcases located : c.find key with _ | ⟨t, i⟩
  · rfl
  · obtain ⟨w, held⟩ := find_eq_some located
    simp [get?, nonzero, located, held] at absent

theorem modify?_isSome (c : CuckooTable α) (key : UInt32) (f : α → α) :
    (c.modify? key f).isSome = (c.get? key).isSome := by
  unfold modify? get?
  split
  · rfl
  · split
    · rename_i t i _
      cases c.slot t i <;> rfl
    · rfl

/-- Changing a value in place changes exactly the pair of its key. -/
theorem Layout.modify?_entries {c c' : CuckooTable α} (layout : c.Layout) {key : UInt32}
    {f : α → α} (changed : c.modify? key f = some c') :
    c'.entries.Perm (c.entries.map fun e => if e.1 == key then (e.1, f e.2) else e) := by
  unfold CuckooTable.modify? at changed
  split at changed
  · cases changed
  split at changed
  swap
  · cases changed
  rename_i t i found
  obtain ⟨v, held⟩ := find_eq_some found
  rw [held] at changed
  simp only [Option.map_some, Option.some.injEq] at changed
  subst changed
  have inside : i < (c.tables t).length := by
    rw [← (layout.home t i key v held).2]
    exact layout.index_lt_length t key
  have traded := entries_setSlot_perm c t inside (some (key, f v))
  rw [held] at traded
  -- the pair of `key` and the others, among which no other pair of `key` is
  obtain ⟨before, after, parts⟩ := List.append_of_mem (slot_mem_entries held)
  have split : c.entries.Perm ((key, v) :: (before ++ after)) := parts ▸ List.perm_middle
  have fresh : key ∉ (before ++ after).map (·.1) := by
    have distinct := (split.map (·.1)).nodup_iff.mp layout.nodup
    exact (List.nodup_cons.mp distinct).1
  have others : (before ++ after).map (fun e => if e.1 == key then (e.1, f e.2) else e) =
      before ++ after := by
    refine List.map_congr_left (fun e member => ?_) |>.trans (List.map_id _)
    have apart : e.1 ≠ key := fun same => fresh (same ▸ List.mem_map_of_mem member)
    simp [apart]
  have kept : ((key, v) :: (c.setSlot t i (some (key, f v))).entries).Perm
      ((key, v) :: (key, f v) :: (before ++ after)) := by
    refine (List.perm_append_singleton _ _).symm.trans (traded.trans ?_)
    exact ((split.cons _).trans (List.Perm.swap _ _ _))
  refine (kept.cons_inv).trans ?_
  refine List.Perm.trans ?_ (split.map _).symm
  rw [List.map_cons, others]
  simp

/-! ### A store holding a table -/

/-- The store `c` holds the table `t`: it has its layout and a free slot, and its pairs,
ids read as numbers, are those of `t` in some order; `t` is well formed. -/
structure Stores (c : CuckooTable α) (t : IdTable α) : Prop where
  layout : c.Layout
  below : c.len < c.capacity
  perm : c.pairs.Perm t.entries
  wf : t.WellFormed

theorem stores_new (env : Env) : (new env : CuckooTable α × Env).1.Stores IdTable.empty where
  layout := layout_new env
  below := by simp [new, capacity, IdTable.minLog]
  perm := by simp [pairs, new, IdTable.empty]
  wf := IdTable.wellFormed_empty

section Stores

variable {c : CuckooTable α} {t : IdTable α}

theorem Stores.get? (stores : c.Stores t) (key : UInt32) : c.get? key = t.get? key.toNat := by
  apply Option.ext
  intro v
  rw [stores.layout.get?_eq_some_iff, ← IdTable.mem_entries_iff stores.wf, ← stores.perm.mem_iff,
    mem_pairs_iff]

theorem Stores.contains (stores : c.Stores t) (key : UInt32) :
    c.contains key = t.contains key.toNat := by
  rw [contains_eq_isSome_get?, stores.get?, IdTable.contains_eq]

theorem Stores.len (stores : c.Stores t) : c.len = t.size := by
  rw [stores.layout.count, IdTable.size, ← stores.perm.length_eq, pairs, List.length_map]

/-- The pairs of a store, ids read as numbers, are the pairs of the table it holds,
without the pairs of one id. -/
theorem Stores.filter_perm (stores : c.Stores t) (key : UInt32) :
    ((c.entries.filter (·.1 != key)).map fun e => (e.1.toNat, e.2)).Perm
      (t.entries.filter (·.1 != key.toNat)) := by
  have sameKey : ((fun e : Nat × α => e.1 != key.toNat) ∘ fun e : UInt32 × α => (e.1.toNat, e.2)) =
      (·.1 != key) := by
    funext e
    show (e.1.toNat != key.toNat) = (e.1 != key)
    by_cases same : e.1 = key
    · simp [same]
    · have apart : e.1.toNat ≠ key.toNat := fun equal => same (UInt32.toNat_inj.mp equal)
      rw [bne_iff_ne.mpr apart, bne_iff_ne.mpr same]
  have renamed : ((c.entries.filter (·.1 != key)).map fun e => (e.1.toNat, e.2)) =
      c.pairs.filter (·.1 != key.toNat) := by
    rw [pairs, List.filter_map, sameKey]
  rw [renamed]
  exact stores.perm.filter _

theorem Stores.modify_perm (stores : c.Stores t) (key : UInt32) (f : α → α) :
    ((c.entries.map fun e => if e.1 == key then (e.1, f e.2) else e).map
        fun e => (e.1.toNat, e.2)).Perm
      (t.entries.map fun e => if e.1 == key.toNat then (e.1, f e.2) else e) := by
  rw [List.map_map]
  have commute : ((fun e : UInt32 × α => (e.1.toNat, e.2)) ∘
      fun e => if e.1 == key then (e.1, f e.2) else e) =
      (fun e : Nat × α => if e.1 == key.toNat then (e.1, f e.2) else e) ∘
        fun e => (e.1.toNat, e.2) := by
    funext e
    by_cases same : e.1 = key <;> simp [same, UInt32.toNat_inj]
  rw [commute, ← List.map_map]
  exact stores.perm.map _

/-- A store gives up on an insert exactly where the table it holds is full: the tables
are then at the largest size, and growing them fails. -/
theorem insert_of_full {c : CuckooTable α} (homed : c.Homed) (below : c.len < c.capacity)
    (full : IdTable.limit ≤ c.len + 1) {key : UInt32} (nonzero : key ≠ 0)
    (fresh : c.find key = none) (value : α) (env : Env) :
    (c.insert key value env).1 = .error (.full IdTable.maxLog) := by
  have top : c.log = IdTable.maxLog := by
    have larger : Nat.pow 2 IdTable.maxLog ≤ Nat.pow 2 c.log := by
      show IdTable.limit ≤ c.capacity
      omega
    have := (Nat.pow_le_pow_iff_right (by decide)).mp larger
    have := homed.logLe
    omega
  have grows : c.len + 1 ≥ c.capacity := by
    show c.len + 1 ≥ Nat.pow 2 c.log
    rw [top]
    exact full
  have failed : c.grow env = (.error (.full IdTable.maxLog), c.drain.2, env) := by
    rw [grow, if_pos grows, rebuild_eq, rebuildFrom, top]
    simp [IdTable.maxLog]
  simp [insert, nonzero, fresh, failed]

/-- An insert the table refuses is refused alike by the store. Refusing id `0` or an id
held leaves store and log as they were; refusing a full table gives up on it. -/
theorem Stores.insert_of_error (stores : c.Stores t) {k : UInt32} {value : α} {e : TableError}
    (refused : t.insert k.toNat value = .error e) (env : Env) :
    (c.insert k value env).1 = .error e ∧
      (e ≠ .full IdTable.maxLog → c.insert k value env = (.error e, c, env)) := by
  by_cases zero : k = 0
  · rw [zero, UInt32.toNat_zero, IdTable.insert_zero, Except.error.injEq] at refused
    subst refused
    rw [zero, insert_zero]
    exact ⟨rfl, fun _ => rfl⟩
  rcases finding : c.find k with _ | ⟨ti, i⟩
  · -- a new id is refused only by a full table, and the store then gives up too
    have absent : t.get? k.toNat = none := by
      rw [← stores.get?]
      simp [CuckooTable.get?, zero, finding]
    have positive : k.toNat ≠ 0 := fun same => zero (UInt32.toNat_inj.mp (by simpa using same))
    have full := IdTable.insert_eq_error_of_fresh positive absent refused
    subst full
    have crowded : IdTable.limit ≤ c.len + 1 := by
      rw [stores.len]
      by_contra roomy
      obtain ⟨t', inserted⟩ := IdTable.exists_insert_eq_ok stores.wf positive absent value (by omega)
      rw [inserted] at refused
      cases refused
    exact ⟨insert_of_full stores.layout.toHomed stores.below crowded zero finding value env,
      fun notFull => absurd rfl notFull⟩
  · obtain ⟨v, held⟩ := find_eq_some finding
    have present : t.get? k.toNat = some v := by
      rw [← stores.get?]
      simp [CuckooTable.get?, zero, finding, held]
    rw [IdTable.insert_of_get?_eq_some present, Except.error.injEq] at refused
    subst refused
    rw [insert_of_find finding zero]
    exact ⟨rfl, fun _ => rfl⟩

/-- An insert the table takes is taken by the store, which goes on holding the table; or
the store gives up on it. -/
theorem Stores.insert_of_ok (stores : c.Stores t) {k : UInt32} {value : α} {t' : IdTable α}
    (inserted : t.insert k.toNat value = .ok t') (env : Env) :
    (c.insert k value env).1 = .error (.full IdTable.maxLog) ∨
      ((c.insert k value env).1 = .ok () ∧ (c.insert k value env).2.1.Stores t') := by
  obtain ⟨positive, absent, entries, -, -⟩ := IdTable.insert_eq_ok_cases inserted
  have zero : k ≠ 0 := fun same => positive (by simp [same])
  have fresh : c.find k = none := find_eq_none_of_get? zero (by rw [stores.get?]; exact absent)
  rcases insert_spec stores.layout.toHomed zero fresh value env with ⟨ok, holding⟩ | ⟨failed, -⟩
  · refine .inr ⟨ok, stores.layout.insert k value env,
      insert_below stores.layout.toHomed stores.below k value env, ?_,
      stores.wf.of_insert inserted⟩
    rw [entries]
    refine (pairs_perm holding.perm).trans ?_
    exact ((stores.perm.cons _).trans (List.perm_append_singleton _ _).symm)
  · exact .inl failed

/-- A removal of an id the table does not hold changes nothing. -/
theorem Stores.remove_of_none (stores : c.Stores t) {k : UInt32}
    (absent : t.erase? k.toNat = none) (env : Env) : c.remove k env = (none, c, env) := by
  rw [IdTable.erase?_eq_none_iff, ← stores.get?] at absent
  exact remove_of_not_contains (by rw [contains_eq_isSome_get?, absent]; rfl) env

/-- A removal of an id the table holds gives its value, and leaves the store holding what
the table is left with; or, when the shrink after it fails, leaves the store empty and
the failure in the log. -/
theorem Stores.remove_of_some (stores : c.Stores t) {k : UInt32} {v : α} {t' : IdTable α}
    (erased : t.erase? k.toNat = some (v, t')) (env : Env) :
    (c.remove k env).1 = some v ∧
      ((c.remove k env).2.1.Stores t' ∨
        (Emptied (c.remove k env).2.1 ∧
          ∃ e, Note.shrinkFailed e ∈ (c.remove k env).2.2.notes)) := by
  obtain ⟨present, entries, -⟩ := IdTable.erase?_eq_some_cases erased
  rw [← stores.get?] at present
  obtain ⟨zero, ti, i, found, held⟩ := found_of_get? present
  obtain ⟨removed, rest⟩ := remove_spec stores.layout zero found held env
  refine ⟨removed, ?_⟩
  rcases rest with holding | ⟨emptied, notes, noted⟩
  · refine .inl ⟨stores.layout.remove k env, remove_below stores.layout stores.below k env, ?_,
      stores.wf.of_erase? erased⟩
    rw [entries]
    exact (pairs_perm holding.perm).trans (stores.filter_perm k)
  · exact .inr ⟨emptied, .full IdTable.maxLog, by rw [noted]; simp⟩

/-- A change in place of an id the table does not hold fails on the store too. -/
theorem Stores.modify?_of_none (stores : c.Stores t) {k : UInt32} {f : α → α}
    (absent : t.modify? k.toNat f = none) : c.modify? k f = none := by
  rw [IdTable.modify?_eq_none_iff, ← stores.get?] at absent
  rw [← Option.not_isSome_iff_eq_none, modify?_isSome, absent]
  simp

/-- A change in place of an id the table holds changes the store alike. -/
theorem Stores.modify?_of_some (stores : c.Stores t) {k : UInt32} {f : α → α} {t' : IdTable α}
    (changed : t.modify? k.toNat f = some t') :
    ∃ c', c.modify? k f = some c' ∧ c'.Stores t' := by
  obtain ⟨found, entries, -⟩ := IdTable.modify?_eq_some_cases changed
  rw [← stores.get?, ← modify?_isSome c k f] at found
  obtain ⟨c', modified⟩ := Option.isSome_iff_exists.mp found
  have sizes := sizes_modify? c k f
  rw [modified, Option.getD_some] at sizes
  refine ⟨c', modified, stores.layout.modify? modified, ?_, ?_, stores.wf.of_modify? changed⟩
  · rw [sizes.1, sizes.2]
    exact stores.below
  · rw [entries]
    exact (pairs_perm (stores.layout.modify?_entries modified)).trans (stores.modify_perm k f)

/-- A drain gives the pairs of the table, and leaves the store holding the drained table. -/
theorem Stores.drain (stores : c.Stores t) :
    (c.drain.1.map fun e => (e.1.toNat, e.2)).Perm t.drain.1 ∧ c.drain.2.Stores t.drain.2 := by
  refine ⟨stores.perm.trans (List.mergeSort_perm _ _).symm, stores.layout.drain, ?_, ?_, ?_⟩
  · rw [len_drain]
    exact capacity_pos _
  · simp [pairs, IdTable.drain]
  · exact ⟨by simp [IdTable.keys, IdTable.drain], by simp [IdTable.keys, IdTable.drain],
      by simp [IdTable.size, IdTable.drain, IdTable.capacity],
      stores.wf.logLe⟩

end Stores

/-! ### The log only grows -/

theorem Extends.refl (env : Env) : Extends env env := ⟨[], by simp⟩

theorem Extends.trans {env env' env'' : Env} (first : Extends env env') (second : Extends env' env'') :
    Extends env env'' := by
  obtain ⟨ns1, earlier⟩ := first
  obtain ⟨ns2, later⟩ := second
  exact ⟨ns1 ++ ns2, by rw [later, earlier, List.append_assoc]⟩

theorem insert_extends (c : CuckooTable α) (key : UInt32) (value : α) (env : Env) :
    Extends env (c.insert key value env).2.2 := by
  unfold insert
  split
  · exact .refl env
  split
  · exact .refl env
  have grown := grow_extends c env
  rcases growing : c.grow env with ⟨r1, c1, env1⟩
  rw [growing] at grown
  cases r1 with
  | error e => exact grown
  | ok u =>
    have settled := settle_extends c1 (key, value) env1
    dsimp only
    rcases settling : c1.settle (key, value) env1 with ⟨r2, c2, env2⟩
    rw [settling] at settled
    cases r2 with
    | error e => exact grown.trans settled
    | ok u => exact grown.trans settled

theorem shrink_extends (c : CuckooTable α) (env : Env) : Extends env (c.shrink env).2 := by
  unfold shrink
  split
  · have rebuilt := rebuild_extends c (c.log - 1) none env
    rcases rebuilding : c.rebuild (c.log - 1) none env with ⟨r, c', env'⟩
    rw [rebuilding] at rebuilt
    cases r with
    | ok u => exact rebuilt
    | error e => exact rebuilt.trans ⟨[.shrinkFailed e], rfl⟩
  · exact .refl env

theorem remove_extends (c : CuckooTable α) (key : UInt32) (env : Env) :
    Extends env (c.remove key env).2.2 := by
  by_cases zero : key = 0
  · rw [zero, remove_zero]
    exact .refl env
  rcases finding : c.find key with _ | ⟨t, i⟩
  · rw [remove_of_find_eq_none finding]
    exact .refl env
  · obtain ⟨v, held⟩ := find_eq_some finding
    rw [remove_eq zero finding held env]
    exact shrink_extends _ env

/-! ### Operations on a store -/

/-- An operation on a store, by `u32` id. -/
inductive Op (α : Type) where
  | insert (key : UInt32) (value : α)
  | remove (key : UInt32)
  | get (key : UInt32)
  | modify (key : UInt32) (f : α → α)
  | contains (key : UInt32)
  | drain
  | len

/-- The same operation on a table of ids by number. -/
def Op.byNumber : Op α → IdTable.Op α
  | .insert key value => .insert key.toNat value
  | .remove key => .remove key.toNat
  | .get key => .get key.toNat
  | .modify key f => .modify key.toNat f
  | .contains key => .contains key.toNat
  | .drain => .drain
  | .len => .len

/-- Applies one operation to a store: what it answers, with the ids of a drain read as
numbers, and the store and log after it. -/
def step (c : CuckooTable α) (env : Env) : Op α → IdTable.Answer α × CuckooTable α × Env
  | .insert key value =>
    match c.insert key value env with
    | (result, c', env') => (.inserted result, c', env')
  | .remove key =>
    match c.remove key env with
    | (found, c', env') => (.value found, c', env')
  | .get key => (.value (c.get? key), c, env)
  | .modify key f =>
    match c.modify? key f with
    | some c' => (.present true, c', env)
    | none => (.present false, c, env)
  | .contains key => (.present (c.contains key), c, env)
  | .drain => (.drained (c.drain.1.map fun e => (e.1.toNat, e.2)), c.drain.2, env)
  | .len => (.size c.len, c, env)

/-- The answers of a store to operations one after another, and the log they leave. -/
def run (c : CuckooTable α) (env : Env) : List (Op α) → List (IdTable.Answer α) × Env
  | [] => ([], env)
  | op :: ops =>
    match c.step env op with
    | (answer, c', env') =>
      match c'.run env' ops with
      | (answers, env'') => (answer :: answers, env'')

theorem step_extends (c : CuckooTable α) (env : Env) (op : Op α) :
    Extends env (c.step env op).2.2 := by
  cases op with
  | insert key value => exact insert_extends c key value env
  | remove key => exact remove_extends c key env
  | modify key f =>
    show Extends env (match c.modify? key f with
      | some c' => ((.present true, c', env) : IdTable.Answer α × CuckooTable α × Env)
      | none => (.present false, c, env)).2.2
    cases c.modify? key f <;> exact .refl env
  | get _ => exact .refl env
  | contains _ => exact .refl env
  | drain => exact .refl env
  | len => exact .refl env

theorem run_extends (c : CuckooTable α) (env : Env) (ops : List (Op α)) :
    Extends env (c.run env ops).2 := by
  induction ops generalizing c env with
  | nil => exact .refl env
  | cons op ops ih => exact (step_extends c env op).trans (ih _ _)

section Stores

variable {c : CuckooTable α} {t : IdTable α}

/-- One operation on a store holding `t`, unless a rebuild in it gives up, answers as on
`t` and leaves the store holding what it leaves of `t`. -/
theorem Stores.step (stores : c.Stores t) (env : Env) (op : Op α)
    (notFull : (c.step env op).1.full = false)
    (noFailedShrink : ∀ e, Note.shrinkFailed e ∉ (c.step env op).2.2.notes) :
    (c.step env op).1 = (t.step op.byNumber).1 ∧ (c.step env op).2.1.Stores (t.step op.byNumber).2 := by
  cases op with
  | insert key value =>
    show (IdTable.Answer.inserted (c.insert key value env).1 = _) ∧
      (c.insert key value env).2.1.Stores _
    change (IdTable.Answer.inserted (c.insert key value env).1).full = false at notFull
    simp only [Op.byNumber, IdTable.step]
    cases inserted : t.insert key.toNat value with
    | ok t' =>
      rcases stores.insert_of_ok inserted env with failed | ⟨ok, kept⟩
      · rw [failed] at notFull
        cases notFull
      · exact ⟨by rw [ok], kept⟩
    | error e =>
      obtain ⟨refused, unchanged⟩ := stores.insert_of_error inserted env
      by_cases full : e = .full IdTable.maxLog
      · rw [refused, full] at notFull
        cases notFull
      · rw [unchanged full]
        exact ⟨rfl, stores⟩
  | remove key =>
    show (IdTable.Answer.value (c.remove key env).1 = _) ∧ (c.remove key env).2.1.Stores _
    change ∀ e, Note.shrinkFailed e ∉ (c.remove key env).2.2.notes at noFailedShrink
    simp only [Op.byNumber, IdTable.step]
    cases erased : t.erase? key.toNat with
    | none => rw [stores.remove_of_none erased env]; exact ⟨rfl, stores⟩
    | some pair =>
      obtain ⟨v, t'⟩ := pair
      obtain ⟨removed, kept | ⟨-, e, noted⟩⟩ := stores.remove_of_some erased env
      · exact ⟨by rw [removed], kept⟩
      · exact absurd noted (noFailedShrink e)
  | get key => exact ⟨congrArg IdTable.Answer.value (stores.get? key), stores⟩
  | modify key f =>
    simp only [Op.byNumber, IdTable.step, CuckooTable.step]
    cases changed : t.modify? key.toNat f with
    | none => rw [stores.modify?_of_none changed]; exact ⟨rfl, stores⟩
    | some t' =>
      obtain ⟨c', modified, kept⟩ := stores.modify?_of_some changed
      rw [modified]
      exact ⟨rfl, kept⟩
  | contains key => exact ⟨congrArg IdTable.Answer.present (stores.contains key), stores⟩
  | drain =>
    obtain ⟨perm, kept⟩ := stores.drain
    exact ⟨congrArg IdTable.Answer.drained (Multiset.coe_eq_coe.mpr perm), kept⟩
  | len => exact ⟨congrArg IdTable.Answer.size stores.len, stores⟩

/-- A store holding `t`, which holds the map `m`, answers operations of which none gives up
on a rebuild as the map does. -/
theorem Stores.run_answers (stores : c.Stores t) {m : Std.HashMap Nat α} (holds : t.Holds m)
    (env : Env) (ops : List (Op α)) (notFull : ∀ a ∈ (c.run env ops).1, a.full = false)
    (noFailedShrink : ∀ e, Note.shrinkFailed e ∉ (c.run env ops).2.notes) :
    (c.run env ops).1 = IdTable.mapRun m (ops.map Op.byNumber) := by
  induction ops generalizing c t m env with
  | nil => rfl
  | cons op ops ih =>
    -- the log of the whole run extends the log of its first step, so that step gave up on
    -- no shrink either
    have later := run_extends (c.step env op).2.1 (c.step env op).2.2 ops
    have firstNotFull : (c.step env op).1.full = false := notFull _ List.mem_cons_self
    have firstNoFailure : ∀ e, Note.shrinkFailed e ∉ (c.step env op).2.2.notes := by
      intro e noted
      obtain ⟨ns, grown⟩ := later
      exact noFailedShrink e (by
        show Note.shrinkFailed e ∈ ((c.step env op).2.1.run (c.step env op).2.2 ops).2.notes
        rw [grown]
        exact List.mem_append_left _ noted)
    obtain ⟨answered, kept⟩ := stores.step env op firstNotFull firstNoFailure
    have mapped := holds.step_answers op.byNumber (answered ▸ firstNotFull)
    have rest := ih kept mapped.2 (c.step env op).2.2
      (fun a member => notFull a (List.mem_cons_of_mem _ member)) noFailedShrink
    show (c.step env op).1 :: ((c.step env op).2.1.run (c.step env op).2.2 ops).1 = _
    rw [List.map_cons, IdTable.mapRun, answered, mapped.1, rest]

end Stores

/-- An id table as stored answers as a finite map of ids. From a fresh store, whatever
odd multipliers its rebuilds draw, any operations of which no insert reports that the
tables cannot grow, and no shrink fails, get the answers of the same operations on a hash
map of ids that refuses id `0` and an id it holds: removals and look-ups find the same
values, a change in place finds the same ids, a drain gives the same pairs, each once, and
empties the store, and the counts agree. An insert of id `0` or of an id held is refused
and leaves the store and its log as they were. -/
theorem stored_table_answers_as_map (rng : Rng) (ops : List (Op α))
    (notFull : ∀ a ∈ ((new { rng }).1.run (new (α := α) { rng }).2 ops).1, a.full = false)
    (noFailedShrink :
      ∀ e, Note.shrinkFailed e ∉ ((new { rng }).1.run (new (α := α) { rng }).2 ops).2.notes) :
    ((new { rng }).1.run (new (α := α) { rng }).2 ops).1 =
        IdTable.mapRun ∅ (ops.map Op.byNumber) ∧
      ∀ (c : CuckooTable α) key value env,
        c.insert 0 value env = (.error .reserved, c, env) ∧
        (c.contains key = true → c.insert key value env = (.error (.duplicate key.toNat), c, env)) := by
  refine ⟨(stores_new _).run_answers IdTable.holds_empty _ ops notFull noFailedShrink, ?_⟩
  intro c key value env
  refine ⟨insert_zero c value env, fun present => ?_⟩
  obtain ⟨t, i, -, found, -⟩ := found_of_contains present
  have nonzero : key ≠ 0 := by
    simp only [contains, Bool.and_eq_true, bne_iff_ne] at present
    exact present.1
  exact insert_of_find found nonzero value env

/-- The operations of a reader on a store whose multipliers are `2 ^ 30 + 1`: it refuses id
`0` and a repeated id, looks up, counts, changes a value in place, misses an id, removes,
tests for an id and drains. -/
theorem stored_table_answers_as_map_sample :
    let rng : Rng := { words := fun _ => 0x40000000 }
    let ops : List (Op String) :=
      [.insert 0 "root", .insert 1 "a", .insert 1 "b", .get 1, .len, .insert 2 "x",
        .modify 2 (· ++ "y"), .get 2, .get 3, .remove 3, .remove 1, .contains 2, .drain, .len]
    (∀ a ∈ ((new { rng }).1.run (new (α := String) { rng }).2 ops).1, a.full = false) ∧
      (∀ e, Note.shrinkFailed e ∉ ((new { rng }).1.run (new (α := String) { rng }).2 ops).2.notes) ∧
      ((new { rng }).1.run (new (α := String) { rng }).2 ops).1 =
        IdTable.mapRun ∅ (ops.map Op.byNumber) := by
  intro rng ops
  have notFull : ∀ a ∈ ((new { rng }).1.run (new (α := String) { rng }).2 ops).1,
      a.full = false := by
    decide
  -- no rebuild happens at all: the log stays empty
  have quiet : ((new { rng }).1.run (new (α := String) { rng }).2 ops).2.notes = [] := by
    decide
  have noFailedShrink :
      ∀ e, Note.shrinkFailed e ∉ ((new { rng }).1.run (new (α := String) { rng }).2 ops).2.notes := by
    rw [quiet]
    simp
  exact ⟨notFull, noFailedShrink, (stored_table_answers_as_map rng ops notFull noFailedShrink).1⟩

end TreeDump.CuckooTable
