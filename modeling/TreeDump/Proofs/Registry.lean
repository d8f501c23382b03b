import Mathlib
import TreeDump.Proofs.Records

/-!
Which snapshots the reader accepts.

Whether the reader takes a record depends only on the ids its table holds and on
whether the root's entry was read, not on the directories it has rebuilt so far. A
declaration registers a new positive id while the table has room for it; an entry
needs its ids registered; a directory's entry unregisters its own id, unless it is
the root's, which stays; and at the end exactly the root's id must be left.

Owns: `Registry`, the registered ids and the root's id; `Registry.step`, what each
record needs and does to them; `Registry.Accepts`, a sequence of records that the
registry takes from start to end, leaving the root's id alone; and
`Progress.Registers`, the reader's progress seen through its registry.

Main statement (`read_accepts_iff`): the reader accepts exactly the inputs whose
lines are all UTF-8, whose unmarked lines are all records, and whose records the
registry accepts. The table's capacity enters only as the room a declaration
needs: fewer than `2 ^ 30 - 1` ids registered before it.
-/

namespace TreeDump

open Wire

/-- The ids a reader has registered, in the order they were declared, and the
root's id once the root's entry was read. -/
structure Registry where
  ids : List Nat := []
  root : Option Nat := none
deriving DecidableEq, Repr

namespace Registry

/-- What a record needs and does: a declaration registers a new positive id while
fewer than `IdTable.limit - 1` ids are registered; the root's entry (parent `0`)
needs its id registered and no root before, and makes it the root; another
directory's entry needs its id registered, unregisters it, and then needs its
parent registered; a file's entry needs its parent registered. -/
def step (r : Registry) : Record → Option Registry
  | .directory id _ =>
    if id ≠ 0 ∧ id ∉ r.ids ∧ r.ids.length + 1 < IdTable.limit then some { r with ids := r.ids ++ [id] }
    else none
  | .entry parent _ _ dirId _ _ =>
    if dirId = 0 then (if parent ∈ r.ids then some r else none)
    else if parent = 0 then (if r.root = none ∧ dirId ∈ r.ids then some { r with root := some dirId } else none)
    else if dirId ∈ r.ids ∧ parent ∈ r.ids.erase dirId then some { r with ids := r.ids.erase dirId }
    else none

/-- Takes records in order; `none` when one of them is refused. -/
def run (r : Registry) : List Record → Option Registry
  | [] => some r
  | record :: rest => (r.step record).bind fun r' => r'.run rest

/-- The records are taken from the empty registry to one that holds exactly the
root's id. -/
def Accepts (records : List Record) : Prop :=
  ∃ r id, ({} : Registry).run records = some r ∧ r.root = some id ∧ r.ids = [id]

instance (records : List Record) : Decidable (Accepts records) :=
  match ran : ({} : Registry).run records with
  | none => isFalse fun ⟨r, _, accepted, _⟩ => by rw [ran] at accepted; cases accepted
  | some r =>
    match rooted : r.root with
    | none => isFalse fun ⟨r', _, accepted, root, _⟩ => by
        rw [ran, Option.some.injEq] at accepted
        subst accepted
        rw [rooted] at root
        cases root
    | some id =>
      if alone : r.ids = [id] then isTrue ⟨r, id, ran, rooted, alone⟩
      else isFalse fun ⟨r', id', accepted, root, ids⟩ => by
        rw [ran, Option.some.injEq] at accepted
        subst accepted
        rw [rooted, Option.some.injEq] at root
        subst root
        exact alone ids

theorem run_cons_eq_some {r r'' : Registry} {record : Record} {rest : List Record} :
    r.run (record :: rest) = some r'' ↔ ∃ r', r.step record = some r' ∧ r'.run rest = some r'' := by
  simp only [run, Option.bind_eq_some_iff]

end Registry

namespace Snapshot.Progress

/-- The reader's progress `p` has registered what `r` says: its table holds exactly
the ids of `r`, in the same order, and is well formed, and its root is `r`'s. -/
structure Registers (p : Progress) (r : Registry) : Prop where
  keys : p.table.keys = r.ids
  root : p.rootId = r.root
  wellFormed : p.table.WellFormed

variable {p q : Progress} {r : Registry}

theorem registers_empty : Registers {} {} := ⟨rfl, rfl, IdTable.wellFormed_empty⟩

/-- A positive id is held exactly when it is registered. -/
theorem Registers.get?_ne_none_iff (registers : Registers p r) {id : Nat} (idPos : id ≠ 0) :
    p.table.get? id ≠ none ↔ id ∈ r.ids := by
  rw [← registers.keys]
  constructor
  · intro found
    obtain ⟨d, held⟩ := Option.ne_none_iff_exists'.mp found
    exact IdTable.mem_keys_of_get?_eq_some held
  · intro member absent
    rw [IdTable.get?_of_ne_zero _ idPos, Option.map_eq_none_iff, List.find?_eq_none] at absent
    obtain ⟨e, inside, key⟩ := List.mem_map.mp member
    exact absent e inside (by simp [key])

theorem Registers.zero_not_mem (registers : Registers p r) : 0 ∉ r.ids := fun member =>
  registers.wellFormed.positive 0 (registers.keys ▸ member) rfl

theorem Registers.length_ids (registers : Registers p r) : r.ids.length = p.table.size := by
  rw [← registers.keys]
  simp [IdTable.keys, IdTable.size]

/-- Every record the reader applies, the registry takes, and the two stay together. -/
theorem Registers.step_of_applied (registers : Registers p r) {record : Record}
    (applied : Applied p record q) : ∃ r', r.step record = some r' ∧ Registers q r' := by
  have wf := registers.wellFormed
  cases applied with
  | declare inserted =>
      rename_i id _ t
      have idPos : id ≠ 0 := fun zero => by
        rw [zero, IdTable.insert_zero] at inserted
        cases inserted
      have fresh : p.table.get? id = none := by
        cases found : p.table.get? id with
        | none => rfl
        | some w =>
            rw [IdTable.insert_of_get?_eq_some found] at inserted
            cases inserted
      have room := (IdTable.insert_isOk_iff wf idPos fresh _).mp (by rw [inserted]; rfl)
      have absent : id ∉ r.ids := fun member => (registers.get?_ne_none_iff idPos).mpr member fresh
      refine ⟨_, if_pos ⟨idPos, absent, registers.length_ids ▸ room⟩, ?_⟩
      exact ⟨by rw [IdTable.keys_of_insert_eq_ok inserted, registers.keys], registers.root,
        wf.of_insert inserted⟩
  | @root fid size dirId items name t idPos noRoot modified =>
      have held := registers.keys ▸ IdTable.mem_keys_of_modify?_eq_some modified
      refine ⟨{ r with root := some dirId }, ?_, ?_⟩
      · simp only [Registry.step, idPos, if_false, ← registers.root, noRoot, held, and_self, if_true]
      · exact ⟨by rw [IdTable.keys_of_modify?_eq_some modified, registers.keys], rfl,
          wf.of_modify? modified⟩
  | @place parent fid size dirId items name dir t t' parentPos idPos erased modified =>
      have held := registers.keys ▸ IdTable.mem_keys_of_erase?_eq_some erased
      have erasedKeys := IdTable.keys_of_erase?_eq_some erased
      rw [registers.keys, ← (registers.keys ▸ wf.nodup : r.ids.Nodup).erase_eq_filter] at erasedKeys
      have parentHeld := erasedKeys ▸ IdTable.mem_keys_of_modify?_eq_some modified
      refine ⟨{ r with ids := r.ids.erase dirId }, ?_, ?_⟩
      · simp only [Registry.step, idPos, parentPos, if_false, held, parentHeld, and_self, if_true]
      · exact ⟨by rw [IdTable.keys_of_modify?_eq_some modified, erasedKeys], registers.root,
          (wf.of_erase? erased).of_modify? modified⟩
  | file modified =>
      have held := registers.keys ▸ IdTable.mem_keys_of_modify?_eq_some modified
      refine ⟨r, by simp only [Registry.step, if_true, held], ?_⟩
      exact ⟨by rw [IdTable.keys_of_modify?_eq_some modified, registers.keys], registers.root,
        wf.of_modify? modified⟩

/-- Every record the registry takes, the reader applies. -/
theorem Registers.applied_of_step (registers : Registers p r) {record : Record} {r' : Registry}
    (stepped : r.step record = some r') : ∃ q, Applied p record q := by
  have wf := registers.wellFormed
  -- A registered id holds a directory.
  have holds : ∀ {id : Nat}, id ∈ r.ids → ∃ d, p.table.get? id = some d := fun member =>
    IdTable.exists_get?_of_mem_keys (fun zero => registers.zero_not_mem (zero ▸ member))
      (registers.keys ▸ member)
  cases record with
  | directory id path =>
      simp only [Registry.step] at stepped
      split_ifs at stepped with fits
      obtain ⟨idPos, absent, room⟩ := fits
      have fresh : p.table.get? id = none := by
        by_contra found
        exact absent ((registers.get?_ne_none_iff idPos).mp found)
      obtain ⟨t, inserted⟩ :=
        IdTable.exists_insert_eq_ok wf idPos fresh { name := "" } (registers.length_ids ▸ room)
      exact ⟨_, .declare inserted⟩
  | entry parent fid size dirId items name =>
      simp only [Registry.step] at stepped
      split_ifs at stepped with isFile parentHeld isRoot rootHeld placed
      · -- A file's entry needs its parent registered.
        subst isFile
        obtain ⟨up, found⟩ := holds parentHeld
        obtain ⟨t, modified⟩ := IdTable.exists_modify?_eq_some found
          (fun up => { up with files := up.files ++ [{ name, size, fid }] })
        exact ⟨_, .file modified⟩
      · -- The root's entry needs its id registered and no root before.
        subst isRoot
        obtain ⟨noRoot, held⟩ := rootHeld
        obtain ⟨d, found⟩ := holds held
        obtain ⟨t, modified⟩ := IdTable.exists_modify?_eq_some found (fill name fid size dirId items)
        exact ⟨_, .root isFile (registers.root ▸ noRoot) modified⟩
      · -- Another directory's entry takes its id out, then needs its parent.
        obtain ⟨held, parentLeft⟩ := placed
        obtain ⟨d, found⟩ := holds held
        obtain ⟨t, erased⟩ := IdTable.exists_erase?_eq_some found
        have erasedKeys := IdTable.keys_of_erase?_eq_some erased
        rw [registers.keys, ← (registers.keys ▸ wf.nodup : r.ids.Nodup).erase_eq_filter] at erasedKeys
        obtain ⟨up, upFound⟩ := IdTable.exists_get?_of_mem_keys isRoot (erasedKeys ▸ parentLeft)
        obtain ⟨t', modified⟩ := IdTable.exists_modify?_eq_some upFound
          (fun up => { up with dirs := up.dirs ++ [fill name fid size dirId items d] })
        exact ⟨_, .place isRoot isFile erased modified⟩

/-- Whatever records the reader applies, the registry takes, ending together. -/
theorem Registers.run_of_applyAll {records : List Record} :
    ∀ {p q : Progress} {r : Registry}, Registers p r → p.applyAll records = some q →
      ∃ r', r.run records = some r' ∧ Registers q r' := by
  induction records with
  | nil =>
      intro p q r registers applied
      rw [applyAll_nil, Option.some.injEq] at applied
      exact ⟨r, rfl, applied ▸ registers⟩
  | cons record rest inductionHypothesis =>
      intro p q r registers applied
      obtain ⟨p₁, step, later⟩ := applyAll_cons_eq_some.mp applied
      obtain ⟨r₁, stepped, registers₁⟩ := registers.step_of_applied step
      obtain ⟨r', ran, final⟩ := inductionHypothesis registers₁ later
      exact ⟨r', Registry.run_cons_eq_some.mpr ⟨r₁, stepped, ran⟩, final⟩

/-- Whatever records the registry takes, the reader applies, ending together. -/
theorem Registers.applyAll_of_run {records : List Record} :
    ∀ {p : Progress} {r r' : Registry}, Registers p r → r.run records = some r' →
      ∃ q, p.applyAll records = some q ∧ Registers q r' := by
  induction records with
  | nil =>
      intro p r r' registers ran
      rw [Registry.run, Option.some.injEq] at ran
      exact ⟨p, rfl, ran ▸ registers⟩
  | cons record rest inductionHypothesis =>
      intro p r r' registers ran
      obtain ⟨r₁, stepped, later⟩ := Registry.run_cons_eq_some.mp ran
      obtain ⟨p₁, step⟩ := registers.applied_of_step stepped
      -- The registry's step is a function: the one the reader's step gives is `r₁`.
      obtain ⟨r₁', stepped', registers₁⟩ := registers.step_of_applied step
      obtain rfl : r₁' = r₁ := Option.some.inj (stepped'.symm.trans stepped)
      obtain ⟨q, applied, final⟩ := inductionHypothesis registers₁ later
      exact ⟨q, applyAll_cons_eq_some.mpr ⟨p₁, step, applied⟩, final⟩

end Snapshot.Progress

open Snapshot in
/-- The reader accepts exactly the inputs whose lines are all UTF-8 and, unmarked,
records, and whose records the registry takes to the root's id alone. -/
theorem read_accepts_iff {bytes : List UInt8} :
    (∃ S, read bytes = .ok S) ↔
      (∀ raw ∈ splitLines bytes, (lineRecord raw).isOk) ∧ Registry.Accepts (records (splitLines bytes)) := by
  constructor
  · rintro ⟨S, accepted⟩
    obtain ⟨each, p, id, t, applied, rootId, size, erased, -, -⟩ := read_eq_ok_iff.mp accepted
    obtain ⟨r, ran, registers⟩ := Progress.registers_empty.run_of_applyAll applied
    -- The root's id is held, and nothing else: the table holds at most one key.
    have alone := IdTable.keys_eq_singleton (IdTable.mem_keys_of_erase?_eq_some erased) size
    exact ⟨each, r, id, ran, registers.root ▸ rootId, registers.keys ▸ alone⟩
  · rintro ⟨each, r, id, ran, rootId, alone⟩
    obtain ⟨p, applied, registers⟩ := Progress.registers_empty.applyAll_of_run ran
    have idPos : id ≠ 0 := fun zero => registers.zero_not_mem (by simp [alone, zero])
    have held : id ∈ p.table.keys := by simp [registers.keys, alone]
    obtain ⟨root, found⟩ := IdTable.exists_get?_of_mem_keys idPos held
    obtain ⟨t, erased⟩ := IdTable.exists_erase?_eq_some found
    have size : p.table.size ≤ 1 := by simp [← registers.length_ids, alone]
    exact ⟨⟨root, p.maxId, Md5.digest bytes⟩, read_eq_ok_iff.mpr
      ⟨each, p, id, t, applied, registers.root ▸ rootId, size, erased, rfl, rfl⟩⟩

end TreeDump
