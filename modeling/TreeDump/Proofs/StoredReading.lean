import Mathlib
import TreeDump.Snapshot.Stored
import TreeDump.Proofs.StoredTable
import TreeDump.Proofs.Reading
import TreeDump.Proofs.Budget
import TreeDump.Proofs.LineGrammar

/-!
The reader over the store reads as the reader over the table it holds.

`Snapshot.readStored` keeps the directories not yet placed in the store, and
`Snapshot.read` in the table the store holds. Line by line the two take the same steps:
the store answers each insert, removal and change in place as the table does
(`CuckooTable.Stores`), so they fail alike or go on alike, the store holding the table
(`Stored.Mirrors`). They part only where a rebuild gives up (`GaveUp`): an insert whose
tables cannot grow any further, or a removal whose shrink fails and empties the store,
so that the parent looked up next is missing. The stored read then fails, and its
result or its log says why.

Owns: `Wire.Record.IdsBelow`, the ids of a parsed record fit in a `u32`;
`Stored.Mirrors`, `GaveUp` and `Follows`; one lemma per kind of record
(`Stored.apply_follows`), then per line and per run of lines. Main statement
(`readStored_follows`): for every random source, the stored read returns what `read`
returns, or fails after giving up on its store; so the two accept the same dumps as
the same snapshots, but where the store gives up.
-/

namespace TreeDump

open Wire CuckooTable

/-! ### Ids a record names -/

namespace Wire

/-- The ids a record names fit in a `u32`. -/
def Record.IdsBelow : Record → Prop
  | .directory id _ => id < idRange
  | .entry parent _ _ dirId _ _ => parent < idRange ∧ dirId < idRange

theorem readField_lt {bound : Nat} {field : Field} {piece : Option (List Char)} {n : Nat}
    (read : readField bound field piece = .ok n) : n < bound := by
  obtain ⟨text, -, digits, -, -, -, -, fits⟩ := readField_eq_ok_iff.mp read
  exact fits

theorem readDirectory_idsBelow {parts : List (List Char)} {record : Record}
    (read : readDirectory parts = .ok record) : record.IdsBelow := by
  unfold readDirectory at read
  obtain ⟨id, readId, built⟩ := except_bind_eq_ok.mp read
  cases built
  exact readField_lt readId

theorem readEntry_idsBelow {parts : List (List Char)} {record : Record}
    (read : readEntry parts = .ok record) : record.IdsBelow := by
  unfold readEntry at read
  obtain ⟨parent, readParent, read⟩ := except_bind_eq_ok.mp read
  obtain ⟨fid, -, read⟩ := except_bind_eq_ok.mp read
  obtain ⟨size, -, read⟩ := except_bind_eq_ok.mp read
  obtain ⟨dirId, readDirId, read⟩ := except_bind_eq_ok.mp read
  obtain ⟨items, -, read⟩ := except_bind_eq_ok.mp read
  split at read
  · cases read
    exact ⟨readField_lt readParent, readField_lt readDirId⟩
  · cases read

/-- Every id a parsed line names fits in a `u32`. -/
theorem Line.parse_idsBelow {text : String} {line : Line} (parsed : Line.parse text = .ok line) :
    line.record.IdsBelow := by
  unfold Line.parse at parsed
  split_ifs at parsed
  dsimp only at parsed
  split at parsed
  · obtain ⟨record, read, rfl⟩ := Scan.except_map_eq_ok parsed
    exact readDirectory_idsBelow read
  · obtain ⟨record, read, rfl⟩ := Scan.except_map_eq_ok parsed
    exact readEntry_idsBelow read
  · cases parsed

end Wire

/-- An id below `idRange` is the same number as a `u32`. -/
theorem id_toNat_ofNat {k : Nat} (below : k < idRange) : (UInt32.ofNat k).toNat = k :=
  UInt32.toNat_ofNat_of_lt' (by simpa [idRange] using below)

namespace Snapshot

/-! ### The lines both readers read -/

theorem Progress.readLine_eq_lineRecordAt (p : Progress) (n : Nat) (raw : List UInt8) :
    p.readLine n raw =
      match lineRecordAt n raw with
      | .error e => .error e
      | .ok none => .ok p
      | .ok (some record) => p.apply n record := by
  unfold Progress.readLine lineRecordAt
  cases Text.decodeStrict? raw with
  | none => rfl
  | some text =>
    dsimp only
    generalize (if text.toList.getLast? = some '\n' then String.ofList text.toList.dropLast
      else text) = line
    by_cases marked : (markerOf line).isSome
    · simp [marked]
    · simp only [marked, if_false, Bool.false_eq_true]
      cases Line.parse line <;> rfl

theorem lineRecordAt_idsBelow {n : Nat} {raw : List UInt8} {record : Record}
    (recorded : lineRecordAt n raw = .ok (some record)) : record.IdsBelow := by
  revert recorded
  unfold lineRecordAt
  cases Text.decodeStrict? raw with
  | none => intro failed; cases failed
  | some text =>
    dsimp only
    generalize (if text.toList.getLast? = some '\n' then String.ofList text.toList.dropLast
      else text) = line
    by_cases marked : (markerOf line).isSome
    · simp [marked]
    · simp only [marked, if_false, Bool.false_eq_true]
      cases parsed : Line.parse line with
      | error e => intro failed; cases failed
      | ok parsedLine =>
        intro found
        cases found
        exact Line.parse_idsBelow parsed

theorem Stored.readLines_cons_error {q : Stored} {env env' : Env} {n : Nat} {raw : List UInt8}
    {e : SnapshotError} (fails : q.readLine env n raw = (.error e, env'))
    (rest : List (List UInt8)) : q.readLines env n (raw :: rest) = (.error e, env') := by
  simp [Stored.readLines, fails]

theorem Stored.readLines_cons_ok {q q' : Stored} {env env' : Env} {n : Nat} {raw : List UInt8}
    (step : q.readLine env n raw = (.ok q', env')) (rest : List (List UInt8)) :
    q.readLines env n (raw :: rest) = q'.readLines env' (n + 1) rest := by
  simp [Stored.readLines, step]

/-! ### A store beside the table it holds -/

/-- The store of `q` holds the table of `p`, both have seen the same largest id and
root, and the root's id fits in a `u32`. -/
structure Stored.Mirrors (q : Stored) (p : Progress) : Prop where
  stores : q.table.Stores p.table
  maxId : q.maxId = p.maxId
  rootId : q.rootId = p.rootId
  rootBelow : ∀ r, q.rootId = some r → r < idRange

/-- A read into the store gave up on it: it failed, on an insert whose tables could not
grow any further, or after a shrink that failed, which its log shows. -/
def GaveUp {β : Type} (out : Except SnapshotError β × Env) : Prop :=
  (∃ n, out.1 = .error (.table n (.full IdTable.maxLog))) ∨
    ((∃ e, out.1 = .error e) ∧ ∃ e, Note.shrinkFailed e ∈ out.2.notes)

theorem GaveUp.failed {β : Type} {out : Except SnapshotError β × Env} (gaveUp : GaveUp out) :
    ∃ e, out.1 = .error e := by
  rcases gaveUp with ⟨n, full⟩ | ⟨failed, -⟩
  · exact ⟨_, full⟩
  · exact failed

/-- Giving up is read off the error and the log, whatever a success would have been. -/
theorem GaveUp.error {β β' : Type} {e : SnapshotError} {env : Env}
    (gaveUp : GaveUp ((.error e : Except SnapshotError β), env)) :
    GaveUp ((.error e : Except SnapshotError β'), env) := by
  rcases gaveUp with ⟨n, full⟩ | ⟨-, noted⟩
  · exact .inl ⟨n, by simpa using full⟩
  · exact .inr ⟨⟨e, rfl⟩, noted⟩

/-- How a step into the store ends beside the same step into the table it holds: both
fail alike, both go on with the store holding the table, or the store gave up. -/
def Follows (stored : Except SnapshotError Stored × Env) (plain : Except SnapshotError Progress) :
    Prop :=
  (∃ e, stored.1 = .error e ∧ plain = .error e) ∨
    (∃ q p, stored.1 = .ok q ∧ plain = .ok p ∧ q.Mirrors p) ∨ GaveUp stored

section Records

variable {q : Stored} {p : Progress} (mirrors : q.Mirrors p) (env : Env) (n : Nat)
include mirrors

/-- A declaration: both tables take the id alike, or both refuse it alike, or the store
gives up on growing. -/
theorem Stored.Mirrors.apply_directory_follows {id : Nat} (path : String) (below : id < idRange) :
    Follows (q.apply env n (.directory id path)) (p.apply n (.directory id path)) := by
  have conv := id_toNat_ofNat below
  rcases storing : q.table.insert (UInt32.ofNat id) { name := "" } env with ⟨r, c', env'⟩
  cases inserted : p.table.insert id { name := "" } with
  | ok t' =>
    rcases mirrors.stores.insert_of_ok (k := UInt32.ofNat id) (by rw [conv]; exact inserted) env
      with failed | ⟨ok, kept⟩
    · rw [storing] at failed
      dsimp only at failed
      subst failed
      exact .inr (.inr (.inl ⟨n, by simp [Stored.apply, storing]⟩))
    · rw [storing] at ok kept
      dsimp only at ok kept
      subst ok
      refine .inr (.inl ⟨⟨c', max q.maxId id, q.rootId⟩, ⟨t', max p.maxId id, p.rootId⟩,
        by simp [Stored.apply, storing], by simp [Progress.apply, inserted],
        kept, by rw [mirrors.maxId], mirrors.rootId, mirrors.rootBelow⟩)
  | error e =>
    obtain ⟨refused, -⟩ := mirrors.stores.insert_of_error (k := UInt32.ofNat id)
      (by rw [conv]; exact inserted) env
    rw [storing] at refused
    dsimp only at refused
    subst refused
    exact .inl ⟨.table n e, by simp [Stored.apply, storing], by simp [Progress.apply, inserted]⟩

/-- The root's entry: both fill the root's declaration alike, or both find none, or both
have a root already. -/
theorem Stored.Mirrors.apply_root_follows {fid size dirId items : Nat} {name : String}
    (nonzero : dirId ≠ 0) (below : dirId < idRange) :
    Follows (q.apply env n (.entry 0 fid size dirId items name))
      (p.apply n (.entry 0 fid size dirId items name)) := by
  have conv := id_toNat_ofNat below
  by_cases rooted : p.rootId.isSome
  · have storedRooted : q.rootId.isSome := by rw [mirrors.rootId]; exact rooted
    exact .inl ⟨.parse n (.invalid .parent "0"), by simp [Stored.apply, nonzero, storedRooted],
      by simp [Progress.apply, nonzero, rooted]⟩
  have storedRooted : ¬q.rootId.isSome := by rw [mirrors.rootId]; exact rooted
  cases changed : p.table.modify? dirId (fill name fid size dirId items) with
  | none =>
    have missing := mirrors.stores.modify?_of_none (k := UInt32.ofNat dirId) (by rw [conv]; exact changed)
    exact .inl ⟨.unknownDirectory n dirId, by simp [Stored.apply, nonzero, storedRooted, missing],
      by simp [Progress.apply, nonzero, rooted, changed]⟩
  | some t' =>
    obtain ⟨c', modified, kept⟩ :=
      mirrors.stores.modify?_of_some (k := UInt32.ofNat dirId) (by rw [conv]; exact changed)
    refine .inr (.inl ⟨⟨c', max q.maxId dirId, some dirId⟩, ⟨t', max p.maxId dirId, some dirId⟩,
      by simp [Stored.apply, nonzero, storedRooted, modified],
      by simp [Progress.apply, nonzero, rooted, changed], kept, by rw [mirrors.maxId], rfl, ?_⟩)
    intro r placed
    cases placed
    exact below

/-- A directory's entry below its parent: both take it out of the table and append it to
its parent alike, or fail alike; or the shrink after taking it out fails, the store is
left empty, and the parent is missing from it. -/
theorem Stored.Mirrors.apply_child_follows {parent fid size dirId items : Nat} {name : String}
    (nonzero : dirId ≠ 0) (placed : parent ≠ 0) (parentBelow : parent < idRange)
    (below : dirId < idRange) :
    Follows (q.apply env n (.entry parent fid size dirId items name))
      (p.apply n (.entry parent fid size dirId items name)) := by
  have conv := id_toNat_ofNat below
  have parentConv := id_toNat_ofNat parentBelow
  cases erased : p.table.erase? dirId with
  | none =>
    have kept := mirrors.stores.remove_of_none (k := UInt32.ofNat dirId) (by rw [conv]; exact erased) env
    exact .inl ⟨.unknownDirectory n dirId, by simp [Stored.apply, nonzero, placed, kept],
      by simp [Progress.apply, nonzero, placed, erased]⟩
  | some taken =>
    obtain ⟨dir, t'⟩ := taken
    obtain ⟨removed, rest⟩ :=
      mirrors.stores.remove_of_some (k := UInt32.ofNat dirId) (by rw [conv]; exact erased) env
    rcases removing : q.table.remove (UInt32.ofNat dirId) env with ⟨found, c', env'⟩
    rw [removing] at removed rest
    dsimp only at removed rest
    subst removed
    rcases rest with kept | ⟨emptied, e, noted⟩
    · -- the store still holds the table: the parent is looked up alike
      cases appended : t'.modify? parent
          (fun up => { up with dirs := up.dirs ++ [fill name fid size dirId items dir] }) with
      | none =>
        have missing := kept.modify?_of_none (k := UInt32.ofNat parent)
          (by rw [parentConv]; exact appended)
        exact .inl ⟨.unknownDirectory n parent, by simp [Stored.apply, nonzero, placed, removing, missing],
          by simp [Progress.apply, nonzero, placed, erased, appended]⟩
      | some t'' =>
        obtain ⟨c'', modified, kept'⟩ :=
          kept.modify?_of_some (k := UInt32.ofNat parent) (by rw [parentConv]; exact appended)
        exact .inr (.inl ⟨⟨c'', max q.maxId dirId, q.rootId⟩, ⟨t'', max p.maxId dirId, p.rootId⟩,
          by simp [Stored.apply, nonzero, placed, removing, modified],
          by simp [Progress.apply, nonzero, placed, erased, appended], kept',
          by rw [mirrors.maxId], mirrors.rootId, mirrors.rootBelow⟩)
    · -- the failed shrink left nothing, so the parent is missing from the store
      have missing : c'.modify? (UInt32.ofNat parent)
          (fun up => { up with dirs := up.dirs ++ [fill name fid size dirId items dir] }) = none := by
        rw [← Option.not_isSome_iff_eq_none, modify?_isSome, Option.not_isSome_iff_eq_none]
        exact Option.eq_none_iff_forall_ne_some.mpr fun v held => by
          simpa [emptied.entries] using ((Layout.of_emptied emptied).get?_eq_some_iff).mp held
      refine .inr (.inr (.inr ⟨⟨.unknownDirectory n parent, ?_⟩, e, ?_⟩))
      · simp [Stored.apply, nonzero, placed, removing, missing]
      · simpa [Stored.apply, nonzero, placed, removing, missing] using noted

/-- A file's entry: both append it to its parent alike, or both find no parent. -/
theorem Stored.Mirrors.apply_file_follows {parent fid size items : Nat} {name : String}
    (parentBelow : parent < idRange) :
    Follows (q.apply env n (.entry parent fid size 0 items name))
      (p.apply n (.entry parent fid size 0 items name)) := by
  have parentConv := id_toNat_ofNat parentBelow
  cases appended : p.table.modify? parent
      (fun up => { up with files := up.files ++ [{ name, size, fid }] }) with
  | none =>
    have missing := mirrors.stores.modify?_of_none (k := UInt32.ofNat parent)
      (by rw [parentConv]; exact appended)
    exact .inl ⟨.unknownDirectory n parent, by simp [Stored.apply, missing], by simp [Progress.apply, appended]⟩
  | some t' =>
    obtain ⟨c', modified, kept⟩ :=
      mirrors.stores.modify?_of_some (k := UInt32.ofNat parent) (by rw [parentConv]; exact appended)
    exact .inr (.inl ⟨⟨c', q.maxId, q.rootId⟩, ⟨t', p.maxId, p.rootId⟩,
      by simp [Stored.apply, modified], by simp [Progress.apply, appended],
      kept, mirrors.maxId, mirrors.rootId, mirrors.rootBelow⟩)

/-- Any record whose ids fit in a `u32` is applied alike to the store and to the table it
holds, or the store gives up. -/
theorem Stored.Mirrors.apply_follows {record : Record} (ids : record.IdsBelow) :
    Follows (q.apply env n record) (p.apply n record) := by
  cases record with
  | directory id path => exact mirrors.apply_directory_follows env n path ids
  | entry parent fid size dirId items name =>
    obtain ⟨parentBelow, below⟩ := ids
    by_cases nonzero : dirId = 0
    · subst nonzero
      exact mirrors.apply_file_follows env n parentBelow
    by_cases root : parent = 0
    · subst root
      exact mirrors.apply_root_follows env n nonzero below
    · exact mirrors.apply_child_follows env n nonzero root parentBelow below

/-- A line is read alike into the store and into the table it holds, or the store gives
up. -/
theorem Stored.Mirrors.readLine_follows (raw : List UInt8) :
    Follows (q.readLine env n raw) (p.readLine n raw) := by
  rw [Progress.readLine_eq_lineRecordAt]
  unfold Stored.readLine
  cases recorded : lineRecordAt n raw with
  | error e => exact .inl ⟨e, rfl, rfl⟩
  | ok record? =>
    cases record? with
    | none => exact .inr (.inl ⟨q, p, rfl, rfl, mirrors⟩)
    | some record => exact mirrors.apply_follows env n (lineRecordAt_idsBelow recorded)

end Records

/-- Lines are read alike into the store and into the table it holds, or the store gives
up; a store that gave up on one line ends the read there. -/
theorem Stored.Mirrors.readLines_follows {q : Stored} {p : Progress} (mirrors : q.Mirrors p) (env : Env)
    (n : Nat) (lines : List (List UInt8)) :
    Follows (q.readLines env n lines) (p.readLines n lines) := by
  induction lines generalizing q p env n with
  | nil => exact .inr (.inl ⟨q, p, rfl, rfl, mirrors⟩)
  | cons raw rest ih =>
    rcases reading : q.readLine env n raw with ⟨r, env'⟩
    have step := mirrors.readLine_follows env n raw
    rw [reading] at step
    rcases step with ⟨e, failed, fails⟩ | ⟨q', p', stepped, steps, mirrors'⟩ | gaveUp
    · dsimp only at failed
      subst failed
      rw [Stored.readLines_cons_error reading, Progress.readLines_cons_error fails]
      exact .inl ⟨e, rfl, rfl⟩
    · dsimp only at stepped
      subst stepped
      rw [Stored.readLines_cons_ok reading, Progress.readLines_cons_ok steps]
      exact ih mirrors' env' (n + 1)
    · obtain ⟨e, failed⟩ := gaveUp.failed
      dsimp only at failed
      subst failed
      rw [Stored.readLines_cons_error reading]
      exact .inr (.inr gaveUp)

theorem mirrors_new (rng : Rng) :
    ({ table := (CuckooTable.new { rng }).1 } : Stored).Mirrors {} :=
  ⟨stores_new _, rfl, rfl, fun _ none_eq => by cases none_eq⟩

/-- The stored read returns what `read` returns, whatever multipliers its store draws,
unless it gives up on its store: it then fails, on an insert whose tables cannot grow
any further, or after a shrink that failed, which its log notes. -/
theorem readStored_follows (rng : Rng) (bytes : List UInt8) :
    (readStored rng bytes).1 = read bytes ∨ GaveUp (readStored rng bytes) := by
  have lines := (mirrors_new rng).readLines_follows (CuckooTable.new (α := DirEntry) { rng }).2 1
    (splitLines bytes)
  unfold readStored read
  rcases fresh : (CuckooTable.new (α := DirEntry) { rng }) with ⟨table, env⟩
  rw [fresh] at lines
  dsimp only at lines ⊢
  rcases reading : ({ table } : Stored).readLines env 1 (splitLines bytes) with ⟨r, env'⟩
  rw [reading] at lines
  rcases lines with ⟨e, failed, fails⟩ | ⟨q, p, stepped, steps, mirrors⟩ | gaveUp
  · dsimp only at failed
    subst failed
    exact .inl (by simp [fails, bind, Except.bind])
  · dsimp only at stepped
    subst stepped
    refine .inl ?_
    simp only [steps, bind, Except.bind, ← mirrors.rootId]
    cases rooted : q.rootId with
    | none => rfl
    | some r =>
      have conv := id_toNat_ofNat (mirrors.rootBelow r rooted)
      simp only [mirrors.stores.len]
      split
      · rfl
      · cases erased : p.table.erase? r with
        | none =>
          rw [mirrors.stores.remove_of_none (k := UInt32.ofNat r) (by rw [conv]; exact erased) env']
        | some taken =>
          obtain ⟨root, t'⟩ := taken
          obtain ⟨removed, -⟩ :=
            mirrors.stores.remove_of_some (k := UInt32.ofNat r) (by rw [conv]; exact erased) env'
          rcases removing : q.table.remove (UInt32.ofNat r) env' with ⟨found, c', env''⟩
          rw [removing] at removed
          dsimp only at removed
          subst removed
          simp [mirrors.maxId]
  · obtain ⟨e, failed⟩ := gaveUp.failed
    dsimp only at failed
    subst failed
    dsimp only
    exact .inr gaveUp.error

/-- What `read` accepts, the stored read accepts alike, unless it gives up on its store. -/
theorem readStored_of_read {bytes : List UInt8} {S : Snapshot} (accepted : read bytes = .ok S)
    (rng : Rng) : (readStored rng bytes).1 = .ok S ∨ GaveUp (readStored rng bytes) :=
  accepted ▸ readStored_follows rng bytes

/-- What the stored read accepts, `read` accepts alike. -/
theorem read_of_readStored {rng : Rng} {bytes : List UInt8} {S : Snapshot}
    (accepted : (readStored rng bytes).1 = .ok S) : read bytes = .ok S := by
  rcases readStored_follows rng bytes with same | gaveUp
  · rw [← same, accepted]
  · obtain ⟨e, failed⟩ := gaveUp.failed
    rw [accepted] at failed
    cases failed

/-- What `read` refuses, the stored read refuses too. -/
theorem readStored_error_of_read {bytes : List UInt8} {e : SnapshotError}
    (refused : read bytes = .error e) (rng : Rng) : ∃ e', (readStored rng bytes).1 = .error e' := by
  rcases readStored_follows rng bytes with same | gaveUp
  · exact ⟨e, same.trans refused⟩
  · exact gaveUp.failed

end Snapshot

end TreeDump
