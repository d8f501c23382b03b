import Mathlib
import TreeDump.Proofs.Accepted

/-!
A snapshot as the records of its lines.

Owns: what one line of a snapshot reads as (`Snapshot.lineRecord`): nothing for a
marked line, the record of any other line, or the error of a line that is not
UTF-8 or, unmarked, is no record; the records of the unmarked lines, in order
(`Snapshot.records`); and `Progress.applyAll`, the records applied one after
another with the place of an error forgotten.

Main statement (`readLines_eq_ok_iff`): reading lines succeeds exactly when every
line reads as a record or as a marked line and the records apply in order; the
line numbers only name errors. So a snapshot the reader accepts is the records of
its unmarked lines applied to an empty table (`read_eq_ok_iff`).
-/

namespace TreeDump

namespace Snapshot

open Wire

/-- What a line reads as, line break included: nothing for a marked line, else its
record. A line that is not UTF-8, or is unmarked and no record, is an error. -/
def lineRecord (raw : List UInt8) : Except LineError (Option Record) :=
  match Text.decodeStrict? raw with
  | none => .error (.invalid .line (Text.trimEnd (Text.decodeLossy raw)))
  | some text =>
    let text := if text.toList.getLast? = some '\n' then String.ofList text.toList.dropLast else text
    if (markerOf text).isSome then .ok none
    else (Line.parse text).map fun line => some line.record

/-- The records of the unmarked lines, in order. -/
def records (lines : List (List UInt8)) : List Record :=
  lines.filterMap fun raw => (lineRecord raw).toOption.join

@[simp] theorem records_nil : records [] = [] := rfl

theorem records_cons (raw : List UInt8) (rest : List (List UInt8)) :
    records (raw :: rest) = ((lineRecord raw).toOption.join).toList ++ records rest := by
  unfold records
  rw [List.filterMap_cons]
  cases (lineRecord raw).toOption.join <;> rfl

namespace Progress

/-- Reading a line is reading its record and applying it; a marked line changes
nothing. -/
theorem readLine_eq (p : Progress) (n : Nat) (raw : List UInt8) :
    p.readLine n raw = match lineRecord raw with
      | .error e => .error (.parse n e)
      | .ok none => .ok p
      | .ok (some record) => p.apply n record := by
  unfold readLine lineRecord
  cases Text.decodeStrict? raw with
  | none => rfl
  | some text =>
      dsimp only
      generalize (if text.toList.getLast? = some '\n' then String.ofList text.toList.dropLast else text) = stripped
      by_cases marked : (markerOf stripped).isSome = true
      · simp only [marked, if_true]
      · simp only [marked, Bool.false_eq_true, if_false]
        cases Line.parse stripped <;> rfl

/-- What applying a record does to the reader's progress, one case for each kind
of record: a declaration adds an empty directory under its id; the root's entry
fills its directory in place and makes it the root; any other directory's entry
takes its directory out of the table, fills it and appends it to its parent's
directories; a file's entry appends the file to its parent's files. -/
inductive Applied (p : Progress) : Record → Progress → Prop where
  | declare {id : Nat} {path : String} {t : IdTable DirEntry} :
      p.table.insert id { name := "" } = .ok t →
      Applied p (.directory id path) ⟨t, max p.maxId id, p.rootId⟩
  | root {fid size dirId items : Nat} {name : String} {t : IdTable DirEntry} :
      dirId ≠ 0 → p.rootId = none → p.table.modify? dirId (fill name fid size dirId items) = some t →
      Applied p (.entry 0 fid size dirId items name) ⟨t, max p.maxId dirId, some dirId⟩
  | place {parent fid size dirId items : Nat} {name : String} {dir : DirEntry} {t t' : IdTable DirEntry} :
      parent ≠ 0 → dirId ≠ 0 → p.table.erase? dirId = some (dir, t) →
      t.modify? parent (fun up => { up with dirs := up.dirs ++ [fill name fid size dirId items dir] }) = some t' →
      Applied p (.entry parent fid size dirId items name) ⟨t', max p.maxId dirId, p.rootId⟩
  | file {parent fid size items : Nat} {name : String} {t : IdTable DirEntry} :
      p.table.modify? parent (fun up => { up with files := up.files ++ [{ name, size, fid }] }) = some t →
      Applied p (.entry parent fid size 0 items name) ⟨t, p.maxId, p.rootId⟩

/-- A record the reader applies is applied in one of the four ways. -/
theorem applied_of_apply_eq_ok {p q : Progress} {n : Nat} {record : Record}
    (applied : p.apply n record = .ok q) : Applied p record q := by
  cases record with
  | directory id path =>
      simp only [apply] at applied
      split at applied
      · cases applied
      · rename_i t inserted
        cases applied
        exact .declare inserted
  | entry parent fid size dirId items name =>
      by_cases isFile : dirId = 0
      · -- A file's entry goes to its parent.
        subst isFile
        simp only [apply, ne_eq, not_true_eq_false, if_false] at applied
        split at applied
        · cases applied
        · rename_i t modified
          cases applied
          exact .file modified
      by_cases isRoot : parent = 0
      · -- The root's entry, refused when a root was read before.
        subst isRoot
        by_cases hasRoot : p.rootId.isSome
        · simp [apply, isFile, hasRoot] at applied
        simp only [apply, ne_eq, isFile, not_false_eq_true, if_true, hasRoot, Bool.false_eq_true,
          if_false] at applied
        split at applied
        · cases applied
        · rename_i t modified
          cases applied
          exact .root isFile (Option.not_isSome_iff_eq_none.mp hasRoot) modified
      · simp only [apply, ne_eq, isFile, not_false_eq_true, if_true, isRoot, if_false] at applied
        split at applied
        · cases applied
        · rename_i dir t erased
          split at applied
          · cases applied
          · rename_i t' modified
            cases applied
            exact .place isRoot isFile erased modified

/-- Every way of applying a record is what the reader does, whatever the line. -/
theorem apply_eq_ok_of_applied {p q : Progress} {record : Record} (applied : Applied p record q)
    (n : Nat) : p.apply n record = .ok q := by
  cases applied with
  | declare inserted => exact apply_directory _ inserted
  | root idPos noRoot modified => exact apply_rootEntry idPos noRoot modified
  | place parentPos idPos erased modified => exact apply_dirEntry parentPos idPos erased modified
  | file modified => simp [apply, modified]

/-- An entry under id `0` is applied only as the root's entry, since no directory
is held under `0`. -/
theorem Applied.of_parent_zero {p q : Progress} {fid size dirId items : Nat} {name : String}
    (applied : p.Applied (.entry 0 fid size dirId items name) q) :
    dirId ≠ 0 ∧ p.rootId = none ∧ ∃ t, p.table.modify? dirId (fill name fid size dirId items) = some t ∧
      q = ⟨t, max p.maxId dirId, some dirId⟩ := by
  cases applied with
  | root idPos noRoot modified => exact ⟨idPos, noRoot, _, modified, rfl⟩
  | place parentPos => exact absurd rfl parentPos
  | file modified =>
      rw [(IdTable.modify?_eq_none_iff _ _ _).mpr (IdTable.get?_zero _)] at modified
      cases modified

/-- Applies records in order; `none` when one of them is refused. -/
def applyAll (p : Progress) : List Record → Option Progress
  | [] => some p
  | record :: rest => match p.apply 0 record with
    | .ok q => q.applyAll rest
    | .error _ => none

@[simp] theorem applyAll_nil (p : Progress) : p.applyAll [] = some p := rfl

theorem applyAll_cons_eq_some {p q : Progress} {record : Record} {rest : List Record} :
    p.applyAll (record :: rest) = some q ↔ ∃ r, Applied p record r ∧ r.applyAll rest = some q := by
  rw [applyAll.eq_2]
  cases applied : p.apply 0 record with
  | ok r =>
      constructor
      · exact fun later => ⟨r, applied_of_apply_eq_ok applied, later⟩
      · rintro ⟨r', step, later⟩
        rw [apply_eq_ok_of_applied step 0, Except.ok.injEq] at applied
        rwa [← applied]
  | error e =>
      simp only [reduceCtorEq, false_iff, not_exists, not_and]
      intro r' step
      rw [apply_eq_ok_of_applied step 0] at applied
      cases applied

theorem applyAll_append_eq_some {p q : Progress} {first rest : List Record} :
    p.applyAll (first ++ rest) = some q ↔ ∃ r, p.applyAll first = some r ∧ r.applyAll rest = some q := by
  induction first generalizing p with
  | nil => simp
  | cons record first inductionHypothesis =>
      simp only [List.cons_append, applyAll_cons_eq_some]
      constructor
      · rintro ⟨r, applied, rest⟩
        obtain ⟨r', first, later⟩ := inductionHypothesis.mp rest
        exact ⟨r', ⟨r, applied, first⟩, later⟩
      · rintro ⟨r', ⟨r, applied, first⟩, later⟩
        exact ⟨r, applied, inductionHypothesis.mpr ⟨r', first, later⟩⟩

/-- Reading lines succeeds exactly when every line reads as a record or as a marked
line and the records apply in order. -/
theorem readLines_eq_ok_iff {lines : List (List UInt8)} :
    ∀ {p q : Progress} {n : Nat}, p.readLines n lines = .ok q ↔
      (∀ raw ∈ lines, (lineRecord raw).isOk) ∧ p.applyAll (records lines) = some q := by
  induction lines with
  | nil =>
      intro p q n
      rw [readLines_nil, records_nil, applyAll_nil, Except.ok.injEq, Option.some.injEq]
      simp only [List.not_mem_nil, false_imp_iff, imp_true_iff, true_and]
  | cons raw rest inductionHypothesis =>
      intro p q n
      rw [readLines_cons, readLine_eq, records_cons, List.forall_mem_cons]
      cases read : lineRecord raw with
      | error e =>
          have failed : (Except.error e : Except LineError (Option Record)).isOk = false := rfl
          simp only [failed, Bool.false_eq_true, false_and, iff_false]
          exact fun stopped => by cases stopped
      | ok record =>
          have passed : (Except.ok record : Except LineError (Option Record)).isOk = true := rfl
          simp only [passed, true_and]
          cases record with
          | none => exact inductionHypothesis
          | some record =>
              show (p.apply n record >>= fun p => p.readLines (n + 1) rest) = _ ↔ _
              rw [show (Except.ok (some record) : Except LineError (Option Record)).toOption.join.toList =
                [record] from rfl, List.singleton_append, applyAll_cons_eq_some]
              cases applied : p.apply n record with
              | error e =>
                  constructor
                  · intro stopped
                    cases stopped
                  · rintro ⟨-, r', step, -⟩
                    rw [apply_eq_ok_of_applied step n] at applied
                    cases applied
              | ok r =>
                  have step := applied_of_apply_eq_ok applied
                  show r.readLines (n + 1) rest = .ok q ↔ _
                  rw [inductionHypothesis]
                  constructor
                  · rintro ⟨each, later⟩
                    exact ⟨each, r, step, later⟩
                  · rintro ⟨each, r', step', later⟩
                    rw [apply_eq_ok_of_applied step' n, Except.ok.injEq] at applied
                    rw [← applied]
                    exact ⟨each, later⟩

end Progress

/-- A snapshot the reader accepts: every line reads as a record or as a marked line,
the records of the unmarked lines apply in order to an empty table and leave at
most the root held, and the snapshot is that root, the largest id read and the
fingerprint of the bytes. -/
theorem read_eq_ok_iff {bytes : List UInt8} {S : Snapshot} :
    read bytes = .ok S ↔
      (∀ raw ∈ splitLines bytes, (lineRecord raw).isOk) ∧
        ∃ p id t, ({} : Progress).applyAll (records (splitLines bytes)) = some p ∧ p.rootId = some id ∧
          p.table.size ≤ 1 ∧ p.table.erase? id = some (S.root, t) ∧ S.maxId = p.maxId ∧
          S.digest = Md5.digest bytes := by
  constructor
  · intro accepted
    obtain ⟨p, id, t, lines, root, size, erased, maxId, digest⟩ := read_eq_ok accepted
    obtain ⟨each, applied⟩ := Progress.readLines_eq_ok_iff.mp lines
    exact ⟨each, p, id, t, applied, root, size, erased, maxId, digest⟩
  · rintro ⟨each, p, id, t, applied, root, size, erased, maxId, digest⟩
    have lines : ({} : Progress).readLines 1 (splitLines bytes) = .ok p :=
      Progress.readLines_eq_ok_iff.mpr ⟨each, applied⟩
    unfold read
    rw [lines]
    simp only [bind, Except.bind, root, Nat.not_lt.mpr size, if_false, erased]
    cases S
    dsimp only at maxId digest ⊢
    rw [maxId, digest]

end Snapshot

end TreeDump
