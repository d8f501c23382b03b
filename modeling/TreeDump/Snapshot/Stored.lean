import TreeDump.CuckooTable
import TreeDump.Snapshot

/-!
Reading a dump into the stored table.

`Snapshot.read` keeps the directories declared and not yet placed in an `IdTable`, the
pairs such a table holds. The reader of the program keeps them in the store itself, a
`CuckooTable` by `u32` id, which draws its multipliers from a random source and notes
its rebuilds in a log: `readStored` is that reader. It reads the lines as `read` does,
with the same checks in the same order and the same errors; the store's random source
and log come back with its result, also when the read fails.
-/

namespace TreeDump.Snapshot

open Wire CuckooTable

/-- The record of line `n` from its raw bytes, line break included; nothing for a marked
line. -/
def lineRecordAt (n : Nat) (raw : List UInt8) : Except SnapshotError (Option Record) :=
  match Text.decodeStrict? raw with
  | none => .error (.parse n (.invalid .line (Text.trimEnd (Text.decodeLossy raw))))
  | some text =>
    let text := if text.toList.getLast? = some '\n' then String.ofList text.toList.dropLast else text
    if (markerOf text).isSome then .ok none
    else
      match Line.parse text with
      | .error e => .error (.parse n e)
      | .ok line => .ok (some line.record)

/-- What reading into the store has gathered so far: the directories not yet placed, by
id, the largest id seen and the root's id once its entry has been read. -/
structure Stored where
  table : CuckooTable DirEntry
  maxId : Nat := 0
  rootId : Option Nat := none

/-- Applies the record of line `n`, ids taken as `u32`s. -/
def Stored.apply (p : Stored) (env : Env) (n : Nat) : Record → Except SnapshotError Stored × Env
  | .directory id _ =>
    match p.table.insert (UInt32.ofNat id) { name := "" } env with
    | (.error e, _, env) => (.error (.table n e), env)
    | (.ok (), table, env) => (.ok { p with table, maxId := max p.maxId id }, env)
  | .entry parent fid size dirId items name =>
    if dirId ≠ 0 then
      let p := { p with maxId := max p.maxId dirId }
      if parent = 0 then
        if p.rootId.isSome then (.error (.parse n (.invalid .parent "0")), env)
        else
          match p.table.modify? (UInt32.ofNat dirId) (fill name fid size dirId items) with
          | none => (.error (.unknownDirectory n dirId), env)
          | some table => (.ok { p with table, rootId := some dirId }, env)
      else
        match p.table.remove (UInt32.ofNat dirId) env with
        | (none, _, env) => (.error (.unknownDirectory n dirId), env)
        | (some dir, table, env) =>
          let dir := fill name fid size dirId items dir
          match table.modify? (UInt32.ofNat parent) (fun up => { up with dirs := up.dirs ++ [dir] }) with
          | none => (.error (.unknownDirectory n parent), env)
          | some table => (.ok { p with table }, env)
    else
      match p.table.modify? (UInt32.ofNat parent)
          (fun up => { up with files := up.files ++ [{ name, size, fid }] }) with
      | none => (.error (.unknownDirectory n parent), env)
      | some table => (.ok { p with table }, env)

/-- Reads line `n` from its raw bytes, line break included. -/
def Stored.readLine (p : Stored) (env : Env) (n : Nat) (raw : List UInt8) :
    Except SnapshotError Stored × Env :=
  match lineRecordAt n raw with
  | .error e => (.error e, env)
  | .ok none => (.ok p, env)
  | .ok (some record) => p.apply env n record

/-- Reads the lines from number `n` on. -/
def Stored.readLines (p : Stored) (env : Env) (n : Nat) :
    List (List UInt8) → Except SnapshotError Stored × Env
  | [] => (.ok p, env)
  | raw :: rest =>
    match p.readLine env n raw with
    | (.error e, env) => (.error e, env)
    | (.ok p, env) => p.readLines env (n + 1) rest

/-- Reads a whole dump into a fresh store whose multipliers come from `rng`. -/
def readStored (rng : Rng) (bytes : List UInt8) : Except SnapshotError Snapshot × Env :=
  match CuckooTable.new { rng } with
  | (table, env) =>
    match ({ table } : Stored).readLines env 1 (splitLines bytes) with
    | (.error e, env) => (.error e, env)
    | (.ok p, env) =>
      match p.rootId with
      | none => (.error .missingRoot, env)
      | some rootId =>
        if p.table.len > 1 then (.error (.unlinked (p.table.len - 1)), env)
        else
          match p.table.remove (UInt32.ofNat rootId) env with
          | (none, _, env) => (.error .missingRoot, env)
          | (some root, _, env) => (.ok ⟨root, p.maxId, Md5.digest bytes⟩, env)

end TreeDump.Snapshot
