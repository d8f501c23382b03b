import TreeDump.IdTable
import TreeDump.Entry.Order
import TreeDump.Text.Blank
import TreeDump.Text.Utf8
import TreeDump.Wire.Line

/-!
Reading a dump back into a tree.

A snapshot is read line by line; every line break ends a line, and a last line
without one still counts. Marked lines (a patch's) are passed over. Every
directory must be declared (`0 id path`) before an entry names it; a directory
entry (`1 parent fid size id items name` with `id ≠ 0`) fills in the declared
directory and moves it under its parent, or makes it the root when `parent` is
`0`; a file entry (`id = 0`) adds a file to its parent. Filling a directory sorts
the children it already holds by name. At the end exactly the root must be
left: a directory that was declared but never placed is an error.

The snapshot also keeps the largest id it mentions, so that fresh ids can follow
it, and the fingerprint of its raw bytes.
-/

namespace TreeDump

open Wire

/-- Why a snapshot cannot be read. -/
inductive SnapshotError where
  | io (reason : String)
  | parse (line : Nat) (error : LineError)
  | table (line : Nat) (error : TableError)
  | unknownDirectory (line : Nat) (id : Nat)
  | unlinked (count : Nat)
  | missingRoot
deriving DecidableEq, Repr

/-- The text of a snapshot error. -/
def SnapshotError.message : SnapshotError → String
  | .io reason => "snapshot I/O error: " ++ reason
  | .parse line error => "line " ++ toString line ++ ": " ++ error.message
  | .table line error => "line " ++ toString line ++ ": " ++ error.message
  | .unknownDirectory line id =>
    "line " ++ toString line ++ ": directory " ++ toString id ++ " was never declared"
  | .unlinked count => toString count ++ " declared directories were never linked into the tree"
  | .missingRoot => "snapshot has no root entry"

/-- The text of the error that a snapshot error wraps, if it wraps one: the
system's error for a failed read, the line's error for a line that is no record
or names a bad id. -/
def SnapshotError.cause? : SnapshotError → Option String
  | .io reason => some reason
  | .parse _ error => some error.message
  | .table _ error => some error.message
  | _ => none

/-- A tree read back from a dump, the largest id the dump mentions, and the
fingerprint of the dump's bytes. -/
structure Snapshot where
  root : DirEntry
  maxId : Nat
  digest : Md5.Digest
deriving Repr

namespace Snapshot

/-- The lines of a byte sequence, each with its line break; a last line without one
is kept as it is. -/
def splitLines : List UInt8 → List (List UInt8)
  | [] => []
  | b :: bs =>
    if b = 10 then [b] :: splitLines bs
    else match splitLines bs with
      | [] => [[b]]
      | line :: lines => (b :: line) :: lines

/-- What reading has gathered so far: the directories not yet placed, by id, the
largest id seen and the root's id once its entry has been read. -/
structure Progress where
  table : IdTable DirEntry := IdTable.empty
  maxId : Nat := 0
  rootId : Option Nat := none

/-- Gives a declared directory its entry's fields, sorting the children it holds. -/
def fill (name : String) (fid size id items : Nat) (d : DirEntry) : DirEntry :=
  { d with name, fid, size, id, items,
           dirs := d.dirs.mergeSort DirEntry.nameLe,
           files := d.files.mergeSort FileEntry.nameLe }

/-- Applies the record of line `n`. -/
def Progress.apply (p : Progress) (n : Nat) : Record → Except SnapshotError Progress
  | .directory id _ =>
    match p.table.insert id { name := "" } with
    | .error e => .error (.table n e)
    | .ok table => .ok { p with table, maxId := max p.maxId id }
  | .entry parent fid size dirId items name =>
    if dirId ≠ 0 then
      let p := { p with maxId := max p.maxId dirId }
      if parent = 0 then
        if p.rootId.isSome then .error (.parse n (.invalid .parent "0"))
        else
          match p.table.modify? dirId (fill name fid size dirId items) with
          | none => .error (.unknownDirectory n dirId)
          | some table => .ok { p with table, rootId := some dirId }
      else
        match p.table.erase? dirId with
        | none => .error (.unknownDirectory n dirId)
        | some (dir, table) =>
          let dir := fill name fid size dirId items dir
          match table.modify? parent (fun up => { up with dirs := up.dirs ++ [dir] }) with
          | none => .error (.unknownDirectory n parent)
          | some table => .ok { p with table }
    else
      match p.table.modify? parent (fun up => { up with files := up.files ++ [{ name, size, fid }] }) with
      | none => .error (.unknownDirectory n parent)
      | some table => .ok { p with table }

/-- Reads line `n` from its raw bytes, line break included. -/
def Progress.readLine (p : Progress) (n : Nat) (raw : List UInt8) : Except SnapshotError Progress :=
  match Text.decodeStrict? raw with
  | none => .error (.parse n (.invalid .line (Text.trimEnd (Text.decodeLossy raw))))
  | some text =>
    let text := if text.toList.getLast? = some '\n' then String.ofList text.toList.dropLast else text
    if (markerOf text).isSome then .ok p
    else
      match Line.parse text with
      | .error e => .error (.parse n e)
      | .ok line => p.apply n line.record

/-- Reads the lines from number `n` on. -/
def Progress.readLines (p : Progress) (n : Nat) : List (List UInt8) → Except SnapshotError Progress
  | [] => .ok p
  | raw :: rest => do
    let p ← p.readLine n raw
    p.readLines (n + 1) rest

/-- Reads a whole dump. -/
def read (bytes : List UInt8) : Except SnapshotError Snapshot := do
  let p ← ({} : Progress).readLines 1 (splitLines bytes)
  match p.rootId with
  | none => .error .missingRoot
  | some rootId =>
    if p.table.size > 1 then .error (.unlinked (p.table.size - 1))
    else
      match p.table.erase? rootId with
      | none => .error .missingRoot
      | some (root, _) => .ok ⟨root, p.maxId, Md5.digest bytes⟩

/-- The previous snapshot of a diff, from the contents of its file if the file
exists: a missing or empty file means there is none. -/
def previous? : Option (List UInt8) → Except SnapshotError (Option Snapshot)
  | none => .ok none
  | some [] => .ok none
  | some bytes => (read bytes).map some

end Snapshot

end TreeDump
