import TreeDump.Word
import TreeDump.Wire.Field

/-!
Lines of the wire format.

A dump is a sequence of lines, each a record, optionally after a marker symbol
and a space. A directory record `0 id path` declares a directory; an entry record
`1 parent fid size dir_id items name` places an entry (a file when `dir_id` is
zero) under its parent directory. The path and the name are the rest of the line
and may hold spaces. A patch marks its lines `+` (added), `-` (removed) or
`*` (changed).
-/

namespace TreeDump.Wire

/-- What a patch line says about its record. -/
inductive Marker where
  | added
  | removed
  | changed
deriving DecidableEq, Repr

namespace Marker

/-- The symbol that starts a marked line. -/
def symbol : Marker → Char
  | .added => '+'
  | .removed => '-'
  | .changed => '*'

/-- The marker that a symbol stands for. -/
def ofSymbol? : Char → Option Marker
  | '+' => some .added
  | '-' => some .removed
  | '*' => some .changed
  | _ => none

end Marker

/-- A line is marked when its first character is a marker symbol and its second a
space. -/
def markerOf (text : String) : Option Marker :=
  match text.toList with
  | c :: ' ' :: _ => Marker.ofSymbol? c
  | _ => none

/-- The joining of a child's name to its parent's path: a parent without a name
(a nameless root) contributes its path with no separator. -/
def childPath (parentPath parentName child : String) : String :=
  if parentName.isEmpty then parentPath ++ child else parentPath ++ "/" ++ child

/-- The numbered fields of a record, and the line itself, as errors name them. -/
inductive Field where
  | id
  | parent
  | fid
  | size
  | dirId
  | items
  | name
  | line
deriving DecidableEq, Repr

/-- The word that names a field in an error. -/
def Field.label : Field → String
  | .id => "id"
  | .parent => "parent"
  | .fid => "fid"
  | .size => "size"
  | .dirId => "dir id"
  | .items => "items"
  | .name => "name"
  | .line => "line"

/-- Why a line is not a record. -/
inductive LineError where
  | empty
  | unknownKind (kind : String)
  | missing (field : Field)
  | invalid (field : Field) (value : String)
deriving DecidableEq, Repr

/-- The text of a line error. -/
def LineError.message : LineError → String
  | .empty => "empty line"
  | .unknownKind kind => "unknown line type '" ++ kind ++ "'"
  | .missing field => "missing " ++ field.label ++ " field"
  | .invalid field value => "invalid " ++ field.label ++ " '" ++ value ++ "'"

/-- The record of a line. -/
inductive Record where
  | directory (id : Nat) (path : String)
  | entry (parent fid size dirId items : Nat) (name : String)
deriving DecidableEq, Repr

/-- A record with its optional marker. -/
structure Line where
  marker : Option Marker := none
  record : Record
deriving DecidableEq, Repr

/-- Splits `cs` at its first `n - 1` spaces: at most `n` pieces, the last of them
the unsplit rest. -/
def splitFields : Nat → List Char → List (List Char)
  | 0, _ => []
  | 1, cs => [cs]
  | n + 2, cs =>
    match cs.dropWhile (· ≠ ' ') with
    | [] => [cs]
    | _ :: rest => cs.takeWhile (· ≠ ' ') :: splitFields (n + 1) rest

/-- Reads the numbered field `field` below `bound` from its piece, if there is one. -/
def readField (bound : Nat) (field : Field) : Option (List Char) → Except LineError Nat
  | none => .error (.missing field)
  | some cs =>
    match readUnsigned bound (String.ofList cs) with
    | some n => .ok n
    | none => .error (.invalid field (String.ofList cs))

/-- Reads the body of a directory record: the pieces after the kind. -/
def readDirectory (parts : List (List Char)) : Except LineError Record := do
  let id ← readField idRange .id parts[0]?
  pure (.directory id (String.ofList (parts[1]?.getD [])))

/-- Reads the body of an entry record: the pieces after the kind. -/
def readEntry (parts : List (List Char)) : Except LineError Record := do
  let parent ← readField idRange .parent parts[0]?
  let fid ← readField idRange .fid parts[1]?
  let size ← readField sizeRange .size parts[2]?
  let dirId ← readField idRange .dirId parts[3]?
  let items ← readField idRange .items parts[4]?
  match parts[5]? with
  | some name => pure (.entry parent fid size dirId items (String.ofList name))
  | none => .error (.missing .name)

/-- Reads a line: its marker, then a record whose kind is the text before the first
space. -/
def Line.parse (text : String) : Except LineError Line :=
  if text.isEmpty then .error .empty
  else
    let marker := markerOf text
    let body := if marker.isSome then text.toList.drop 2 else text.toList
    match body.takeWhile (· ≠ ' ') with
    | ['0'] => (readDirectory ((splitFields 3 body).drop 1)).map fun record => ⟨marker, record⟩
    | ['1'] => (readEntry ((splitFields 7 body).drop 1)).map fun record => ⟨marker, record⟩
    | kind => .error (.unknownKind (String.ofList kind))

/-- The text of a record. -/
def Record.render : Record → String
  | .directory id path => "0 " ++ toString id ++ " " ++ path
  | .entry parent fid size dirId items name =>
    "1 " ++ toString parent ++ " " ++ toString fid ++ " " ++ toString size ++ " " ++
      toString dirId ++ " " ++ toString items ++ " " ++ name

/-- The text of a line, without its line break. -/
def Line.render (line : Line) : String :=
  match line.marker with
  | some marker => String.ofList [marker.symbol, ' '] ++ line.record.render
  | none => line.record.render

end TreeDump.Wire
