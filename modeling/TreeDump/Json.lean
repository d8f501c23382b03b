/-!
JSON documents as the inventory writes them.

A document is a string, an unsigned number, an array or an object whose fields
keep their order. The pretty form puts every array element and object field on
a line of its own, indented two spaces per level, with `": "` after a key; an
empty array is `[]` and an empty object `{}`. Strings escape the quote, the
backslash and every control character below `0x20`: the five with a short form
(`\b`, `\t`, `\n`, `\f`, `\r`) use it, the rest `\u00xx` with lowercase hex.
-/

namespace TreeDump

/-- A JSON document whose objects keep their field order. -/
inductive JsonValue where
  | str (s : String)
  | num (n : Nat)
  | bool (b : Bool)
  | null
  | arr (elements : List JsonValue)
  | obj (fields : List (String × JsonValue))
deriving Repr

namespace JsonValue

/-- The escaped form of one character inside a string. -/
def escapeChar (c : Char) : String :=
  if c = '"' then "\\\""
  else if c = '\\' then "\\\\"
  else if c = '\n' then "\\n"
  else if c = '\r' then "\\r"
  else if c = '\t' then "\\t"
  else if c.toNat = 8 then "\\b"
  else if c.toNat = 12 then "\\f"
  else if c.toNat < 0x20 then
    let hex := "0123456789abcdef".toList
    String.ofList ['\\', 'u', '0', '0', hex.getD (c.toNat / 16) '0', hex.getD (c.toNat % 16) '0']
  else String.singleton c

/-- A string in quotes, escaped. -/
def quote (s : String) : String :=
  "\"" ++ String.join (s.toList.map escapeChar) ++ "\""

/-- The indentation of nesting level `depth`. -/
def pad (depth : Nat) : String := String.ofList (List.replicate (2 * depth) ' ')

mutual

/-- The pretty form of a document nested `depth` levels deep. -/
def pretty (depth : Nat) : JsonValue → String
  | .str s => quote s
  | .num n => toString n
  | .bool b => if b then "true" else "false"
  | .null => "null"
  | .arr elements =>
    if elements.isEmpty then "[]"
    else "[\n" ++ ",\n".intercalate (prettyElements (depth + 1) elements) ++ "\n" ++ pad depth ++ "]"
  | .obj fields =>
    if fields.isEmpty then "\x7b\x7d"
    else
      "\x7b\n" ++ ",\n".intercalate (prettyFields (depth + 1) fields) ++ "\n" ++ pad depth ++
        "\x7d"

/-- The indented lines of array elements at nesting level `depth`. -/
def prettyElements (depth : Nat) : List JsonValue → List String
  | [] => []
  | x :: xs => (pad depth ++ pretty depth x) :: prettyElements depth xs

/-- The indented lines of object fields at nesting level `depth`. -/
def prettyFields (depth : Nat) : List (String × JsonValue) → List String
  | [] => []
  | (key, value) :: fields => (pad depth ++ quote key ++ ": " ++ pretty depth value) :: prettyFields depth fields

end

end JsonValue

end TreeDump
