import TreeDump.Command.Arg

/-!
What a command line asks for, and how argument values are read.

Paths must not be empty. Ignore patterns are taken as they are. The limits are
decimal numbers: `--max-dirs` and `--max-items` are read as unsigned 64-bit
words, `--recursion-threshold` as a signed 64-bit word that must then lie in
`0..=4294967295`. A number may start with `+`; reading stops at the first
character that is no digit, or at the first digit that leaves the word.
-/

namespace TreeDump.Command

/-- Why a text is not a number of a word. -/
inductive NumberError where
  | empty
  | invalidDigit
  | tooLarge
  | tooSmall
deriving DecidableEq, Repr

/-- The text of a number error. -/
def NumberError.message : NumberError → String
  | .empty => "cannot parse integer from empty string"
  | .invalidDigit => "invalid digit found in string"
  | .tooLarge => "number too large to fit in target type"
  | .tooSmall => "number too small to fit in target type"

/-- Reads decimal digits onto `acc`, failing at the first non-digit, or with
`beyond` at the first digit that takes the value above `limit`. -/
def readDigits (limit : Nat) (beyond : NumberError) : Nat → List Char → Except NumberError Nat
  | acc, [] => .ok acc
  | acc, c :: cs =>
    if !c.isDigit then .error .invalidDigit
    else
      let value := 10 * acc + (c.toNat - '0'.toNat)
      if limit < value then .error beyond else readDigits limit beyond value cs

/-- Reads an unsigned word below `2 ^ bits`. -/
def readUnsignedWord (bits : Nat) (text : String) : Except NumberError Nat :=
  match text.toList with
  | [] => .error .empty
  | ['+'] | ['-'] => .error .invalidDigit
  | '+' :: digits => readDigits (Nat.pow 2 bits - 1) .tooLarge 0 digits
  | digits => readDigits (Nat.pow 2 bits - 1) .tooLarge 0 digits

/-- Reads a signed two's complement word of `bits` bits. -/
def readSignedWord (bits : Nat) (text : String) : Except NumberError Int :=
  match text.toList with
  | [] => .error .empty
  | ['+'] | ['-'] => .error .invalidDigit
  | '+' :: digits => Int.ofNat <$> readDigits (Nat.pow 2 (bits - 1) - 1) .tooLarge 0 digits
  | '-' :: digits => (fun n => -Int.ofNat n) <$> readDigits (Nat.pow 2 (bits - 1)) .tooSmall 0 digits
  | digits => Int.ofNat <$> readDigits (Nat.pow 2 (bits - 1) - 1) .tooLarge 0 digits

/-- Reads a value of the range `0..=hi` through a signed 64-bit word. -/
def readInRange (hi : Nat) (text : String) : Except String Nat :=
  match readSignedWord 64 text with
  | .error e => .error e.message
  | .ok value =>
    if 0 ≤ value ∧ value ≤ hi then .ok value.toNat
    else .error (toString value ++ " is not in 0..=" ++ toString hi)

/-- The request of a command line. -/
structure Request where
  path : String := "."
  full : Bool := false
  json : Bool := false
  diff : Option String := none
  probe : Bool := false
  replay : Option String := none
  maxDirs : Option Nat := none
  maxItems : Option Nat := none
  recursionThreshold : Option Nat := none
  ignore : List String := []
  followSymlinks : Bool := false
  stats : Bool := false
  verbose : Bool := false
deriving DecidableEq, Repr

/-- Why an argument refuses a value. -/
inductive ValueError where
  /-- The value is empty. -/
  | empty
  /-- The value is not one the argument can take, for the given reason. -/
  | invalid (reason : String)
deriving DecidableEq, Repr

namespace Request

/-- Turns on a switch. -/
def turnOn (r : Request) : Arg → Request
  | .full => { r with full := true }
  | .json => { r with json := true }
  | .probe => { r with probe := true }
  | .followSymlinks => { r with followSymlinks := true }
  | .stats => { r with stats := true }
  | .verbose => { r with verbose := true }
  | _ => r

/-- A path value, which must not be empty. -/
def pathValue (value : String) : Except ValueError String :=
  if value.isEmpty then .error .empty else .ok value

/-- A number value. -/
def numberValue (read : String → Except String Nat) (value : String) : Except ValueError Nat :=
  (read value).mapError .invalid

/-- Takes one value of an argument. -/
def take (r : Request) (value : String) : Arg → Except ValueError Request
  | .path => return { r with path := ← pathValue value }
  | .diff => return { r with diff := some (← pathValue value) }
  | .replay => return { r with replay := some (← pathValue value) }
  | .maxDirs =>
    return { r with maxDirs := some (← numberValue (fun t => (readUnsignedWord 64 t).mapError (·.message)) value) }
  | .maxItems =>
    return { r with maxItems := some (← numberValue (fun t => (readUnsignedWord 64 t).mapError (·.message)) value) }
  | .recursionThreshold =>
    return { r with recursionThreshold := some (← numberValue (readInRange (Nat.pow 2 32 - 1)) value) }
  | .ignore => return { r with ignore := r.ignore ++ [value] }
  | _ => return r

end Request

end TreeDump.Command
