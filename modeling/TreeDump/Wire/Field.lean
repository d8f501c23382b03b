/-!
Unsigned decimal fields of the wire format.

A field holds an unsigned decimal number: one or more ASCII digits, optionally
after a single `+`. Leading zeros are allowed. A sign `-`, an empty field, any
other character and a value outside the field's word are all refused.
-/

namespace TreeDump.Wire

/-- The value of a non-empty run of ASCII digits, or `none` when the run is empty
or holds another character. -/
def digitsValue (cs : List Char) : Option Nat :=
  if cs ≠ [] ∧ cs.all Char.isDigit = true then
    some (cs.foldl (fun n d => 10 * n + (d.toNat - '0'.toNat)) 0)
  else none

/-- Reads an unsigned decimal field whose value must lie below `bound`. -/
def readUnsigned (bound : Nat) (text : String) : Option Nat :=
  let body := match text.toList with
    | '+' :: rest => rest
    | cs => cs
  (digitsValue body).bind fun n => if n < bound then some n else none

end TreeDump.Wire
