/-!
Machine words of the inventory.

Ids, offsets and item counts are 32-bit unsigned words; sizes and statistics are
64-bit unsigned words. Values are kept as `Nat`, and every addition that the
program performs on a word is checked against the word's range: an addition that
leaves it stops the whole operation with `Overflow`.

Owns:
- the two word ranges;
- checked addition and checked sums;
- the overflow fault and its text.

Does not own: wrapping arithmetic, which the inventory never performs.
-/

namespace TreeDump

/-- Number of values of a 32-bit word: ids, offsets and item counts lie below it. -/
def idRange : Nat := Nat.pow 2 32

/-- Number of values of a 64-bit word: sizes and statistics lie below it. -/
def sizeRange : Nat := Nat.pow 2 64

/-- An addition left the range of its word, which stops the operation. -/
inductive Overflow where
  | add
deriving DecidableEq, Repr

namespace Overflow

/-- The text reported when an addition leaves its word. -/
def message : Overflow → String
  | .add => "attempt to add with overflow"

end Overflow

/-- The sum `a + b` when it stays below `range`. -/
def addWithin (range a b : Nat) : Except Overflow Nat :=
  if a + b < range then .ok (a + b) else .error .add

/-- The sum of `xs` when it stays below `range`.

All terms are natural numbers, so a partial sum leaves the range exactly when the
total does: checking the total is the same as checking every step. -/
def sumWithin (range : Nat) (xs : List Nat) : Except Overflow Nat :=
  addWithin range 0 (xs.foldl (· + ·) 0)

theorem addWithin_eq_ok {range a b : Nat} (fits : a + b < range) :
    addWithin range a b = .ok (a + b) := by
  simp [addWithin, fits]

theorem addWithin_eq_error {range a b : Nat} (leaves : range ≤ a + b) :
    addWithin range a b = .error .add := by
  simp [addWithin, Nat.not_lt.mpr leaves]

end TreeDump
