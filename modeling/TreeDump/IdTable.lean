import TreeDump.Word

/-!
Tables of directories by id.

An `IdTable` maps positive ids to values, each id at most once. Its capacity is a
power of two, `2 ^ log` slots, starting at four: an insert that would fill it
doubles it first, and a removal that leaves fewer than a quarter of the slots in
use halves it again, but never below four.

Only what the table holds and its capacity are observable; where in its slots a
value sits is not, so the table keeps its pairs in insertion order and `drain`
gives them sorted by id.
-/

namespace TreeDump

/-- Why a value was not inserted. -/
inductive TableError where
  | reserved
  | duplicate (key : Nat)
  | full (log : Nat)
deriving DecidableEq, Repr

/-- The text of a table error. -/
def TableError.message : TableError → String
  | .reserved => "id 0 is reserved"
  | .duplicate key => "id " ++ toString key ++ " is already present"
  | .full log => "table cannot grow beyond 2^" ++ toString log ++ " slots"

/-- Values by positive id, with the table's capacity as `2 ^ log` slots. -/
structure IdTable (α : Type) where
  entries : List (Nat × α) := []
  log : Nat := 2
deriving Repr

namespace IdTable

variable {α : Type}

/-- The smallest capacity, as a power of two. -/
def minLog : Nat := 2

/-- The largest capacity, as a power of two. -/
def maxLog : Nat := 30

/-- The empty table of the smallest capacity. -/
def empty : IdTable α := {}

/-- The number of ids in the table. -/
def size (t : IdTable α) : Nat := t.entries.length

/-- The number of slots. -/
def capacity (t : IdTable α) : Nat := Nat.pow 2 t.log

/-- The value of `key`; id `0` is never present. -/
def get? (t : IdTable α) (key : Nat) : Option α :=
  if key = 0 then none else (t.entries.find? (·.1 == key)).map (·.2)

/-- Whether `key` has a value. -/
def contains (t : IdTable α) (key : Nat) : Bool := (t.get? key).isSome

/-- Adds a value under a new positive id, doubling the capacity when the table
would otherwise fill up. -/
def insert (t : IdTable α) (key : Nat) (value : α) : Except TableError (IdTable α) :=
  if key = 0 then .error .reserved
  else if t.contains key then .error (.duplicate key)
  else
    let log := if t.size + 1 ≥ t.capacity then t.log + 1 else t.log
    if maxLog < log then .error (.full maxLog)
    else .ok { entries := t.entries ++ [(key, value)], log }

/-- Takes the value of `key` out of the table, halving the capacity when at most a
quarter of it stays in use. -/
def erase? (t : IdTable α) (key : Nat) : Option (α × IdTable α) :=
  (t.get? key).map fun value =>
    let entries := t.entries.filter (·.1 != key)
    let log := if minLog < t.log ∧ entries.length < Nat.pow 2 (t.log - 2) then t.log - 1 else t.log
    (value, { entries, log })

/-- Changes the value of `key` in place, if it has one. -/
def modify? (t : IdTable α) (key : Nat) (f : α → α) : Option (IdTable α) :=
  if t.contains key then
    some { t with entries := t.entries.map fun e => if e.1 == key then (e.1, f e.2) else e }
  else none

/-- Empties the table, keeping its capacity; the pairs come out sorted by id. -/
def drain (t : IdTable α) : List (Nat × α) × IdTable α :=
  (t.entries.mergeSort (fun a b => decide (a.1 ≤ b.1)), { t with entries := [] })

end IdTable

end TreeDump
