import TreeDump.IdTable

/-!
Id tables as they are stored: two cuckoo tables.

An id table keeps its pairs in two tables of `2 ^ log` slots each. Table `t` sends a
key to the top `log` bits of the key times the table's odd multiplier, modulo
`2 ^ 32`; every key sits in one of its two slots, so a look-up probes two slots at
most. A new pair is placed by eviction: it takes its slot in table 0, the pair it
evicts takes its slot in table 1, and so on, for at most `3 * log` rounds.

The tables are rebuilt when an insert would fill them (at twice the size), when a
removal leaves fewer than a quarter of the slots in use (at half the size, never
below `2 ^ minLog`), and when an eviction chain runs too long (at the same size).
A rebuild takes every pair out and places them again into fresh tables with fresh
multipliers, drawn from a random source; after `rebuildAttempts` failed attempts at
one size it doubles the size, and it gives up once the size would pass
`2 ^ maxLog`. Each rebuild that succeeds is noted in the log, with its size and the
attempts that failed before it, and so is a shrink that fails.

`IdTable` is what such a table holds, seen from outside; `CuckooTable` is the store.
-/

namespace TreeDump

/-- The random words multipliers are drawn from: every word the source gives, in
order, and how many of them are taken. -/
structure Rng where
  words : Nat → UInt32
  taken : Nat := 0

/-- The next word of the source, and the source after it. -/
def Rng.next (r : Rng) : UInt32 × Rng :=
  (r.words r.taken, { r with taken := r.taken + 1 })

/-- A slot of a cuckoo table: empty, or an id with its value. -/
abbrev CuckooTable.Slot (α : Type) := Option (UInt32 × α)

/-- An id table as stored: two tables of slots, the odd multiplier of each, the size
of both as `log` (each has `2 ^ log` slots), and the number of ids held. -/
structure CuckooTable (α : Type) where
  tables : Fin 2 → List (CuckooTable.Slot α)
  mul : Fin 2 → UInt32
  log : Nat
  len : Nat

namespace CuckooTable

variable {α : Type}

/-- What a table writes to the log: a rebuild that succeeded, with the size it ended
at, the number of ids and the attempts that failed before it; or a shrink that
failed, with its error. -/
inductive Note where
  | rebuilt (log len attempts : Nat)
  | shrinkFailed (error : TableError)
deriving DecidableEq, Repr

/-- What a table works with besides its slots: the random source and the log. -/
structure Env where
  rng : Rng
  notes : List Note := []

/-- Failed attempts at one size after which a rebuild doubles the size. -/
def rebuildAttempts : Nat := 8

/-- Slots per table. -/
def capacity (c : CuckooTable α) : Nat := Nat.pow 2 c.log

/-- Fresh tables of `2 ^ log` empty slots each, with two multipliers drawn from the
source and made odd, the one of table 0 first. -/
def withLog (log : Nat) (env : Env) : CuckooTable α × Env :=
  match env.rng.next with
  | (m0, rng) =>
    match rng.next with
    | (m1, rng) =>
      ({ tables := fun _ => List.replicate (Nat.pow 2 log) none
         mul := fun t => if t = 0 then m0 ||| 1 else m1 ||| 1
         log, len := 0 }, { env with rng })

/-- A fresh table of the smallest size. -/
def new (env : Env) : CuckooTable α × Env := withLog IdTable.minLog env

/-- The slot of `key` in table `t`: the top `log` bits of the key times the table's
multiplier, modulo `2 ^ 32`. -/
def index (c : CuckooTable α) (t : Fin 2) (key : UInt32) : Nat :=
  ((c.mul t * key) >>> (32 - c.log).toUInt32).toNat

/-- What slot `i` of table `t` holds. -/
def slot (c : CuckooTable α) (t : Fin 2) (i : Nat) : Slot α := (c.tables t).getD i none

/-- The tables with slot `i` of table `t` holding `s`. -/
def setSlot (c : CuckooTable α) (t : Fin 2) (i : Nat) (s : Slot α) : CuckooTable α :=
  { c with tables := fun u => if u = t then (c.tables u).set i s else c.tables u }

/-- Whether slot `i` of table `t` holds `key`. -/
def holdsKey (c : CuckooTable α) (t : Fin 2) (i : Nat) (key : UInt32) : Bool :=
  match c.slot t i with
  | some (k, _) => k == key
  | none => false

/-- Where `key` sits: its slot in table 0 when that slot holds it, else its slot in
table 1 when that one does. -/
def find (c : CuckooTable α) (key : UInt32) : Option (Fin 2 × Nat) :=
  if c.holdsKey 0 (c.index 0 key) key then some (0, c.index 0 key)
  else if c.holdsKey 1 (c.index 1 key) key then some (1, c.index 1 key)
  else none

/-- Whether `key` has a value; id `0` never has. -/
def contains (c : CuckooTable α) (key : UInt32) : Bool := key != 0 && (c.find key).isSome

/-- The value of `key`; id `0` never has one. -/
def get? (c : CuckooTable α) (key : UInt32) : Option α :=
  if key = 0 then none
  else
    match c.find key with
    | some (t, i) => (c.slot t i).map (·.2)
    | none => none

/-- Changes the value of `key` in place, if it has one. -/
def modify? (c : CuckooTable α) (key : UInt32) (f : α → α) : Option (CuckooTable α) :=
  if key = 0 then none
  else
    match c.find key with
    | some (t, i) => (c.slot t i).map fun e => c.setSlot t i (some (e.1, f e.2))
    | none => none

/-- The pairs held, the slots of table 0 in order and then those of table 1. -/
def entries (c : CuckooTable α) : List (UInt32 × α) :=
  (c.tables 0).filterMap id ++ (c.tables 1).filterMap id

/-- Takes every pair out, in the order of `entries`; the tables keep their slots, all
empty, and the count drops to zero. -/
def drain (c : CuckooTable α) : List (UInt32 × α) × CuckooTable α :=
  (c.entries, { c with tables := fun t => List.replicate (c.tables t).length none, len := 0 })

/-- Puts `e` into its slot of table `t`, giving back what the slot held. -/
def swap (c : CuckooTable α) (t : Fin 2) (e : UInt32 × α) : Slot α × CuckooTable α :=
  (c.slot t (c.index t e.1), c.setSlot t (c.index t e.1) (some e))

/-- At most `n` eviction rounds: the entry takes its slot in table 0, the one it
evicts takes its slot in table 1, and the one evicted there goes on to the next
round; it stops as soon as a slot was empty. Gives back the entry still without a
slot after `n` rounds. -/
def evict : Nat → CuckooTable α → UInt32 × α → Slot α × CuckooTable α
  | 0, c, e => (some e, c)
  | n + 1, c, e =>
    match c.swap 0 e with
    | (none, c) => (none, c)
    | (some e, c) =>
      match c.swap 1 e with
      | (none, c) => (none, c)
      | (some e, c) => evict n c e

/-- The eviction rounds a placement may take: three per bit of size, at least one. -/
def rounds (c : CuckooTable α) : Nat := max (3 * c.log) 1

/-- Cuckoo placement of `e`; gives back the entry left without a slot when the
eviction chain runs too long. -/
def place (c : CuckooTable α) (e : UInt32 × α) : Slot α × CuckooTable α := evict c.rounds c e

/-- Places pending entries one by one, the head first, until one of them leaves an
entry without a slot: gives back that entry with the entries not yet tried, and the
tables. -/
def fill : CuckooTable α → List (UInt32 × α) →
    Option ((UInt32 × α) × List (UInt32 × α)) × CuckooTable α
  | c, [] => (none, c)
  | c, e :: rest =>
    match c.place e with
    | (none, c) => fill c rest
    | (some h, c) => (some (h, rest), c)

/-- After a failed attempt the entry without a slot and every placed entry go back in
front of the entries not yet tried, the last placed first, and the tables are
emptied. -/
def requeue (c : CuckooTable α) (h : UInt32 × α) (rest : List (UInt32 × α)) :
    List (UInt32 × α) × CuckooTable α :=
  match c.drain with
  | (placed, c) => (placed.reverse ++ h :: rest, c)

/-- The attempts of a rebuild at size `log`, after `attempts` failures: fresh tables
are filled with the pending entries; a failure requeues them, and every
`rebuildAttempts` failures double the size. Success sets the count back to `len`
and is noted; a size beyond `2 ^ maxLog` gives up and leaves the tables `c`. -/
def rebuildFrom (len : Nat) (c : CuckooTable α) (log attempts : Nat)
    (pending : List (UInt32 × α)) (env : Env) : Except TableError Unit × CuckooTable α × Env :=
  if IdTable.maxLog < log then (.error (.full IdTable.maxLog), c, env)
  else
    match withLog log env with
    | (fresh, env) =>
      match fresh.fill pending with
      | (none, c) =>
        (.ok (), { c with len }, { env with notes := env.notes ++ [.rebuilt log len attempts] })
      | (some (h, rest), c) =>
        match c.requeue h rest with
        | (pending, c) =>
          rebuildFrom len c (if (attempts + 1) % rebuildAttempts = 0 then log + 1 else log)
            (attempts + 1) pending env
termination_by rebuildAttempts * (IdTable.maxLog + 1 - log) - attempts % rebuildAttempts
decreasing_by
  all_goals
    by_cases grows : (attempts + 1) % rebuildAttempts = 0
    · rw [dif_pos grows]
      simp only [rebuildAttempts] at *
      omega
    · rw [dif_neg grows]
      simp only [rebuildAttempts] at *
      omega

/-- Places every pair, and `extra`, again into fresh tables of `2 ^ log` slots: the
pending entries are the drained pairs with `extra` on top. -/
def rebuild (c : CuckooTable α) (log : Nat) (extra : Option (UInt32 × α)) (env : Env) :
    Except TableError Unit × CuckooTable α × Env :=
  match c.drain with
  | (placed, drained) => rebuildFrom c.len drained log 0 (extra.toList ++ placed.reverse) env

/-- Makes room for one more id: rebuilds at twice the size when the tables would
fill up. -/
def grow (c : CuckooTable α) (env : Env) : Except TableError Unit × CuckooTable α × Env :=
  if c.len + 1 ≥ c.capacity then c.rebuild (c.log + 1) none env else (.ok (), c, env)

/-- Places a new entry, rebuilding at the same size when it leaves one without a
slot. -/
def settle (c : CuckooTable α) (e : UInt32 × α) (env : Env) :
    Except TableError Unit × CuckooTable α × Env :=
  match c.place e with
  | (none, c) => (.ok (), c, env)
  | (some h, c) => c.rebuild c.log (some h) env

/-- Inserts a value under a new key; id `0` and ids already present are refused. -/
def insert (c : CuckooTable α) (key : UInt32) (value : α) (env : Env) :
    Except TableError Unit × CuckooTable α × Env :=
  if key = 0 then (.error .reserved, c, env)
  else if (c.find key).isSome then (.error (.duplicate key.toNat), c, env)
  else
    match c.grow env with
    | (.error e, c, env) => (.error e, c, env)
    | (.ok (), c, env) =>
      match c.settle (key, value) env with
      | (.error e, c, env) => (.error e, c, env)
      | (.ok (), c, env) => (.ok (), { c with len := c.len + 1 }, env)

/-- Halves the tables once fewer than a quarter of their slots are in use, never below
`2 ^ minLog`; a shrink that fails is noted in the log, and the table goes on as the
rebuild left it. -/
def shrink (c : CuckooTable α) (env : Env) : CuckooTable α × Env :=
  if IdTable.minLog < c.log ∧ c.len < Nat.pow 2 (c.log - 2) then
    match c.rebuild (c.log - 1) none env with
    | (.ok (), c, env) => (c, env)
    | (.error e, c, env) => (c, { env with notes := env.notes ++ [.shrinkFailed e] })
  else (c, env)

/-- Takes the value of `key` out of the table, then shrinks the table if it has
become sparse. -/
def remove (c : CuckooTable α) (key : UInt32) (env : Env) : Option α × CuckooTable α × Env :=
  if key = 0 then (none, c, env)
  else
    match c.find key with
    | none => (none, c, env)
    | some (t, i) =>
      match c.slot t i with
      | none => (none, c, env)
      | some (_, v) =>
        match ({ c.setSlot t i none with len := c.len - 1 } : CuckooTable α).shrink env with
        | (c, env) => (some v, c, env)

end CuckooTable

end TreeDump
