/-!
Walkers: what a scan needs from the tree it reads.

A walker stands in one directory at a time. It can list that directory, move into
a child directory by name, and move back to the parent. Moving into a child may
be refused, which the scan survives; failing to move back is fatal, because the
scan no longer knows where it stands.

A listing is read entry by entry and may go on without end, so the reader says
how many entries it reads at most; a walker gives at most that many.
-/

namespace TreeDump

/-- One child of a listing: a directory by name, or a file with its size. -/
inductive Item where
  | dir (name : String)
  | file (name : String) (size : Nat)
deriving DecidableEq, Repr

/-- A walker over states `σ`. `list` starts a listing of the current directory and
reads at most the given number of its children; `enter` moves into a child
directory, or refuses; `leave` moves back to the parent, or says why it cannot. -/
structure Walker (σ : Type) where
  list : σ → Nat → σ × List Item
  enter : σ → String → Option σ
  leave : σ → Except String σ

/-- Whether a walker's current directory has any child at all: a listing of which
one entry is read. -/
def Walker.probe {σ : Type} (walker : Walker σ) (state : σ) : Bool × σ :=
  let (state, items) := walker.list state 1
  (!items.isEmpty, state)

end TreeDump
