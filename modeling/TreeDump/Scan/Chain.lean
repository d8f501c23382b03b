import TreeDump.Fingerprint.Md5

/-!
The chain of directories a scan stands in.

The chain holds one level for every directory from the current one up to the
root, nearest first. A level records the directory's id and path, the
fingerprint and child count of its listing once read, and whether a patch has
already named the directory (see `announce`).

A chain repeats when its nearest levels match, listing for listing, the levels
above some ancestor: walking both upward in step, every pair has the same
fingerprint, and the child counts of the near side add up to the threshold
before either runs out.
-/

namespace TreeDump

/-- One directory of the chain. -/
structure Level where
  id : Nat
  path : String
  digest : Option Md5.Digest := none
  items : Nat := 0
  announced : Bool := false
deriving Repr

namespace Level

/-- Whether the chains `near` and `far`, both nearest first, match listing for
listing until the child counts of `near` reach `threshold` (counting from `seen`). -/
def repeats (threshold : Nat) : List Level → List Level → Nat → Bool
  | a :: near, b :: far, seen =>
    match a.digest, b.digest with
    | some x, some y =>
      if x = y then
        if threshold ≤ seen + a.items then true else repeats threshold near far (seen + a.items)
      else false
    | _, _ => false
  | _, _, _ => false

/-- Whether the current directory repeats an ancestor: the chain matches itself
shifted up by `k` levels, for some `k` from one to the chain's length. -/
def chainRepeats (threshold : Nat) (chain : List Level) : Bool :=
  (List.range (chain.length - 1)).any fun k => repeats threshold chain (chain.drop (k + 1)) 0

end Level

end TreeDump
