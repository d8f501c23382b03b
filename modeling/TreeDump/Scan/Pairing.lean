/-!
Pairing a live listing with its previous one by name.

Both listings are walked in step, as a merge of two lists sorted by name: a name
on the live side only is `live`, on the previous side only `old`, and a name on
both sides pairs the two. Each side keeps its order in the result.
-/

namespace TreeDump

/-- One step of a pairing. -/
inductive Pairing (α β : Type) where
  | both (live : α) (old : β)
  | live (live : α)
  | old (old : β)
deriving Repr

/-- Pairs `live` with `old` by name, merging as two name-sorted lists. -/
def pairByName {α β : Type} (liveName : α → String) (oldName : β → String) :
    List α → List β → List (Pairing α β)
  | [], [] => []
  | a :: as, [] => .live a :: pairByName liveName oldName as []
  | [], b :: bs => .old b :: pairByName liveName oldName [] bs
  | a :: as, b :: bs =>
    if liveName a < oldName b then .live a :: pairByName liveName oldName as (b :: bs)
    else if liveName a = oldName b then .both a b :: pairByName liveName oldName as bs
    else .old b :: pairByName liveName oldName (a :: as) bs
termination_by as bs => as.length + bs.length

end TreeDump
