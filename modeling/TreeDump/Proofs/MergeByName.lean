import Mathlib
import TreeDump.Proofs.Carrying

/-!
Contract: pairing two listings by name is a faithful merge.

Owns: the name a pairing stands under (`Pairing.name`); that a merge of listings whose
names all pass a test gives pairings whose names pass it (`pairByName_names`); that the
merge of two listings sorted by distinct names runs in increasing name order
(`pairByName_sorted`) and pairs every entry of the live side with the previous entry of
its name, when there is one (`both_mem_pairByName_of_sorted`).

Main statement (`pairByName_faithful_merge`): for every pair of listings, the merge lists
each live entry once and each previous entry once, each side in its own order; it pairs
two entries only when they have one name; and when both listings are sorted by distinct
names, its pairs of both sides are exactly the entries of the names the two share, and
the whole merge is in increasing name order. The entries may be anything with a name, so
for indices into a listing, each index comes out once and in order.

Does not own: what a diff does with the pairings (see `Carrying` and `PatchLines`).
-/

namespace TreeDump

variable {α β : Type}

/-- The name a pairing stands under: its live entry's, when it has one. -/
def Pairing.name (liveName : α → String) (oldName : β → String) : Pairing α β → String
  | .both a _ => liveName a
  | .live a => liveName a
  | .old b => oldName b

section Merge

variable (liveName : α → String) (oldName : β → String)

/-- A test that every name of both listings passes holds of every name in their merge. -/
theorem pairByName_names (test : String → Prop) (live : List α) (old : List β)
    (liveNames : ∀ a ∈ live, test (liveName a)) (oldNames : ∀ b ∈ old, test (oldName b)) :
    ∀ q ∈ pairByName liveName oldName live old, test (q.name liveName oldName) := by
  intro q member
  rcases q with ⟨a, b⟩ | a | b
  · exact liveNames a ((Scan.Pairing.mem_of_mem_pairByName member).1 a rfl)
  · exact liveNames a ((Scan.Pairing.mem_of_mem_pairByName member).1 a rfl)
  · exact oldNames b ((Scan.Pairing.mem_of_mem_pairByName member).2 b rfl)

/-- Merging two listings sorted by distinct names gives pairings in increasing name
order. -/
theorem pairByName_sorted {live : List α} {old : List β}
    (liveSorted : live.Pairwise fun a a' => liveName a < liveName a')
    (oldSorted : old.Pairwise fun b b' => oldName b < oldName b') :
    ((pairByName liveName oldName live old).map (Pairing.name liveName oldName)).Pairwise
      (· < ·) := by
  fun_induction pairByName liveName oldName live old with
  | case1 => exact List.Pairwise.nil
  | case2 a as inductionHypothesis =>
      rw [List.map_cons, List.pairwise_cons, List.forall_mem_map]
      refine ⟨pairByName_names liveName oldName (liveName a < ·) as []
        (fun _ later => List.rel_of_pairwise_cons liveSorted later)
        (by simp), inductionHypothesis liveSorted.of_cons oldSorted⟩
  | case3 b bs inductionHypothesis =>
      rw [List.map_cons, List.pairwise_cons, List.forall_mem_map]
      refine ⟨pairByName_names liveName oldName (oldName b < ·) [] bs (by simp)
        (fun _ later => List.rel_of_pairwise_cons oldSorted later),
        inductionHypothesis liveSorted oldSorted.of_cons⟩
  | case4 a as b bs before inductionHypothesis =>
      -- `a` comes before `b`, so before everything of the previous listing.
      rw [List.map_cons, List.pairwise_cons, List.forall_mem_map]
      refine ⟨pairByName_names liveName oldName (liveName a < ·) as (b :: bs)
        (fun _ later => List.rel_of_pairwise_cons liveSorted later) ?_,
        inductionHypothesis liveSorted.of_cons oldSorted⟩
      intro b' listed
      rcases List.mem_cons.mp listed with rfl | later
      · exact before
      · exact before.trans (List.rel_of_pairwise_cons oldSorted later)
  | case5 a as b bs notBefore same inductionHypothesis =>
      rw [List.map_cons, List.pairwise_cons, List.forall_mem_map]
      refine ⟨pairByName_names liveName oldName (liveName a < ·) as bs
        (fun _ later => List.rel_of_pairwise_cons liveSorted later) ?_,
        inductionHypothesis liveSorted.of_cons oldSorted.of_cons⟩
      intro b' later
      rw [same]
      exact List.rel_of_pairwise_cons oldSorted later
  | case6 a as b bs notBefore notSame inductionHypothesis =>
      -- `b` comes before `a`, so before everything of the live listing.
      have earlier : oldName b < liveName a :=
        lt_of_le_of_ne (le_of_not_gt notBefore) (Ne.symm notSame)
      rw [List.map_cons, List.pairwise_cons, List.forall_mem_map]
      refine ⟨pairByName_names liveName oldName (oldName b < ·) (a :: as) bs ?_
        (fun _ later => List.rel_of_pairwise_cons oldSorted later),
        inductionHypothesis liveSorted oldSorted.of_cons⟩
      intro a' listed
      rcases List.mem_cons.mp listed with rfl | later
      · exact earlier
      · exact earlier.trans (List.rel_of_pairwise_cons liveSorted later)

/-- Merging two listings sorted by distinct names pairs a live entry with every previous
entry of its name. -/
theorem both_mem_pairByName_of_sorted {live : List α} {old : List β}
    (liveSorted : live.Pairwise fun a a' => liveName a < liveName a')
    (oldSorted : old.Pairwise fun b b' => oldName b < oldName b') {a : α} {b : β}
    (liveListed : a ∈ live) (oldListed : b ∈ old) (same : liveName a = oldName b) :
    Pairing.both a b ∈ pairByName liveName oldName live old := by
  -- `a` comes out once, alone or with a previous entry.
  rw [← filterMap_live?_pairByName liveName oldName live old, List.mem_filterMap] at liveListed
  obtain ⟨q, member, side⟩ := liveListed
  rcases q with ⟨a', b'⟩ | a' | b'
  · cases side
    -- Its partner has its name, and the previous listing has each name once.
    have partner : b' ∈ old := (Scan.Pairing.mem_of_mem_pairByName member).2 b' rfl
    have distinct : (old.map oldName).Nodup :=
      List.pairwise_map.mpr (oldSorted.imp ne_of_lt)
    have : b' = b := List.inj_on_of_nodup_map distinct partner oldListed
      ((name_eq_of_both_mem_pairByName member).symm.trans same)
    exact this ▸ member
  · cases side
    exact absurd same.symm (name_ne_of_live_mem_pairByName liveSorted oldSorted member b oldListed)
  · cases side

/-- Pairing two listings by name is a faithful merge: each side comes out whole and in
its own order, a pairing of both sides pairs entries of one name, and when both listings
are sorted by distinct names, the pairings of both sides are exactly the entries of the
names the two share and the merge runs in increasing name order. -/
theorem pairByName_faithful_merge (live : List α) (old : List β) :
    (pairByName liveName oldName live old).filterMap Pairing.live? = live ∧
    (pairByName liveName oldName live old).filterMap Pairing.old? = old ∧
    (∀ a b, Pairing.both a b ∈ pairByName liveName oldName live old →
      liveName a = oldName b) ∧
    (live.Pairwise (fun a a' => liveName a < liveName a') →
      old.Pairwise (fun b b' => oldName b < oldName b') →
      (∀ a b, Pairing.both a b ∈ pairByName liveName oldName live old ↔
        a ∈ live ∧ b ∈ old ∧ liveName a = oldName b) ∧
      ((pairByName liveName oldName live old).map (Pairing.name liveName oldName)).Pairwise
        (· < ·)) := by
  refine ⟨filterMap_live?_pairByName liveName oldName live old,
    filterMap_old?_pairByName liveName oldName live old,
    fun _ _ member => name_eq_of_both_mem_pairByName member, ?_⟩
  intro liveSorted oldSorted
  refine ⟨fun a b => ⟨fun member => ?_, fun listed => ?_⟩,
    pairByName_sorted liveName oldName liveSorted oldSorted⟩
  · exact ⟨(Scan.Pairing.mem_of_mem_pairByName member).1 a rfl,
      (Scan.Pairing.mem_of_mem_pairByName member).2 b rfl, name_eq_of_both_mem_pairByName member⟩
  · exact both_mem_pairByName_of_sorted liveName oldName liveSorted oldSorted listed.1 listed.2.1
      listed.2.2

end Merge

/-- The listings of the merge example: live `b c e` against previous `a c d`, both sorted
by distinct names, so the merge pairs the two `c` and runs in name order. -/
theorem sorted_listings_merge :
    ([{ name := "b" }, { name := "c" }, { name := "e" }] : List FileEntry).Pairwise
        (fun a a' => a.name < a'.name) ∧
      ([{ name := "a" }, { name := "c" }, { name := "d" }] : List FileEntry).Pairwise
        (fun b b' => b.name < b'.name) ∧
      (∀ a b, Pairing.both a b ∈ pairByName FileEntry.name FileEntry.name
          [{ name := "b" }, { name := "c" }, { name := "e" }]
          [{ name := "a" }, { name := "c" }, { name := "d" }] ↔
        a ∈ ([{ name := "b" }, { name := "c" }, { name := "e" }] : List FileEntry) ∧
          b ∈ ([{ name := "a" }, { name := "c" }, { name := "d" }] : List FileEntry) ∧
          a.name = b.name) ∧
      ((pairByName FileEntry.name FileEntry.name
          [{ name := "b" }, { name := "c" }, { name := "e" }]
          [{ name := "a" }, { name := "c" }, { name := "d" }]).map
        (Pairing.name FileEntry.name FileEntry.name)).Pairwise (· < ·) := by
  have liveSorted : ([{ name := "b" }, { name := "c" }, { name := "e" }] : List FileEntry).Pairwise
      (fun a a' => a.name < a'.name) := by decide
  have oldSorted : ([{ name := "a" }, { name := "c" }, { name := "d" }] : List FileEntry).Pairwise
      (fun b b' => b.name < b'.name) := by decide
  exact ⟨liveSorted, oldSorted,
    (pairByName_faithful_merge FileEntry.name FileEntry.name _ _).2.2.2 liveSorted oldSorted⟩

end TreeDump
