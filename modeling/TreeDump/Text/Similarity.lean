/-!
The Jaro similarity of two words.

Two characters match when they are equal, not more than
`max (length a) (length b) / 2 - 1` places apart, and neither is matched
already; each character of `a` takes the first such character of `b`. With `m`
matches, of which `t` pairs stand in a different order in the two words, the
similarity is `(m / |a| + m / |b| + (m - t) / m) / 3`, and `0` without matches.
Two empty words are fully similar.

The value is computed in binary floating point, operation by operation, so that
a comparison with a threshold such as `0.7` comes out as it does for that
computation: several simple word pairs land exactly on `7 / 10`, where the
rounding of the sum decides.

Main definition: `jaro`.
-/

namespace TreeDump.Text

/-- The first unmatched position of `b` within `lo ≤ j < hi` that holds `c`. -/
def firstMatch (c : Char) (b : List Char) (taken : List Bool) (lo hi : Nat) : Option Nat :=
  ((List.range hi).filter fun j => lo ≤ j && b[j]? == some c && taken[j]? == some false).head?

/-- Marks, for each character of `a` in turn, its match in `b`; gives which
characters of `a` and of `b` are matched. -/
def matchFlags (a b : List Char) : List Bool × List Bool :=
  let reach := (max a.length b.length / 2) - 1
  let step (acc : List Bool × List Bool × Nat) (c : Char) :=
    let (flagsA, flagsB, i) := acc
    let lo := i - reach
    let hi := min b.length (i + reach + 1)
    match firstMatch c b flagsB lo hi with
    | some j => (flagsA ++ [true], flagsB.set j true, i + 1)
    | none => (flagsA ++ [false], flagsB, i + 1)
  let (flagsA, flagsB, _) := a.foldl step ([], List.replicate b.length false, 0)
  (flagsA, flagsB)

/-- The characters of a word at the flagged places, in order. -/
def flagged (w : List Char) (flags : List Bool) : List Char :=
  ((w.zip flags).filter (·.2)).map (·.1)

/-- The Jaro similarity of two words. -/
def jaro (a b : List Char) : Float :=
  if a.isEmpty && b.isEmpty then 1.0
  else if a.isEmpty || b.isEmpty then 0.0
  else
    let (flagsA, flagsB) := matchFlags a b
    let inA := flagged a flagsA
    let inB := flagged b flagsB
    let m := inA.length
    let t := ((inA.zip inB).filter fun p => p.1 != p.2).length / 2
    if m = 0 then 0.0
    else
      let m' := m.toFloat
      (m' / a.length.toFloat + m' / b.length.toFloat + (m - t).toFloat / m') / 3.0

end TreeDump.Text
