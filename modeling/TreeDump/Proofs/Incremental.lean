import Mathlib
import TreeDump.Fingerprint.Listing
import TreeDump.Proofs.Accepted

/-!
A fingerprint does not depend on how its message is cut.

A stream buffers the bytes of its incomplete block and compresses every block as
soon as it is complete. Whatever the buffer holds and wherever a piece ends (short
of the block, exactly at its end, or many blocks on), feeding the piece leaves the
stream where one `absorb` of the buffered bytes followed by the piece leaves it
(`Stream.feed_absorb`). Absorbing is blind to where its input was cut
(`absorb_append`), so feeding two pieces in turn is feeding their concatenation
(`Stream.feed_feed`).

Main statement (`digest_of_pieces`): feeding any sequence of pieces and finishing
gives the digest of their concatenation; the fingerprint of a listing is the digest
of its child records, directories first; and the fingerprint that the snapshot
reader takes line by line is the digest of the whole input.
-/

namespace TreeDump

namespace Md5

/-- A block or more at the front of the input: the first block is compressed. -/
theorem absorb_of_le {w : Words} {bytes : List UInt8} (full : 64 ≤ bytes.length) :
    absorb w bytes = absorb (compress w (bytes.take 64)) (bytes.drop 64) := by
  rw [absorb, if_pos full]

/-- Absorbing is blind to where its input was cut: absorbing what one piece left
over together with the next piece is absorbing both pieces at once. -/
theorem absorb_append (w : Words) (xs ys : List UInt8) :
    absorb (absorb w xs).1 ((absorb w xs).2 ++ ys) = absorb w (xs ++ ys) := by
  induction w, xs using absorb.induct with
  | case1 w bytes full ih =>
    have whole : absorb w (bytes ++ ys) =
        absorb (compress w (bytes.take 64)) (bytes.drop 64 ++ ys) := by
      rw [absorb_of_le (by simp only [List.length_append]; omega),
        List.take_append_of_le_length full, List.drop_append_of_le_length full]
    rw [absorb_of_le full, ih, whole]
  | case2 w bytes short => rw [@absorb_of_lt w bytes (by omega)]

namespace Stream

/-- Feeding a piece leaves the stream where absorbing its buffered bytes followed by
the piece leaves it, and counts the piece's bytes modulo `2 ^ 64`. -/
theorem feed_absorb (s : Stream) (piece : List UInt8) :
    ((s.feed piece).words, (s.feed piece).pending) = absorb s.words (s.pending ++ piece) ∧
      (s.feed piece).length = s.length + piece.length.toUInt64 := by
  have below := s.pending_lt
  refine ⟨?_, by unfold feed; dsimp only; split <;> (try split) <;> rfl⟩
  unfold feed
  by_cases empty : s.pending.isEmpty = true
  · have none : s.pending = [] := List.isEmpty_iff.mp empty
    simp only [empty, if_true]
    rw [none, List.nil_append]
  · simp only [empty, Bool.false_eq_true, if_false]
    split
    · -- The piece leaves the block incomplete, so it is buffered whole.
      rename_i short
      have whole : piece.take (64 - s.pending.length) = piece := by
        apply List.take_of_length_le
        simp only [List.length_append, List.length_take] at short
        omega
      dsimp only
      rw [whole] at short ⊢
      rw [absorb_of_lt short]
    · -- The piece completes the block, which is compressed before the rest is absorbed.
      rename_i full
      simp only [List.length_append, List.length_take] at full
      have enough : 64 ≤ (s.pending ++ piece).length := by
        simp only [List.length_append]
        omega
      have front : (s.pending ++ piece).take 64 = s.pending ++ piece.take (64 - s.pending.length) := by
        rw [List.take_append, List.take_of_length_le (by omega)]
      have rest : (s.pending ++ piece).drop 64 = piece.drop (64 - s.pending.length) := by
        rw [List.drop_append, List.drop_eq_nil_of_le (by omega), List.nil_append]
      dsimp only
      rw [absorb_of_le enough, front, rest]

/-- Feeding two pieces in turn is feeding their concatenation. -/
theorem feed_feed (s : Stream) (xs ys : List UInt8) :
    (s.feed xs).feed ys = s.feed (xs ++ ys) := by
  obtain ⟨first, firstLength⟩ := feed_absorb s xs
  obtain ⟨second, secondLength⟩ := feed_absorb (s.feed xs) ys
  obtain ⟨whole, wholeLength⟩ := feed_absorb s (xs ++ ys)
  have absorbed : absorb (s.feed xs).words ((s.feed xs).pending ++ ys) =
      absorb s.words (s.pending ++ (xs ++ ys)) := by
    rw [show (s.feed xs).words = _ from congrArg Prod.fst first,
      show (s.feed xs).pending = _ from congrArg Prod.snd first, absorb_append, List.append_assoc]
  rw [absorbed, ← whole] at second
  apply Stream.ext
  · exact congrArg Prod.fst second
  · exact congrArg Prod.snd second
  · rw [secondLength, firstLength, wholeLength, List.length_append]
    simp only [Nat.toUInt64_eq, UInt64.ofNat_add, UInt64.add_assoc]

/-- The empty stream fed nothing is still empty. -/
theorem empty_feed_nil : empty.feed [] = empty := by
  obtain ⟨absorbed, counted⟩ := feed_absorb empty []
  rw [show empty.pending ++ [] = [] from rfl, absorb_of_lt (by decide)] at absorbed
  apply Stream.ext
  · exact congrArg Prod.fst absorbed
  · exact congrArg Prod.snd absorbed
  · rw [counted]
    rfl

/-- Feeding pieces in turn is feeding their concatenation. -/
theorem foldl_feed (pieces : List (List UInt8)) (s : Stream) (xs : List UInt8) :
    pieces.foldl feed (s.feed xs) = s.feed (xs ++ pieces.flatten) := by
  induction pieces generalizing xs with
  | nil => simp
  | cons piece pieces ih => rw [List.foldl_cons, feed_feed, ih, List.flatten_cons, List.append_assoc]

theorem foldl_feed_empty (pieces : List (List UInt8)) :
    pieces.foldl feed empty = empty.feed pieces.flatten := by
  have fed := foldl_feed pieces empty []
  rwa [empty_feed_nil, List.nil_append] at fed

end Stream

/-- The bytes that one child adds to its listing's fingerprint: its name in UTF-8, a
zero byte and its size as a little-endian 64-bit word. -/
def childRecord (name : String) (size : Nat) : List UInt8 :=
  name.toUTF8.toList ++ 0 :: le64 size

/-- Feeding a child's three pieces is feeding its record. -/
theorem Stream.feedChild_eq (s : Stream) (name : String) (size : Nat) :
    s.feedChild name size = s.feed (childRecord name size) := by
  rw [Stream.feedChild, Stream.feed_feed, Stream.feed_feed, childRecord, List.singleton_append]

/-- The fingerprint of a listing is the digest of its child records, in order. -/
theorem listingDigest_eq (children : List (String × Nat)) :
    listingDigest children = digest (children.map fun child => childRecord child.1 child.2).flatten := by
  have each : (fun (s : Stream) (child : String × Nat) => s.feedChild child.1 child.2) =
      fun s child => s.feed (childRecord child.1 child.2) := by
    funext s child
    exact Stream.feedChild_eq s child.1 child.2
  rw [listingDigest, each, ← List.foldl_map, Stream.foldl_feed_empty, digest]

theorem flatten_cutPieces (lengths : List Nat) (message : List UInt8) :
    (cutPieces lengths message).flatten = message := by
  induction lengths generalizing message with
  | nil => simp [cutPieces]
  | cons n lengths ih => rw [cutPieces, List.flatten_cons, ih, List.take_append_drop]

/-- However a message is cut into pieces, feeding them gives its digest. -/
theorem digestInPieces_eq (message : List UInt8) (lengths : List Nat) :
    digestInPieces message lengths = digest message := by
  rw [digestInPieces, Stream.foldl_feed_empty, flatten_cutPieces, digest]

end Md5

/-- The lines the snapshot reader cuts, put back together, are its input. -/
theorem Snapshot.flatten_splitLines (bytes : List UInt8) :
    (Snapshot.splitLines bytes).flatten = bytes := by
  induction bytes with
  | nil => rfl
  | cons b bs ih =>
    by_cases newline : b = 10
    · rw [Snapshot.splitLines, if_pos newline, List.flatten_cons, ih]
      rfl
    · rw [Snapshot.splitLines, if_neg newline]
      cases lines : Snapshot.splitLines bs with
      | nil =>
        rw [lines] at ih
        simp [← ih]
      | cons line rest =>
        rw [lines, List.flatten_cons] at ih
        simp [← ih]

/-- A fingerprint does not depend on how its message is cut: feeding pieces in turn
and finishing gives the digest of their concatenation, whatever their lengths. So
the fingerprint of a directory's listing is the digest of the records of its child
directories and then of its files, and the fingerprint of an accepted snapshot,
which the reader feeds line by line, is the digest of its whole input. -/
theorem digest_of_pieces :
    (∀ pieces : List (List UInt8),
        (pieces.foldl Md5.Stream.feed Md5.Stream.empty).finish = Md5.digest pieces.flatten) ∧
      (∀ d : DirEntry, d.childDigest =
        Md5.digest ((d.dirs.map fun c => Md5.childRecord c.name c.size) ++
          (d.files.map fun f => Md5.childRecord f.name f.size)).flatten) ∧
      (∀ (bytes : List UInt8) (S : Snapshot), Snapshot.read bytes = .ok S →
        S.digest = ((Snapshot.splitLines bytes).foldl Md5.Stream.feed Md5.Stream.empty).finish ∧
          S.digest = Md5.digest bytes) := by
  have pieces : ∀ pieces : List (List UInt8),
      (pieces.foldl Md5.Stream.feed Md5.Stream.empty).finish = Md5.digest pieces.flatten := by
    intro pieces
    rw [Md5.Stream.foldl_feed_empty, Md5.digest]
  refine ⟨pieces, fun d => ?_, fun bytes S accepted => ?_⟩
  · rw [DirEntry.childDigest, Md5.listingDigest_eq, DirEntry.listing, List.map_append, List.map_map,
      List.map_map]
    rfl
  · obtain ⟨p, id, t, -, -, -, -, -, digest⟩ := Snapshot.read_eq_ok accepted
    rw [pieces, Snapshot.flatten_splitLines]
    exact ⟨digest, digest⟩

/-- The root-only dump `0 1 r`, `1 0 0 0 1 0 r` is accepted, and its fingerprint is
that of its two lines fed in turn. -/
theorem root_dump_digest_of_lines :
    ∃ S : Snapshot, Snapshot.read "0 1 r\n1 0 0 0 1 0 r\n".toUTF8.toList = .ok S ∧
      S.digest = ((Snapshot.splitLines "0 1 r\n1 0 0 0 1 0 r\n".toUTF8.toList).foldl
        Md5.Stream.feed Md5.Stream.empty).finish ∧
      S.digest = Md5.digest "0 1 r\n1 0 0 0 1 0 r\n".toUTF8.toList := by
  have readable : (Snapshot.read "0 1 r\n1 0 0 0 1 0 r\n".toUTF8.toList).isOk = true := by
    decide +kernel
  cases accepted : Snapshot.read "0 1 r\n1 0 0 0 1 0 r\n".toUTF8.toList with
  | error e =>
    rw [accepted] at readable
    cases readable
  | ok S => exact ⟨S, rfl, digest_of_pieces.2.2 _ S accepted⟩

end TreeDump
