/-!
The MD5 message digest (RFC 1321), over byte lists.

A message is padded with one `0x80` byte, zeros up to 56 modulo 64, and the
message length in bits as a little-endian 64-bit word; each 64-byte block then
updates four 32-bit state words through 64 rounds. The digest is the four final
state words written little-endian, and its text is 32 lowercase hex digits.

`Stream` absorbs a message in pieces, as the fingerprint keeps it: a partly
filled block is completed first, whole blocks are compressed in place, and the
rest is buffered; the message length is a wrapping 64-bit word. `digest` is the
one-shot form.
-/

namespace TreeDump.Md5

/-- The four state words of the compression function. -/
structure Words where
  a : UInt32
  b : UInt32
  c : UInt32
  d : UInt32
deriving DecidableEq, Repr

/-- The state words before any block. -/
def Words.initial : Words := ⟨0x67452301, 0xefcdab89, 0x98badcfe, 0x10325476⟩

/-- Rotation amounts of the 64 rounds, four per group of sixteen. -/
def shiftOf (i : Nat) : UInt32 :=
  let row : List UInt32 :=
    if i < 16 then [7, 12, 17, 22]
    else if i < 32 then [5, 9, 14, 20]
    else if i < 48 then [4, 11, 16, 23]
    else [6, 10, 15, 21]
  row.getD (i % 4) 0

/-- The additive constants: the integer part of `|sin (i + 1)| * 2 ^ 32`. -/
def constants : Array UInt32 := #[
  0xd76aa478, 0xe8c7b756, 0x242070db, 0xc1bdceee,
  0xf57c0faf, 0x4787c62a, 0xa8304613, 0xfd469501,
  0x698098d8, 0x8b44f7af, 0xffff5bb1, 0x895cd7be,
  0x6b901122, 0xfd987193, 0xa679438e, 0x49b40821,
  0xf61e2562, 0xc040b340, 0x265e5a51, 0xe9b6c7aa,
  0xd62f105d, 0x02441453, 0xd8a1e681, 0xe7d3fbc8,
  0x21e1cde6, 0xc33707d6, 0xf4d50d87, 0x455a14ed,
  0xa9e3e905, 0xfcefa3f8, 0x676f02d9, 0x8d2a4c8a,
  0xfffa3942, 0x8771f681, 0x6d9d6122, 0xfde5380c,
  0xa4beea44, 0x4bdecfa9, 0xf6bb4b60, 0xbebfbc70,
  0x289b7ec6, 0xeaa127fa, 0xd4ef3085, 0x04881d05,
  0xd9d4d039, 0xe6db99e5, 0x1fa27cf8, 0xc4ac5665,
  0xf4292244, 0x432aff97, 0xab9423a7, 0xfc93a039,
  0x655b59c3, 0x8f0ccc92, 0xffeff47d, 0x85845dd1,
  0x6fa87e4f, 0xfe2ce6e0, 0xa3014314, 0x4e0811a1,
  0xf7537e82, 0xbd3af235, 0x2ad7d2bb, 0xeb86d391]

/-- Left rotation of a 32-bit word by `s` places, `0 < s < 32`. -/
def rotateLeft (x s : UInt32) : UInt32 := (x <<< s) ||| (x >>> (32 - s))

/-- The little-endian word of four bytes. -/
def wordOfBytes (b0 b1 b2 b3 : UInt8) : UInt32 :=
  b0.toUInt32 ||| (b1.toUInt32 <<< 8) ||| (b2.toUInt32 <<< 16) ||| (b3.toUInt32 <<< 24)

/-- The sixteen little-endian message words of a 64-byte block. -/
def blockWords (block : List UInt8) : Array UInt32 :=
  ((List.range 16).map fun k =>
    wordOfBytes (block.getD (4 * k) 0) (block.getD (4 * k + 1) 0)
      (block.getD (4 * k + 2) 0) (block.getD (4 * k + 3) 0)).toArray

/-- Round `i` of the compression function, with message words `m`. -/
def round (m : Array UInt32) (w : Words) (i : Nat) : Words :=
  let (f, g) :=
    if i < 16 then ((w.b &&& w.c) ||| (~~~w.b &&& w.d), i)
    else if i < 32 then ((w.d &&& w.b) ||| (~~~w.d &&& w.c), (5 * i + 1) % 16)
    else if i < 48 then (w.b ^^^ w.c ^^^ w.d, (3 * i + 5) % 16)
    else (w.c ^^^ (w.b ||| ~~~w.d), (7 * i) % 16)
  let sum := w.a + f + constants.getD i 0 + m.getD g 0
  ⟨w.d, w.b + rotateLeft sum (shiftOf i), w.b, w.c⟩

/-- Updates the state words with one 64-byte block. -/
def compress (w : Words) (block : List UInt8) : Words :=
  let m := blockWords block
  let r := (List.range 64).foldl (round m) w
  ⟨w.a + r.a, w.b + r.b, w.c + r.c, w.d + r.d⟩

/-- Compresses every complete block at the front of `bytes`; returns the new state
and the incomplete rest, which is shorter than a block. -/
def absorb (w : Words) (bytes : List UInt8) : Words × List UInt8 :=
  if 64 ≤ bytes.length then absorb (compress w (bytes.take 64)) (bytes.drop 64)
  else (w, bytes)
termination_by bytes.length
decreasing_by simp only [List.length_drop]; omega

/-- The bytes of a 64-bit word, least significant first. -/
def le64 (n : Nat) : List UInt8 :=
  (List.range 8).map fun k => (n / Nat.pow 2 (8 * k) % 256).toUInt8

/-- Sixteen digest bytes. -/
structure Digest where
  bytes : List UInt8
deriving DecidableEq, Repr

/-- The two lowercase hex digits of a byte. -/
def hexByte (b : UInt8) : String :=
  let digit (n : Nat) : Char := "0123456789abcdef".toList.getD n '0'
  String.ofList [digit (b.toNat / 16), digit (b.toNat % 16)]

/-- The digest as 32 lowercase hex digits. -/
def Digest.toHex (d : Digest) : String :=
  String.join (d.bytes.map hexByte)

/-- The bytes of a 32-bit word, least significant first. -/
def le32 (x : UInt32) : List UInt8 :=
  [x.toUInt8, (x >>> 8).toUInt8, (x >>> 16).toUInt8, (x >>> 24).toUInt8]

/-- Fewer bytes than a block are left as they are. -/
theorem absorb_of_lt {w : Words} {bytes : List UInt8} (short : bytes.length < 64) :
    absorb w bytes = (w, bytes) := by
  rw [absorb, if_neg (by omega)]

/-- What `absorb` leaves over is shorter than a block. -/
theorem length_absorb_snd_lt (w : Words) (bytes : List UInt8) : (absorb w bytes).2.length < 64 := by
  induction w, bytes using absorb.induct with
  | case1 w bytes full ih => rw [absorb, if_pos full]; exact ih
  | case2 w bytes short => rw [absorb_of_lt (by omega)]; exact Nat.lt_of_not_le short

/-- A message absorbed in pieces: the state words after all complete blocks, the
buffered bytes of the incomplete block (fewer than 64), and the number of bytes
seen as a 64-bit word that wraps around. -/
@[ext] structure Stream where
  words : Words := Words.initial
  pending : List UInt8 := []
  length : UInt64 := 0
  pending_lt : pending.length < 64 := by decide
deriving Repr

namespace Stream

/-- A stream that has seen nothing. -/
def empty : Stream := {}

/-- Absorbs the next piece of the message. A partly filled block is completed from
the front of the piece first, and the piece is kept whole in it when it does not
complete it; then every complete block of what is left is compressed in place and
the rest is buffered. -/
def feed (s : Stream) (piece : List UInt8) : Stream :=
  let length := s.length + piece.length.toUInt64
  if s.pending.isEmpty then
    let absorbed := absorb s.words piece
    { words := absorbed.1, pending := absorbed.2, length,
      pending_lt := length_absorb_snd_lt s.words piece }
  else
    let filled := s.pending ++ piece.take (64 - s.pending.length)
    if short : filled.length < 64 then { s with pending := filled, length, pending_lt := short }
    else
      let absorbed := absorb (compress s.words filled) (piece.drop (64 - s.pending.length))
      { words := absorbed.1, pending := absorbed.2, length,
        pending_lt := length_absorb_snd_lt _ _ }

/-- One zero byte more moves the buffered count one place round the block. -/
theorem length_pending_feed_zero (s : Stream) :
    (s.feed [0]).pending.length = (s.pending.length + 1) % 64 := by
  have below := s.pending_lt
  unfold feed
  by_cases empty : s.pending.isEmpty = true
  · have none : s.pending = [] := List.isEmpty_iff.mp empty
    simp only [empty, if_true]
    rw [absorb_of_lt (by simp)]
    simp [none]
  · have some : 0 < s.pending.length := by
      cases pending : s.pending with
      | nil => simp [pending] at empty
      | cons b bs => simp
    have taken : [(0 : UInt8)].take (64 - s.pending.length) = [0] := by
      rw [List.take_of_length_le (by simp only [List.length_singleton]; omega)]
    simp only [empty, Bool.false_eq_true, if_false, taken]
    split
    · rename_i fits
      simp only [List.length_append, List.length_singleton] at fits ⊢
      omega
    · rename_i full
      simp only [List.length_append, List.length_singleton] at full
      have rest : [(0 : UInt8)].drop (64 - s.pending.length) = [] := by
        rw [show 64 - s.pending.length = 1 by omega]
        rfl
      simp only [rest, absorb_of_lt (show ([] : List UInt8).length < 64 by decide), List.length_nil]
      omega

/-- Feeds zero bytes until 56 bytes are buffered, which leaves room for the length. -/
def padZeros (s : Stream) : Stream :=
  if s.pending.length = 56 then s else padZeros (s.feed [0])
termination_by (120 - s.pending.length) % 64
decreasing_by
  have below := s.pending_lt
  rw [length_pending_feed_zero]
  omega

/-- Pads the message seen so far and writes the digest: one `0x80` byte, zero bytes
up to 56 modulo 64, then the length in bits modulo `2 ^ 64`, little-endian. -/
def finish (s : Stream) : Digest :=
  let bitLength := s.length * 8
  let w := ((s.feed [0x80]).padZeros.feed (le64 bitLength.toNat)).words
  ⟨le32 w.a ++ le32 w.b ++ le32 w.c ++ le32 w.d⟩

end Stream

/-- The digest of a whole message. -/
def digest (message : List UInt8) : Digest :=
  (Stream.empty.feed message).finish

/-- Cuts `message` into consecutive pieces of the given lengths, each clipped to what
remains, followed by one last piece with whatever is left. -/
def cutPieces : List Nat → List UInt8 → List (List UInt8)
  | [], rest => [rest]
  | n :: ns, rest => rest.take n :: cutPieces ns (rest.drop n)

/-- The digest of a message fed to a stream in the pieces that `cutPieces` cuts. -/
def digestInPieces (message : List UInt8) (lengths : List Nat) : Digest :=
  ((cutPieces lengths message).foldl Stream.feed Stream.empty).finish

end TreeDump.Md5
