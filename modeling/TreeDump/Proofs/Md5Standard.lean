import Mathlib

/-!
The MD5 message digest as its standard states it, step by step.

1. Padding: one `1` bit, then `0` bits until the length in bits is 448 modulo 512;
   over bytes, one `0x80` byte and zero bytes up to 56 modulo 64 (`padding`).
2. Length: the message length in bits, of which only the low 64 bits are kept,
   as two 32-bit words, low-order word first (`lengthBytes`).
3. The buffer `A B C D` starts at the bytes `01 23 45 67`, `89 ab cd ef`,
   `fe dc ba 98`, `76 54 32 10`, each word read low-order byte first (`initial`).
4. Each 64-byte block, read as sixteen words `X[0..15]`, goes through four rounds
   of sixteen operations `[abcd k s i]`: `a = b + ((a + aux(b,c,d) + X[k] + T[i]) <<< s)`
   with the round's auxiliary function `F`, `G`, `H` or `I`; the buffer then adds
   its value from before the block (`processBlock`).
5. The digest is `A B C D`, each word low-order byte first (`md5`).

Words are `BitVec 32`, with its own addition, bitwise operations and rotation.
The rounds are written as the standard lists them, one operation per entry.
-/

namespace TreeDump.Md5Standard

/-- A word of the standard: 32 bits. -/
abbrev Word := BitVec 32

/-- The word whose bytes, low-order first, are `b0 b1 b2 b3`. -/
def wordOf (b0 b1 b2 b3 : UInt8) : Word :=
  BitVec.ofNat 32 (b0.toNat + 256 * b1.toNat + 65536 * b2.toNat + 16777216 * b3.toNat)

/-- The four bytes of a word, low-order first. -/
def wordBytes (w : Word) : List UInt8 :=
  [w.toNat.toUInt8, (w.toNat / 256).toUInt8, (w.toNat / 65536).toUInt8, (w.toNat / 16777216).toUInt8]

/-! ### The auxiliary functions and the table -/

def F (x y z : Word) : Word := (x &&& y) ||| (~~~x &&& z)
def G (x y z : Word) : Word := (x &&& z) ||| (y &&& ~~~z)
def H (x y z : Word) : Word := x ^^^ y ^^^ z
def I (x y z : Word) : Word := y ^^^ (x ||| ~~~z)

/-- The table `T[1] … T[64]`, the integer parts of `4294967296 * |sin i|`. -/
def T : List Word := [
  0xd76aa478, 0xe8c7b756, 0x242070db, 0xc1bdceee,
  0xf57c0faf, 0x4787c62a, 0xa8304613, 0xfd469501,
  0x698098d8, 0x8b44f7af, 0xffff5bb1, 0x895cd7be,
  0x6b901122, 0xfd987193, 0xa679438e, 0x49b40821,
  0xf61e2562, 0xc040b340, 0x265e5a51, 0xe9b6c7aa,
  0xd62f105d, 0x02441453, 0xd8a1e681, 0xe7d3fbc8,
  0x21e1cde6, 0xc33707d6, 0xf4d50d87, 0x455a14ed,
  0xa9e3e905, 0xfcefa3f8, 0x676f02d9, 0x8d2a4c8a,
  0xfffa3942, 0x8771f681, 0x6d9d6122, 0xfde5380c,
  0xa4beea44, 0x4bdecfa9, 0xf6bb4b60, 0xbebfbc70,
  0x289b7ec6, 0xeaa127fa, 0xd4ef3085, 0x04881d05,
  0xd9d4d039, 0xe6db99e5, 0x1fa27cf8, 0xc4ac5665,
  0xf4292244, 0x432aff97, 0xab9423a7, 0xfc93a039,
  0x655b59c3, 0x8f0ccc92, 0xffeff47d, 0x85845dd1,
  0x6fa87e4f, 0xfe2ce6e0, 0xa3014314, 0x4e0811a1,
  0xf7537e82, 0xbd3af235, 0x2ad7d2bb, 0xeb86d391]

/-! ### The buffer and the operations -/

/-- The four words of the buffer. -/
structure Buffer where
  A : Word
  B : Word
  C : Word
  D : Word
deriving DecidableEq, Repr

/-- A word of the buffer. -/
inductive Reg where
  | A
  | B
  | C
  | D
deriving DecidableEq, Repr

def Buffer.get (buf : Buffer) : Reg → Word
  | .A => buf.A
  | .B => buf.B
  | .C => buf.C
  | .D => buf.D

def Buffer.set (buf : Buffer) : Reg → Word → Buffer
  | .A, w => { buf with A := w }
  | .B, w => { buf with B := w }
  | .C, w => { buf with C := w }
  | .D, w => { buf with D := w }

/-- Which words of the buffer an operation calls `a b c d`, as the rounds write it:
`ABCD`, `DABC`, `CDAB` or `BCDA`. -/
inductive Roles where
  | ABCD
  | DABC
  | CDAB
  | BCDA
deriving DecidableEq, Repr, Inhabited

def Roles.a : Roles → Reg
  | .ABCD => .A | .DABC => .D | .CDAB => .C | .BCDA => .B

def Roles.b : Roles → Reg
  | .ABCD => .B | .DABC => .A | .CDAB => .D | .BCDA => .C

def Roles.c : Roles → Reg
  | .ABCD => .C | .DABC => .B | .CDAB => .A | .BCDA => .D

def Roles.d : Roles → Reg
  | .ABCD => .D | .DABC => .C | .CDAB => .B | .BCDA => .A

/-- The operation `[abcd k s i]`. -/
structure Op where
  roles : Roles
  k : Nat
  s : Nat
  i : Nat
deriving DecidableEq, Repr, Inhabited

/-- `a = b + ((a + aux(b,c,d) + X[k] + T[i]) <<< s)`. -/
def Op.run (aux : Word → Word → Word → Word) (X : List Word) (buf : Buffer) (op : Op) : Buffer :=
  let a := buf.get op.roles.a
  let b := buf.get op.roles.b
  buf.set op.roles.a
    (b + (a + aux b (buf.get op.roles.c) (buf.get op.roles.d) + X.getD op.k 0 +
      T.getD (op.i - 1) 0).rotateLeft op.s)

/-- Round 1, with `F`. -/
def round1 : List Op := [
  ⟨.ABCD, 0, 7, 1⟩, ⟨.DABC, 1, 12, 2⟩, ⟨.CDAB, 2, 17, 3⟩, ⟨.BCDA, 3, 22, 4⟩,
  ⟨.ABCD, 4, 7, 5⟩, ⟨.DABC, 5, 12, 6⟩, ⟨.CDAB, 6, 17, 7⟩, ⟨.BCDA, 7, 22, 8⟩,
  ⟨.ABCD, 8, 7, 9⟩, ⟨.DABC, 9, 12, 10⟩, ⟨.CDAB, 10, 17, 11⟩, ⟨.BCDA, 11, 22, 12⟩,
  ⟨.ABCD, 12, 7, 13⟩, ⟨.DABC, 13, 12, 14⟩, ⟨.CDAB, 14, 17, 15⟩, ⟨.BCDA, 15, 22, 16⟩]

/-- Round 2, with `G`. -/
def round2 : List Op := [
  ⟨.ABCD, 1, 5, 17⟩, ⟨.DABC, 6, 9, 18⟩, ⟨.CDAB, 11, 14, 19⟩, ⟨.BCDA, 0, 20, 20⟩,
  ⟨.ABCD, 5, 5, 21⟩, ⟨.DABC, 10, 9, 22⟩, ⟨.CDAB, 15, 14, 23⟩, ⟨.BCDA, 4, 20, 24⟩,
  ⟨.ABCD, 9, 5, 25⟩, ⟨.DABC, 14, 9, 26⟩, ⟨.CDAB, 3, 14, 27⟩, ⟨.BCDA, 8, 20, 28⟩,
  ⟨.ABCD, 13, 5, 29⟩, ⟨.DABC, 2, 9, 30⟩, ⟨.CDAB, 7, 14, 31⟩, ⟨.BCDA, 12, 20, 32⟩]

/-- Round 3, with `H`. -/
def round3 : List Op := [
  ⟨.ABCD, 5, 4, 33⟩, ⟨.DABC, 8, 11, 34⟩, ⟨.CDAB, 11, 16, 35⟩, ⟨.BCDA, 14, 23, 36⟩,
  ⟨.ABCD, 1, 4, 37⟩, ⟨.DABC, 4, 11, 38⟩, ⟨.CDAB, 7, 16, 39⟩, ⟨.BCDA, 10, 23, 40⟩,
  ⟨.ABCD, 13, 4, 41⟩, ⟨.DABC, 0, 11, 42⟩, ⟨.CDAB, 3, 16, 43⟩, ⟨.BCDA, 6, 23, 44⟩,
  ⟨.ABCD, 9, 4, 45⟩, ⟨.DABC, 12, 11, 46⟩, ⟨.CDAB, 15, 16, 47⟩, ⟨.BCDA, 2, 23, 48⟩]

/-- Round 4, with `I`. -/
def round4 : List Op := [
  ⟨.ABCD, 0, 6, 49⟩, ⟨.DABC, 7, 10, 50⟩, ⟨.CDAB, 14, 15, 51⟩, ⟨.BCDA, 5, 21, 52⟩,
  ⟨.ABCD, 12, 6, 53⟩, ⟨.DABC, 3, 10, 54⟩, ⟨.CDAB, 10, 15, 55⟩, ⟨.BCDA, 1, 21, 56⟩,
  ⟨.ABCD, 8, 6, 57⟩, ⟨.DABC, 15, 10, 58⟩, ⟨.CDAB, 6, 15, 59⟩, ⟨.BCDA, 13, 21, 60⟩,
  ⟨.ABCD, 4, 6, 61⟩, ⟨.DABC, 11, 10, 62⟩, ⟨.CDAB, 2, 15, 63⟩, ⟨.BCDA, 9, 21, 64⟩]

/-- The rounds of a block, in order, each with its auxiliary function. -/
def rounds : List ((Word → Word → Word → Word) × List Op) :=
  [(F, round1), (G, round2), (H, round3), (I, round4)]

/-- Step 4 for one block of words `X`: the four rounds, then each word of the
buffer adds the value it had before the block. -/
def processBlock (buf : Buffer) (X : List Word) : Buffer :=
  let out := rounds.foldl (fun buf round => round.2.foldl (Op.run round.1 X) buf) buf
  ⟨out.A + buf.A, out.B + buf.B, out.C + buf.C, out.D + buf.D⟩

/-! ### The message -/

/-- Step 1 for a message of `n` bytes: `0x80`, then zero bytes until the length is
56 modulo 64. -/
def padding (n : Nat) : List UInt8 :=
  0x80 :: List.replicate ((119 - n % 64) % 64) 0

/-- Step 2 for a message of `n` bytes: the low 64 bits of its length in bits, as two
words, low-order word first. -/
def lengthBytes (n : Nat) : List UInt8 :=
  let bits := 8 * n % 18446744073709551616
  wordBytes (BitVec.ofNat 32 bits) ++ wordBytes (BitVec.ofNat 32 (bits / 4294967296))

/-- The blocks of a padded message: bytes `64 i` to `64 i + 63` for each `i`. -/
def blocks (bytes : List UInt8) : List (List UInt8) :=
  (List.range (bytes.length / 64)).map fun i => (bytes.drop (64 * i)).take 64

/-- The sixteen words of a block, each read low-order byte first. -/
def blockWords (block : List UInt8) : List Word :=
  (List.range 16).map fun j =>
    wordOf (block.getD (4 * j) 0) (block.getD (4 * j + 1) 0) (block.getD (4 * j + 2) 0)
      (block.getD (4 * j + 3) 0)

/-- Step 3: the buffer before the first block. -/
def initial : Buffer :=
  ⟨wordOf 0x01 0x23 0x45 0x67, wordOf 0x89 0xab 0xcd 0xef, wordOf 0xfe 0xdc 0xba 0x98,
    wordOf 0x76 0x54 0x32 0x10⟩

/-- The sixteen bytes of the digest of `message`. -/
def md5 (message : List UInt8) : List UInt8 :=
  let padded := message ++ padding message.length ++ lengthBytes message.length
  let buf := (blocks padded).foldl (fun buf block => processBlock buf (blockWords block)) initial
  wordBytes buf.A ++ wordBytes buf.B ++ wordBytes buf.C ++ wordBytes buf.D

/-- Padding adds between one and 64 bytes, and with the length the message fills
whole blocks. -/
theorem length_padding (n : Nat) :
    1 ≤ (padding n).length ∧ (padding n).length ≤ 64 ∧
      (n + (padding n).length + (lengthBytes n).length) % 64 = 0 := by
  simp only [padding, lengthBytes, wordBytes, List.length_cons, List.length_replicate,
    List.length_append, List.length_nil]
  omega

/-- The digest of `abc`, `900150983cd24fb0d6963f7d28e17f72`. -/
example : md5 [0x61, 0x62, 0x63] =
    [0x90, 0x01, 0x50, 0x98, 0x3c, 0xd2, 0x4f, 0xb0, 0xd6, 0x96, 0x3f, 0x7d, 0x28, 0xe1, 0x7f, 0x72] := by
  decide +kernel

end TreeDump.Md5Standard
