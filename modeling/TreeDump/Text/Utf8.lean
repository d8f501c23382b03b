/-!
Decoding UTF-8.

A byte sequence is decoded one scalar value at a time. A well-formed sequence is
one to four bytes, with the second byte's range narrowed after `E0`, `ED`, `F0`
and `F4` so that overlong forms, surrogates and values above `10FFFF` are refused.
Lossy decoding replaces each maximal ill-formed subpart (the longest prefix of a
well-formed sequence, or else one byte) by U+FFFD, as the Unicode standard
recommends; strict decoding refuses the whole input instead.
-/

namespace TreeDump.Text

/-- The result of decoding at the front of a byte sequence. -/
inductive Decoded where
  /-- A scalar value and the bytes after it. -/
  | scalar (c : Char) (rest : List UInt8)
  /-- An ill-formed subpart, and the bytes after it. -/
  | illFormed (rest : List UInt8)

/-- Whether a byte continues a multi-byte sequence. -/
def isContinuation (b : UInt8) : Bool := 0x80 ≤ b && b ≤ 0xBF

/-- The payload bits of a continuation byte. -/
def payload (b : UInt8) : Nat := b.toNat % 64

/-- Decodes the sequence at the front of `bytes`, which is not empty. -/
def decodeFront (b0 : UInt8) (rest : List UInt8) : Decoded :=
  if b0 < 0x80 then .scalar (Char.ofNat b0.toNat) rest
  else if 0xC2 ≤ b0 && b0 ≤ 0xDF then
    match rest with
    | b1 :: r1 =>
      if isContinuation b1 then .scalar (Char.ofNat ((b0.toNat % 32) * 64 + payload b1)) r1
      else .illFormed rest
    | [] => .illFormed rest
  else if 0xE0 ≤ b0 && b0 ≤ 0xEF then
    let lo : UInt8 := if b0 == 0xE0 then 0xA0 else 0x80
    let hi : UInt8 := if b0 == 0xED then 0x9F else 0xBF
    match rest with
    | b1 :: r1 =>
      if lo ≤ b1 && b1 ≤ hi then
        match r1 with
        | b2 :: r2 =>
          if isContinuation b2 then
            .scalar (Char.ofNat ((b0.toNat % 16) * 4096 + payload b1 * 64 + payload b2)) r2
          else .illFormed r1
        | [] => .illFormed r1
      else .illFormed rest
    | [] => .illFormed rest
  else if 0xF0 ≤ b0 && b0 ≤ 0xF4 then
    let lo : UInt8 := if b0 == 0xF0 then 0x90 else 0x80
    let hi : UInt8 := if b0 == 0xF4 then 0x8F else 0xBF
    match rest with
    | b1 :: r1 =>
      if lo ≤ b1 && b1 ≤ hi then
        match r1 with
        | b2 :: r2 =>
          if isContinuation b2 then
            match r2 with
            | b3 :: r3 =>
              if isContinuation b3 then
                .scalar (Char.ofNat ((b0.toNat % 8) * 262144 + payload b1 * 4096 +
                  payload b2 * 64 + payload b3)) r3
              else .illFormed r2
            | [] => .illFormed r2
          else .illFormed r1
        | [] => .illFormed r1
      else .illFormed rest
    | [] => .illFormed rest
  else .illFormed rest

/-- Decodes with at most `fuel` steps, each of which takes at least one byte. -/
def decodeWith : Nat → List UInt8 → List (Option Char)
  | 0, _ => []
  | _, [] => []
  | fuel + 1, b :: bs =>
    match decodeFront b bs with
    | .scalar c rest => some c :: decodeWith fuel rest
    | .illFormed rest => none :: decodeWith fuel rest

/-- The scalar values of a byte sequence, `none` for each ill-formed subpart. -/
def decodeParts (bytes : List UInt8) : List (Option Char) :=
  decodeWith bytes.length bytes

/-- The text of a byte sequence, each ill-formed subpart replaced by U+FFFD. -/
def decodeLossy (bytes : List UInt8) : String :=
  String.ofList ((decodeParts bytes).map fun part => part.getD '�')

/-- The text of a well-formed byte sequence, or `none`. -/
def decodeStrict? (bytes : List UInt8) : Option String :=
  ((decodeParts bytes).mapM id).map String.ofList

end TreeDump.Text
