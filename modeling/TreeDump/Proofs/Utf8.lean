import Mathlib
import TreeDump.Text.Utf8

/-!
Decoding what a string encodes.

Owns: the strict decoder reads the UTF-8 bytes of every string back as that
string, `decodeStrict? s.toUTF8.toList = some s`; the bytes of a string hold
the line-break byte `10` only where the string holds `'\n'`; and, the other way
round, a decoded text holds `'\n'` only where its bytes hold `10`, which no
sequence can swallow as a continuation.

The decoder is checked against the encoder one scalar value at a time: the lead
byte of an encoded value selects the right branch of `decodeFront`, its
continuation bytes lie in the ranges that branch admits (the narrowed ranges after
`E0`, `ED`, `F0` and `F4` hold because a scalar value is neither overlong, nor a
surrogate, nor above `10FFFF`), and the payload bits put the value back together.
-/

namespace TreeDump.Text

/-! ### One scalar value -/

theorem isContinuation_of {b : UInt8} (range : 0x80 ≤ b.toNat ∧ b.toNat ≤ 0xBF) :
    isContinuation b = true := by
  simp [isContinuation, UInt8.le_iff_toNat_le]
  omega

theorem decodeFront_one {b0 : UInt8} (ascii : b0.toNat < 0x80) (rest : List UInt8) :
    decodeFront b0 rest = .scalar (Char.ofNat b0.toNat) rest := by
  unfold decodeFront
  rw [if_pos (UInt8.lt_iff_toNat_lt.mpr ascii)]

theorem decodeFront_two {b0 b1 : UInt8} (lead : 0xC2 ≤ b0.toNat ∧ b0.toNat ≤ 0xDF)
    (cont1 : 0x80 ≤ b1.toNat ∧ b1.toNat ≤ 0xBF) (rest : List UInt8) :
    decodeFront b0 (b1 :: rest) =
      .scalar (Char.ofNat (b0.toNat % 32 * 64 + b1.toNat % 64)) rest := by
  unfold decodeFront
  rw [if_neg (by simp [UInt8.lt_iff_toNat_lt]; omega),
    if_pos (by simp [UInt8.le_iff_toNat_le]; omega)]
  simp only
  rw [if_pos (isContinuation_of cont1)]
  rfl

theorem decodeFront_three {b0 b1 b2 : UInt8} (lead : 0xE0 ≤ b0.toNat ∧ b0.toNat ≤ 0xEF)
    (cont1 : (if b0.toNat = 0xE0 then 0xA0 else 0x80) ≤ b1.toNat ∧
      b1.toNat ≤ (if b0.toNat = 0xED then 0x9F else 0xBF))
    (cont2 : 0x80 ≤ b2.toNat ∧ b2.toNat ≤ 0xBF) (rest : List UInt8) :
    decodeFront b0 (b1 :: b2 :: rest) =
      .scalar (Char.ofNat (b0.toNat % 16 * 4096 + b1.toNat % 64 * 64 + b2.toNat % 64)) rest := by
  unfold decodeFront
  rw [if_neg (by simp [UInt8.lt_iff_toNat_lt]; omega),
    if_neg (by simp [UInt8.le_iff_toNat_le]; omega),
    if_pos (by simp [UInt8.le_iff_toNat_le]; omega)]
  simp only
  rw [if_pos, if_pos (isContinuation_of cont2)]
  · rfl
  · by_cases isE0 : b0.toNat = 0xE0 <;> by_cases isED : b0.toNat = 0xED <;>
      simp_all [UInt8.le_iff_toNat_le, ← UInt8.toNat_inj]

theorem decodeFront_four {b0 b1 b2 b3 : UInt8} (lead : 0xF0 ≤ b0.toNat ∧ b0.toNat ≤ 0xF4)
    (cont1 : (if b0.toNat = 0xF0 then 0x90 else 0x80) ≤ b1.toNat ∧
      b1.toNat ≤ (if b0.toNat = 0xF4 then 0x8F else 0xBF))
    (cont2 : 0x80 ≤ b2.toNat ∧ b2.toNat ≤ 0xBF) (cont3 : 0x80 ≤ b3.toNat ∧ b3.toNat ≤ 0xBF)
    (rest : List UInt8) :
    decodeFront b0 (b1 :: b2 :: b3 :: rest) =
      .scalar (Char.ofNat (b0.toNat % 8 * 262144 + b1.toNat % 64 * 4096 + b2.toNat % 64 * 64 +
        b3.toNat % 64)) rest := by
  unfold decodeFront
  rw [if_neg (by simp [UInt8.lt_iff_toNat_lt]; omega),
    if_neg (by simp [UInt8.le_iff_toNat_le]; omega),
    if_neg (by simp [UInt8.le_iff_toNat_le]; omega),
    if_pos (by simp [UInt8.le_iff_toNat_le]; omega)]
  simp only
  rw [if_pos, if_pos (isContinuation_of cont2), if_pos (isContinuation_of cont3)]
  · rfl
  · by_cases isF0 : b0.toNat = 0xF0 <;> by_cases isF4 : b0.toNat = 0xF4 <;>
      simp_all [UInt8.le_iff_toNat_le, ← UInt8.toNat_inj]

/-- The code point of a character is a Unicode scalar value. -/
theorem Char.toNat_scalar (c : Char) :
    c.toNat < 0xD800 ∨ (0xDFFF < c.toNat ∧ c.toNat < 0x110000) :=
  c.valid

private theorem toNat_ofNat_of_lt {n : Nat} (small : n < 256) : (UInt8.ofNat n).toNat = n := by
  simp
  omega

/-- The decoder reads the encoding of one character back, whatever follows it. -/
theorem decodeFront_utf8EncodeChar (c : Char) (rest : List UInt8) :
    ∃ b0 bs, String.utf8EncodeChar c = b0 :: bs ∧ decodeFront b0 (bs ++ rest) = .scalar c rest := by
  have scalar := Char.toNat_scalar c
  have back : Char.ofNat c.val.toNat = c := Char.ofNat_toNat c
  unfold String.utf8EncodeChar
  simp only [Char.toNat] at scalar
  generalize c.val.toNat = v at back scalar ⊢
  subst back
  by_cases one : v ≤ 0x7f
  · rw [if_pos one]
    refine ⟨_, _, rfl, ?_⟩
    have t0 := toNat_ofNat_of_lt (n := v) (by omega)
    rw [List.nil_append, decodeFront_one (by omega), t0]
  rw [if_neg one]
  by_cases two : v ≤ 0x7ff
  · rw [if_pos two]
    refine ⟨_, _, rfl, ?_⟩
    have t0 := toNat_ofNat_of_lt (n := v / 64 % 0x20 + 0xc0) (by omega)
    have t1 := toNat_ofNat_of_lt (n := v % 0x40 + 0x80) (by omega)
    rw [List.cons_append, List.nil_append, decodeFront_two (by omega) (by omega), t0, t1]
    congr 2
    omega
  rw [if_neg two]
  by_cases three : v ≤ 0xffff
  · rw [if_pos three]
    refine ⟨_, _, rfl, ?_⟩
    have t0 := toNat_ofNat_of_lt (n := v / 4096 % 0x10 + 0xe0) (by omega)
    have t1 := toNat_ofNat_of_lt (n := v / 64 % 0x40 + 0x80) (by omega)
    have t2 := toNat_ofNat_of_lt (n := v % 0x40 + 0x80) (by omega)
    have cont1 : (if v / 4096 % 0x10 + 0xe0 = 0xE0 then 0xA0 else 0x80) ≤ v / 64 % 0x40 + 0x80 ∧
        v / 64 % 0x40 + 0x80 ≤ (if v / 4096 % 0x10 + 0xe0 = 0xED then 0x9F else 0xBF) := by
      constructor <;> split <;> omega
    rw [List.cons_append, List.cons_append, List.nil_append,
      decodeFront_three (by omega) (by rw [t0, t1]; exact cont1) (by omega), t0, t1, t2]
    congr 2
    omega
  rw [if_neg three]
  refine ⟨_, _, rfl, ?_⟩
  have t0 := toNat_ofNat_of_lt (n := v / 262144 % 0x08 + 0xf0) (by omega)
  have t1 := toNat_ofNat_of_lt (n := v / 4096 % 0x40 + 0x80) (by omega)
  have t2 := toNat_ofNat_of_lt (n := v / 64 % 0x40 + 0x80) (by omega)
  have t3 := toNat_ofNat_of_lt (n := v % 0x40 + 0x80) (by omega)
  have cont1 : (if v / 262144 % 0x08 + 0xf0 = 0xF0 then 0x90 else 0x80) ≤ v / 4096 % 0x40 + 0x80 ∧
      v / 4096 % 0x40 + 0x80 ≤ (if v / 262144 % 0x08 + 0xf0 = 0xF4 then 0x8F else 0xBF) := by
    constructor <;> split <;> omega
  rw [List.cons_append, List.cons_append, List.cons_append, List.nil_append,
    decodeFront_four (by omega) (by rw [t0, t1]; exact cont1) (by omega) (by omega), t0, t1, t2, t3]
  congr 2
  omega

/-! ### Whole strings -/

/-- Decoding the encodings of characters one after another, with a step for each. -/
theorem decodeWith_flatMap (cs : List Char) (fuel : Nat) (enough : cs.length ≤ fuel) :
    decodeWith fuel (cs.flatMap String.utf8EncodeChar) = cs.map some := by
  induction cs generalizing fuel with
  | nil => cases fuel <;> rfl
  | cons c cs inductionHypothesis =>
      obtain ⟨b0, bs, encoded, decoded⟩ := decodeFront_utf8EncodeChar c (cs.flatMap String.utf8EncodeChar)
      obtain ⟨fuel, rfl⟩ : ∃ f, fuel = f + 1 := ⟨fuel - 1, by simp at enough; omega⟩
      rw [List.flatMap_cons, encoded, List.cons_append, decodeWith, decoded]
      dsimp only
      rw [inductionHypothesis fuel (by simp at enough; omega), List.map_cons]

theorem decodeParts_flatMap (cs : List Char) :
    decodeParts (cs.flatMap String.utf8EncodeChar) = cs.map some := by
  apply decodeWith_flatMap
  induction cs with
  | nil => simp
  | cons c cs inductionHypothesis =>
      have nonempty := String.length_utf8EncodeChar c ▸ Char.utf8Size_pos c
      simp only [List.flatMap_cons, List.length_append, List.length_cons]
      omega

private theorem mapM_id_map_some (cs : List Char) : (cs.map some).mapM id = some cs := by
  induction cs with
  | nil => rfl
  | cons c cs inductionHypothesis => simp [inductionHypothesis]

/-- The bytes of a byte array, read one by one, are its underlying list. -/
theorem ByteArray.toList_eq_data_toList (bytes : ByteArray) : bytes.toList = bytes.data.toList := by
  have loop : ∀ n i r, bytes.size - i = n →
      ByteArray.toList.loop bytes i r = r.reverse ++ bytes.data.toList.drop i := by
    intro n
    induction n with
    | zero =>
        intro i r exhausted
        rw [ByteArray.toList.loop, if_neg (by omega)]
        have gone : bytes.data.toList.drop i = [] := by
          simp only [List.drop_eq_nil_iff, Array.length_toList]
          exact Nat.sub_eq_zero_iff_le.mp exhausted
        rw [gone, List.append_nil]
    | succ n inductionHypothesis =>
        intro i r remaining
        have inside : i < bytes.size := by omega
        rw [ByteArray.toList.loop, if_pos inside, inductionHypothesis (i + 1) _ (by omega),
          List.reverse_cons, List.append_assoc]
        congr 1
        have inside' : i < bytes.data.toList.length := by simpa using inside
        rw [List.drop_eq_getElem_cons inside']
        simp [ByteArray.get!, inside]
  unfold ByteArray.toList
  simpa using loop _ 0 [] rfl

/-- The bytes of a string are the encodings of its characters. -/
theorem toList_toUTF8 (s : String) :
    s.toUTF8.toList = s.toList.flatMap String.utf8EncodeChar := by
  rw [ByteArray.toList_eq_data_toList, String.toUTF8_eq_toByteArray, ← String.utf8Encode_toList,
    List.utf8Encode, List.toList_data_toByteArray]

/-- The strict decoder reads the bytes of a string back as the string. -/
theorem decodeStrict?_toUTF8 (s : String) : decodeStrict? s.toUTF8.toList = some s := by
  rw [toList_toUTF8, decodeStrict?, decodeParts_flatMap, mapM_id_map_some, Option.map_some,
    String.ofList_toList]

/-- Only a line break encodes to the line-break byte. -/
theorem newline_not_mem_utf8EncodeChar {c : Char} (notBreak : c ≠ '\n') :
    (10 : UInt8) ∉ String.utf8EncodeChar c := by
  have back : Char.ofNat c.val.toNat = c := Char.ofNat_toNat c
  have scalar := Char.toNat_scalar c
  unfold String.utf8EncodeChar
  simp only [Char.toNat] at scalar
  generalize c.val.toNat = v at back scalar ⊢
  subst back
  have high : ∀ n, 0x80 ≤ n → n < 256 → UInt8.ofNat n ≠ 10 := by
    intro n low small same
    have := congrArg UInt8.toNat same
    rw [toNat_ofNat_of_lt small] at this
    simp at this
    omega
  dsimp only
  split_ifs with one two three
  · intro member
    rw [List.mem_singleton] at member
    have := congrArg UInt8.toNat member
    rw [toNat_ofNat_of_lt (by omega)] at this
    exact notBreak (by simp at this; subst this; rfl)
  all_goals
    simp only [List.mem_cons, List.not_mem_nil, or_false, not_or]
    refine ⟨?_, ?_⟩ <;> (try refine ⟨?_, ?_⟩) <;> (try refine ⟨?_, ?_⟩) <;>
      exact Ne.symm (high _ (by omega) (by omega))

/-- A string without a line break encodes without the line-break byte. -/
theorem newline_not_mem_toUTF8 {s : String} (notBreak : '\n' ∉ s.toList) :
    (10 : UInt8) ∉ s.toUTF8.toList := by
  rw [toList_toUTF8, List.mem_flatMap]
  rintro ⟨c, member, encoded⟩
  exact newline_not_mem_utf8EncodeChar (fun same => notBreak (same ▸ member)) encoded

/-! ### Line breaks in decoded text -/

/-- What is left of a byte sequence once its front is decoded. -/
def Decoded.rest : Decoded → List UInt8
  | .scalar _ rest => rest
  | .illFormed rest => rest

/-- The decoded front with `tail` put after what is left. -/
def Decoded.extend (tail : List UInt8) : Decoded → Decoded
  | .scalar c rest => .scalar c (rest ++ tail)
  | .illFormed rest => .illFormed (rest ++ tail)

/-- Decoding the front takes bytes only from the front. -/
theorem rest_decodeFront_suffix (b0 : UInt8) (rest : List UInt8) :
    (decodeFront b0 rest).rest <:+ rest := by
  unfold decodeFront
  split_ifs <;> rcases rest with _ | ⟨b1, _ | ⟨b2, _ | ⟨b3, r3⟩⟩⟩ <;>
    simp only [Decoded.rest] <;> (try split_ifs) <;> simp [List.suffix_cons_iff]

theorem ofNat_ne_newline {n : Nat} (large : 0x80 ≤ n) : Char.ofNat n ≠ '\n' := by
  intro same
  have code := congrArg Char.toNat same
  rw [Char.toNat_ofNat] at code
  split at code <;> simp at code
  omega

/-- A sequence of two to four bytes never decodes to a line break. -/
theorem decodeFront_ne_newline {b0 : UInt8} {rest r : List UInt8} {c : Char}
    (lead : 0x80 ≤ b0.toNat) (decoded : decodeFront b0 rest = .scalar c r) : c ≠ '\n' := by
  unfold decodeFront at decoded
  rw [if_neg (by simp [UInt8.lt_iff_toNat_lt]; omega)] at decoded
  split_ifs at decoded with two three four
  all_goals
    rcases rest with _ | ⟨b1, _ | ⟨b2, _ | ⟨b3, r3⟩⟩⟩ <;> simp only at decoded <;>
      (try split_ifs at decoded) <;> cases decoded
  all_goals
    apply ofNat_ne_newline
    simp_all [payload, isContinuation, UInt8.le_iff_toNat_le, ← UInt8.toNat_inj] <;> omega

/-- A line break is decoded only from the line-break byte on its own. -/
theorem decodeFront_eq_newline {b0 : UInt8} {rest r : List UInt8}
    (decoded : decodeFront b0 rest = .scalar '\n' r) : b0 = 10 ∧ r = rest := by
  by_cases ascii : b0.toNat < 0x80
  · rw [decodeFront_one ascii] at decoded
    injection decoded with same left
    refine ⟨?_, left.symm⟩
    have code := congrArg Char.toNat same
    rw [Char.toNat_ofNat, if_pos (by simp [Nat.isValidChar]; omega)] at code
    exact UInt8.toNat_inj.mp (by simpa using code)
  · exact absurd rfl (decodeFront_ne_newline (by omega) decoded)

/-- The line-break byte continues no sequence: decoding the front before it reads
the same, with the line break left over. -/
theorem decodeFront_append_newline (b0 : UInt8) (rest : List UInt8) :
    decodeFront b0 (rest ++ [10]) = (decodeFront b0 rest).extend [10] := by
  unfold decodeFront
  split_ifs <;> rcases rest with _ | ⟨b1, _ | ⟨b2, _ | ⟨b3, r3⟩⟩⟩ <;>
    simp [Decoded.extend, isContinuation] <;> split_ifs <;> simp

/-- A sequence of `n` bytes decodes in at most `n` steps, so more fuel decodes the same. -/
theorem decodeWith_succ {bytes : List UInt8} {fuel : Nat} (enough : bytes.length ≤ fuel) :
    decodeWith (fuel + 1) bytes = decodeWith fuel bytes := by
  induction fuel generalizing bytes with
  | zero =>
      rw [List.length_eq_zero_iff.mp (Nat.le_zero.mp enough)]
      rfl
  | succ fuel inductionHypothesis =>
      rcases bytes with _ | ⟨b, bs⟩
      · rfl
      · have shorter := (rest_decodeFront_suffix b bs).length_le
        have fits : bs.length ≤ fuel := by simp at enough; omega
        rw [decodeWith, decodeWith]
        cases decoded : decodeFront b bs with
        | scalar c rest =>
            rw [decoded, Decoded.rest] at shorter
            dsimp only
            rw [inductionHypothesis (by omega)]
        | illFormed rest =>
            rw [decoded, Decoded.rest] at shorter
            dsimp only
            rw [inductionHypothesis (by omega)]

theorem decodeWith_append_newline {body : List UInt8} {fuel : Nat} (enough : body.length ≤ fuel) :
    decodeWith (fuel + 1) (body ++ [10]) = decodeWith fuel body ++ [some '\n'] := by
  induction fuel generalizing body with
  | zero =>
      rw [List.length_eq_zero_iff.mp (Nat.le_zero.mp enough)]
      rfl
  | succ fuel inductionHypothesis =>
      rcases body with _ | ⟨b, bs⟩
      · rfl
      · have shorter := (rest_decodeFront_suffix b bs).length_le
        have fits : bs.length ≤ fuel := by simp at enough; omega
        rw [List.cons_append, decodeWith, decodeWith, decodeFront_append_newline]
        cases decoded : decodeFront b bs with
        | scalar c rest =>
            rw [decoded, Decoded.rest] at shorter
            dsimp only [Decoded.extend]
            rw [inductionHypothesis (by omega), List.cons_append]
        | illFormed rest =>
            rw [decoded, Decoded.rest] at shorter
            dsimp only [Decoded.extend]
            rw [inductionHypothesis (by omega), List.cons_append]

theorem decodeParts_append_newline (body : List UInt8) :
    decodeParts (body ++ [10]) = decodeParts body ++ [some '\n'] := by
  rw [decodeParts, decodeParts, List.length_append, List.length_singleton,
    decodeWith_append_newline (le_refl _)]

theorem newline_not_mem_decodeWith {bytes : List UInt8} (noBreak : (10 : UInt8) ∉ bytes)
    (fuel : Nat) : some '\n' ∉ decodeWith fuel bytes := by
  induction fuel generalizing bytes with
  | zero => simp [decodeWith]
  | succ fuel inductionHypothesis =>
      rcases bytes with _ | ⟨b, bs⟩
      · simp [decodeWith]
      · have within := (rest_decodeFront_suffix b bs).subset
        rw [decodeWith]
        cases decoded : decodeFront b bs with
        | scalar c rest =>
            rw [decoded, Decoded.rest] at within
            dsimp only
            rintro (⟨⟩ | ⟨_, later⟩)
            · exact noBreak (List.mem_cons.mpr (.inl (decodeFront_eq_newline decoded).1.symm))
            · exact inductionHypothesis (fun member => noBreak (List.mem_cons_of_mem _ (within member))) later
        | illFormed rest =>
            rw [decoded, Decoded.rest] at within
            dsimp only
            rintro (_ | ⟨_, later⟩)
            exact inductionHypothesis (fun member => noBreak (List.mem_cons_of_mem _ (within member))) later

theorem mapM_id_eq_some {parts : List (Option Char)} {cs : List Char}
    (decoded : parts.mapM id = some cs) : parts = cs.map some := by
  induction parts generalizing cs with
  | nil =>
      cases decoded
      rfl
  | cons part parts inductionHypothesis =>
      cases part with
      | none => simp at decoded
      | some c =>
          cases rest : parts.mapM id with
          | none => simp [rest] at decoded
          | some tail =>
              simp only [List.mapM_cons, rest, id] at decoded
              cases decoded
              rw [inductionHypothesis rest, List.map_cons]

/-- A line break after a well-formed sequence is decoded as a line break. -/
theorem decodeStrict?_append_newline (body : List UInt8) :
    decodeStrict? (body ++ [10]) = (decodeStrict? body).map (·.push '\n') := by
  rw [decodeStrict?, decodeStrict?, decodeParts_append_newline]
  cases decoded : (decodeParts body).mapM id with
  | none => simp [List.mapM_append, decoded]
  | some cs => simp [List.mapM_append, decoded, String.push_eq_append]

/-- Bytes without the line-break byte decode to a text without a line break. -/
theorem newline_not_mem_decodeStrict? {bytes : List UInt8} (noBreak : (10 : UInt8) ∉ bytes)
    {text : String} (decoded : decodeStrict? bytes = some text) : '\n' ∉ text.toList := by
  rw [decodeStrict?] at decoded
  obtain ⟨cs, parts, rfl⟩ := Option.map_eq_some_iff.mp decoded
  rw [String.toList_ofList]
  intro member
  refine newline_not_mem_decodeWith noBreak bytes.length ?_
  rw [← decodeParts, mapM_id_eq_some parts]
  exact List.mem_map_of_mem member

end TreeDump.Text
