import Mathlib
import TreeDump.Proofs.Md5Standard
import TreeDump.Proofs.Incremental

/-!
The fingerprint computes MD5 as its standard states it.

The compression function loops over 64 rounds, moving its four words one place at
every round; the standard writes the same operations out, naming at each one which
buffer word plays `a`, `b`, `c` and `d`. After round `i` the code's words are the
buffer's words in the places the standard's operation `i + 1` gives them
(`rolesAt`, `Buffer.view`): one step lemma (`step_view`) carries this through an
operation, the tables agree entry by entry (`Agrees`, checked by `decide`), and one
run lemma per round of sixteen (`foldl_round_view`) gives `compress_toBuffer`.
Absorbing a padded message compresses its blocks in order (`absorb_toBuffer`), and
`finish` feeds exactly the standard's padding and length (`finish_eq_absorb`).

Main statement: `digest_eq_md5`.
-/

namespace TreeDump

namespace Md5Standard

/-- The roles of the operation after this one: every word moves one place. -/
def Roles.next : Roles → Roles
  | .ABCD => .DABC
  | .DABC => .CDAB
  | .CDAB => .BCDA
  | .BCDA => .ABCD

/-- The roles of operation `i` (counting from zero) in every round. -/
def rolesAt (i : Nat) : Roles :=
  match i % 4 with
  | 0 => .ABCD
  | 1 => .DABC
  | 2 => .CDAB
  | _ => .BCDA

/-- The buffer's words in the places `a b c d` that `r` gives them. -/
def Buffer.view (buf : Buffer) (r : Roles) : Buffer :=
  ⟨buf.get r.a, buf.get r.b, buf.get r.c, buf.get r.d⟩

theorem rolesAt_succ (i : Nat) : (rolesAt i).next = rolesAt (i + 1) := by
  obtain h | h | h | h : i % 4 = 0 ∨ i % 4 = 1 ∨ i % 4 = 2 ∨ i % 4 = 3 := by omega
  · simp [rolesAt, h, show (i + 1) % 4 = 1 by omega, Roles.next]
  · simp [rolesAt, h, show (i + 1) % 4 = 2 by omega, Roles.next]
  · simp [rolesAt, h, show (i + 1) % 4 = 3 by omega, Roles.next]
  · simp [rolesAt, h, show (i + 1) % 4 = 0 by omega, Roles.next]

theorem Buffer.view_abcd (buf : Buffer) : buf.view .ABCD = buf := rfl

/-- Setting the word that plays `a` and moving every role one place is the code's
rotation of its words. -/
theorem Buffer.view_set_next (buf : Buffer) (r : Roles) (v : Word) :
    (buf.set r.a v).view r.next = ⟨(buf.view r).D, v, (buf.view r).B, (buf.view r).C⟩ := by
  cases r <;> rfl

end Md5Standard

namespace Md5

open Md5Standard (Word Buffer Roles Op rolesAt rolesAt_succ)

/-! ### Words and bytes -/

theorem or_shiftLeft_eq_add {low i : Nat} (small : low < 2 ^ i) (high : Nat) :
    low ||| high <<< i = low + high * 2 ^ i := by
  rw [Nat.lor_comm, ← Nat.shiftLeft_add_eq_or_of_lt small, Nat.shiftLeft_eq, Nat.add_comm]

theorem toNat_wordOfBytes (b0 b1 b2 b3 : UInt8) :
    (wordOfBytes b0 b1 b2 b3).toNat =
      b0.toNat + 256 * b1.toNat + 65536 * b2.toNat + 16777216 * b3.toNat := by
  have l0 : b0.toNat < 2 ^ 8 := b0.toNat_lt
  have l1 : b1.toNat < 2 ^ 8 := b1.toNat_lt
  have l2 : b2.toNat < 2 ^ 8 := b2.toNat_lt
  have l3 : b3.toNat < 2 ^ 8 := b3.toNat_lt
  -- A shifted byte stays inside the word, so no shift loses a bit.
  have fits : ∀ {b : Nat} (i : Nat), b < 2 ^ 8 → i ≤ 24 → b <<< i % 4294967296 = b <<< i := by
    intro b i small le
    apply Nat.mod_eq_of_lt
    rw [Nat.shiftLeft_eq]
    calc b * 2 ^ i < 2 ^ 8 * 2 ^ i := Nat.mul_lt_mul_of_pos_right small (Nat.two_pow_pos i)
      _ = 2 ^ (8 + i) := (Nat.pow_add 2 8 i).symm
      _ ≤ 2 ^ 32 := Nat.pow_le_pow_right (by decide) (by omega)
  simp only [wordOfBytes, UInt32.toNat_or, UInt32.toNat_shiftLeft, UInt8.toNat_toUInt32]
  simp only [UInt32.reduceToNat, Nat.reduceMod, Nat.reducePow]
  rw [fits 8 l1 (by decide), fits 16 l2 (by decide), fits 24 l3 (by decide),
    or_shiftLeft_eq_add l0,
    or_shiftLeft_eq_add (show b0.toNat + b1.toNat * 2 ^ 8 < 2 ^ 16 by omega),
    or_shiftLeft_eq_add (show b0.toNat + b1.toNat * 2 ^ 8 + b2.toNat * 2 ^ 16 < 2 ^ 24 by omega)]
  omega

/-- The code reads a word from four bytes as the standard does, low-order first. -/
theorem toBitVec_wordOfBytes (b0 b1 b2 b3 : UInt8) :
    (wordOfBytes b0 b1 b2 b3).toBitVec = Md5Standard.wordOf b0 b1 b2 b3 := by
  apply BitVec.eq_of_toNat_eq
  rw [UInt32.toNat_toBitVec, toNat_wordOfBytes, Md5Standard.wordOf, BitVec.toNat_ofNat]
  have l0 := b0.toNat_lt
  have l1 := b1.toNat_lt
  have l2 := b2.toNat_lt
  have l3 := b3.toNat_lt
  simp only [Nat.reducePow] at l0 l1 l2 l3 ⊢
  omega

/-- The code writes a word as the standard does, low-order byte first. -/
theorem le32_eq_wordBytes (x : UInt32) : le32 x = Md5Standard.wordBytes x.toBitVec := by
  simp only [le32, Md5Standard.wordBytes, UInt32.toNat_toBitVec, List.cons.injEq, and_true]
  refine ⟨?_, ?_, ?_, ?_⟩ <;> apply UInt8.toNat_inj.mp <;>
    simp [UInt32.toNat_shiftRight, Nat.shiftRight_eq_div_pow]

/-- The code's rotation is the standard's for every shift the rounds use. -/
theorem toBitVec_rotateLeft (x s : UInt32) (pos : 0 < s.toNat) (lt : s.toNat < 32) :
    (rotateLeft x s).toBitVec = x.toBitVec.rotateLeft s.toNat := by
  have left : (s.toBitVec % 32).toNat = s.toNat := by
    simp [BitVec.toNat_umod]
    omega
  have right : ((32 - s).toBitVec % 32).toNat = 32 - s.toNat := by
    simp [BitVec.toNat_umod]
    omega
  rw [rotateLeft, BitVec.rotateLeft_def, UInt32.toBitVec_or, UInt32.toBitVec_shiftLeft,
    UInt32.toBitVec_shiftRight, BitVec.shiftLeft_eq', BitVec.ushiftRight_eq', left, right,
    Nat.mod_eq_of_lt lt]


/-! ### One round against one operation -/

/-- The code's state words as the standard's buffer. -/
def Words.toBuffer (w : Words) : Buffer :=
  ⟨w.a.toBitVec, w.b.toBitVec, w.c.toBitVec, w.d.toBitVec⟩

/-- One round of the code is one operation of the standard. With the code's words in
the places the operation gives the buffer's words, the code's new second word is
the word the operation writes, and the code's rotation of its words is the move to
the places of the next operation. -/
theorem step_view {aux : Word → Word → Word → Word} {X : List Word} {buf : Buffer} {op : Op}
    {w : Words} (viewed : w.toBuffer = buf.view op.roles) {f K M s : UInt32}
    (fEq : f.toBitVec = aux w.b.toBitVec w.c.toBitVec w.d.toBitVec)
    (kEq : K.toBitVec = Md5Standard.T.getD (op.i - 1) 0) (mEq : M.toBitVec = X.getD op.k 0)
    (sEq : s.toNat = op.s) (sPos : 0 < op.s) (sLt : op.s < 32) :
    (Words.mk w.d (w.b + rotateLeft (w.a + f + K + M) s) w.b w.c).toBuffer =
      (op.run aux X buf).view op.roles.next := by
  simp only [Words.toBuffer, Buffer.view, Buffer.mk.injEq] at viewed
  obtain ⟨a, b, c, d⟩ := viewed
  simp only [Op.run, Buffer.view_set_next]
  simp only [Words.toBuffer, Buffer.view, Buffer.mk.injEq]
  refine ⟨d, ?_, b, c⟩
  rw [UInt32.toBitVec_add, toBitVec_rotateLeft _ _ (sEq ▸ sPos) (sEq ▸ sLt), sEq,
    UInt32.toBitVec_add, UInt32.toBitVec_add, UInt32.toBitVec_add, fEq, kEq, mEq, a, b, c, d]
  -- The code adds the constant before the message word, the standard after it.
  ac_rfl

/-- What makes round `i` of the code and the operation `op` of the standard the
same step, besides the auxiliary function: the same places, message word, shift
and constant. -/
def Agrees (index : Nat → Nat) (i : Nat) (op : Op) : Prop :=
  op.roles = rolesAt i ∧ op.k = index i ∧ index i < 16 ∧ op.s = (shiftOf i).toNat ∧ 0 < op.s ∧
    op.s < 32 ∧ Md5Standard.T.getD (op.i - 1) 0 = (constants.getD i 0).toBitVec

instance (index : Nat → Nat) (i : Nat) (op : Op) : Decidable (Agrees index i op) :=
  inferInstanceAs (Decidable (op.roles = rolesAt i ∧ op.k = index i ∧ index i < 16 ∧
    op.s = (shiftOf i).toNat ∧ 0 < op.s ∧ op.s < 32 ∧
    Md5Standard.T.getD (op.i - 1) 0 = (constants.getD i 0).toBitVec))

/-- A run of the code's rounds from `start` against a run of the standard's
operations with one auxiliary function, where every round reads its words the same
way (`codeF`, `index`) and agrees with its operation: the view is kept from each
operation to the next (induction on the operations, by `step_view`). -/
theorem foldl_round_view (m : Array UInt32) (X : List Word) (aux : Word → Word → Word → Word)
    (codeF : UInt32 → UInt32 → UInt32 → UInt32) (index : Nat → Nat)
    (messages : ∀ k < 16, (m.getD k 0).toBitVec = X.getD k 0)
    (funEq : ∀ b c d, (codeF b c d).toBitVec = aux b.toBitVec c.toBitVec d.toBitVec)
    (ops : List Op) (start : Nat) (w : Words) (buf : Buffer)
    (rounds : ∀ j < ops.length, ∀ w : Words, round m w (start + j) =
      ⟨w.d, w.b + rotateLeft (w.a + codeF w.b w.c w.d + constants.getD (start + j) 0 +
        m.getD (index (start + j)) 0) (shiftOf (start + j)), w.b, w.c⟩)
    (agree : ∀ j (h : j < ops.length), Agrees index (start + j) ops[j])
    (viewed : w.toBuffer = buf.view (rolesAt start)) :
    ((List.range' start ops.length).foldl (round m) w).toBuffer =
      (ops.foldl (Op.run aux X) buf).view (rolesAt (start + ops.length)) := by
  induction ops generalizing start w buf with
  | nil => simpa using viewed
  | cons op ops ih =>
    obtain ⟨roles, k, kLt, s, sPos, sLt, t⟩ := agree 0 (by simp)
    simp only [Nat.add_zero, List.getElem_cons_zero] at roles k kLt s t
    have first : (round m w start).toBuffer = (op.run aux X buf).view (rolesAt (start + 1)) := by
      have stepped := rounds 0 (by simp) w
      rw [Nat.add_zero] at stepped
      rw [stepped, ← rolesAt_succ, ← roles]
      exact step_view (roles ▸ viewed) (funEq _ _ _) t.symm (by rw [k]; exact messages _ kLt) s.symm
        sPos sLt
    have rest := ih (start + 1) (round m w start) (op.run aux X buf)
      (fun j lt w => by
        have stepped := rounds (j + 1) (by simp; omega) w
        rwa [show start + (j + 1) = start + 1 + j by omega] at stepped)
      (fun j lt => by
        have agreed := agree (j + 1) (by simp; omega)
        rwa [show start + (j + 1) = start + 1 + j by omega, List.getElem_cons_succ] at agreed)
      first
    rw [List.length_cons, List.range'_succ, List.foldl_cons, List.foldl_cons, rest,
      show start + 1 + ops.length = start + (ops.length + 1) by omega]

/-! ### A block -/

/-- The code reads the sixteen words of a block as the standard does. -/
theorem blockWords_getD (block : List UInt8) :
    ∀ k < 16, ((blockWords block).getD k 0).toBitVec = (Md5Standard.blockWords block).getD k 0 := by
  intro k lt
  simp [blockWords, Md5Standard.blockWords, Array.getD, lt, toBitVec_wordOfBytes]

/-- The code's compression of a block is the standard's processing of its words:
each of the four runs of sixteen rounds is one round of the standard. -/
theorem compress_toBuffer (w : Words) (block : List UInt8) :
    (compress w block).toBuffer =
      Md5Standard.processBlock w.toBuffer (Md5Standard.blockWords block) := by
  have q1 := foldl_round_view (blockWords block) (Md5Standard.blockWords block) Md5Standard.F (fun b c d => (b &&& c) ||| (~~~b &&& d))
    (fun i => i) (blockWords_getD block) (fun b c d => by simp [Md5Standard.F])
    Md5Standard.round1 0 w w.toBuffer
    (fun j lt w => by simp only [round]; rw [if_pos (by change j < 16 at lt; omega)])
    (by decide) rfl
  have q2 := foldl_round_view (blockWords block) (Md5Standard.blockWords block) Md5Standard.G (fun b c d => (d &&& b) ||| (~~~d &&& c))
    (fun i => (5 * i + 1) % 16) (blockWords_getD block)
    (fun b c d => by simp [Md5Standard.G, BitVec.and_comm])
    Md5Standard.round2 16 _ _
    (fun j lt w => by
      simp only [round]
      rw [if_neg (by change j < 16 at lt; omega), if_pos (by change j < 16 at lt; omega)])
    (by decide) q1
  have q3 := foldl_round_view (blockWords block) (Md5Standard.blockWords block) Md5Standard.H (fun b c d => b ^^^ c ^^^ d)
    (fun i => (3 * i + 5) % 16) (blockWords_getD block) (fun b c d => by simp [Md5Standard.H])
    Md5Standard.round3 32 _ _
    (fun j lt w => by
      simp only [round]
      rw [if_neg (by change j < 16 at lt; omega), if_neg (by change j < 16 at lt; omega), if_pos (by change j < 16 at lt; omega)])
    (by decide) q2
  have q4 := foldl_round_view (blockWords block) (Md5Standard.blockWords block) Md5Standard.I (fun b c d => c ^^^ (b ||| ~~~d))
    (fun i => 7 * i % 16) (blockWords_getD block) (fun b c d => by simp [Md5Standard.I])
    Md5Standard.round4 48 _ _
    (fun j lt w => by
      simp only [round]
      rw [if_neg (by change j < 16 at lt; omega), if_neg (by change j < 16 at lt; omega), if_neg (by change j < 16 at lt; omega)])
    (by decide) q3
  have whole : List.range 64 = List.range' 0 16 ++ List.range' 16 16 ++ List.range' 32 16 ++
      List.range' 48 16 := by decide
  have last : ((List.range 64).foldl (round (blockWords block)) w).toBuffer =
      Md5Standard.rounds.foldl
        (fun buf round => round.2.foldl (Op.run round.1 (Md5Standard.blockWords block)) buf)
        w.toBuffer := by
    have sixteen : Md5Standard.round1.length = 16 ∧ Md5Standard.round2.length = 16 ∧
        Md5Standard.round3.length = 16 ∧ Md5Standard.round4.length = 16 := ⟨rfl, rfl, rfl, rfl⟩
    simp only [sixteen.1, sixteen.2.1, sixteen.2.2.1, sixteen.2.2.2, Nat.reduceAdd,
      show rolesAt 64 = .ABCD from rfl, Md5Standard.Buffer.view_abcd] at q4
    rw [whole, List.foldl_append, List.foldl_append, List.foldl_append, q4]
    simp only [Md5Standard.rounds, List.foldl_cons, List.foldl_nil]
  -- Each word adds its value from before the block, on the other side in the standard.
  simp only [Words.toBuffer] at last
  unfold compress Md5Standard.processBlock
  simp only [Words.toBuffer, UInt32.toBitVec_add, Buffer.mk.injEq, ← last]
  exact ⟨BitVec.add_comm _ _, BitVec.add_comm _ _, BitVec.add_comm _ _, BitVec.add_comm _ _⟩

/-! ### A padded message -/

theorem blocks_of_le {bytes : List UInt8} (full : 64 ≤ bytes.length) :
    Md5Standard.blocks bytes = bytes.take 64 :: Md5Standard.blocks (bytes.drop 64) := by
  have count : bytes.length / 64 = (bytes.drop 64).length / 64 + 1 := by
    simp only [List.length_drop]
    omega
  rw [Md5Standard.blocks, count, List.range_succ_eq_map, List.map_cons, List.map_map,
    Md5Standard.blocks]
  simp only [Nat.mul_zero, List.drop_zero, List.cons.injEq, true_and]
  apply List.map_congr_left
  intro i member
  simp only [Function.comp_apply, List.drop_drop]
  rw [show 64 * (i + 1) = 64 + 64 * i by omega]

/-- Absorbing a message of whole blocks processes its blocks in order. -/
theorem absorb_toBuffer (w : Words) (bytes : List UInt8) (aligned : bytes.length % 64 = 0) :
    (absorb w bytes).1.toBuffer = (Md5Standard.blocks bytes).foldl
      (fun buf block => Md5Standard.processBlock buf (Md5Standard.blockWords block)) w.toBuffer := by
  induction w, bytes using absorb.induct with
  | case1 w bytes full ih =>
    rw [absorb_of_le full, blocks_of_le full, List.foldl_cons, ← compress_toBuffer]
    exact ih (by simp only [List.length_drop]; omega)
  | case2 w bytes short =>
    have empty : bytes = [] := List.eq_nil_of_length_eq_zero (by omega)
    subst empty
    rw [absorb_of_lt (by decide)]
    rfl

/-- What `absorb` leaves over is the tail after the last whole block. -/
theorem length_absorb_snd (w : Words) (bytes : List UInt8) :
    (absorb w bytes).2.length = bytes.length % 64 := by
  induction w, bytes using absorb.induct with
  | case1 w bytes full ih =>
    rw [absorb_of_le full, ih, List.length_drop]
    omega
  | case2 w bytes short =>
    rw [absorb_of_lt (by omega)]
    exact (Nat.mod_eq_of_lt (Nat.lt_of_not_le short)).symm

theorem Stream.feed_nil (s : Stream) : s.feed [] = s := by
  obtain ⟨absorbed, counted⟩ := Stream.feed_absorb s []
  rw [List.append_nil, absorb_of_lt s.pending_lt] at absorbed
  apply Stream.ext
  · exact congrArg Prod.fst absorbed
  · exact congrArg Prod.snd absorbed
  · rw [counted, List.length_nil]
    exact UInt64.add_zero s.length

/-- The padding loop feeds as many zero bytes as bring the buffer to 56. -/
theorem Stream.padZeros_eq (s : Stream) :
    s.padZeros = s.feed (List.replicate ((120 - s.pending.length) % 64) 0) := by
  induction s using Stream.padZeros.induct with
  | case1 s reached =>
    rw [Stream.padZeros, if_pos reached, reached, show (120 - 56) % 64 = 0 from rfl,
      List.replicate_zero, Stream.feed_nil]
  | case2 s away ih =>
    have below := s.pending_lt
    have moved := Stream.length_pending_feed_zero s
    rw [Stream.padZeros, if_neg away, ih, Stream.feed_feed, moved, List.singleton_append,
      ← List.replicate_succ]
    congr 2
    omega

/-- Finishing feeds one `0x80` byte, zero bytes up to 56 modulo 64 and the length in
bits, little-endian, and writes the words absorbed. -/
theorem Stream.finish_eq_absorb (s : Stream) :
    s.finish =
      let w := (absorb s.words (s.pending ++ (0x80 :: List.replicate ((119 - s.pending.length) % 64) 0 ++
        le64 (s.length * 8).toNat))).1
      ⟨le32 w.a ++ le32 w.b ++ le32 w.c ++ le32 w.d⟩ := by
  have below := s.pending_lt
  obtain ⟨marked, -⟩ := Stream.feed_absorb s [0x80]
  have buffered : (s.feed [0x80]).pending.length = (s.pending.length + 1) % 64 := by
    rw [show (s.feed [0x80]).pending = _ from congrArg Prod.snd marked, length_absorb_snd,
      List.length_append, List.length_singleton]
  have zeros : (120 - (s.feed [0x80]).pending.length) % 64 = (119 - s.pending.length) % 64 := by
    rw [buffered]
    omega
  rw [Stream.finish, Stream.padZeros_eq, zeros, Stream.feed_feed, Stream.feed_feed,
    List.singleton_append]
  obtain ⟨padded, -⟩ := Stream.feed_absorb s
    (0x80 :: (List.replicate ((119 - s.pending.length) % 64) 0 ++ le64 (s.length * 8).toNat))
  rw [show (s.feed _).words = _ from congrArg Prod.fst padded, ← List.cons_append]

/-- The length the code appends is the standard's: the low 64 bits of the length in
bits, low-order byte first. -/
theorem le64_eq_lengthBytes (n : Nat) :
    le64 ((n.toUInt64 * 8).toNat) = Md5Standard.lengthBytes n := by
  have bits : (n.toUInt64 * 8).toNat = 8 * n % 18446744073709551616 := by
    simp [UInt64.toNat_mul]
    omega
  rw [bits]
  simp [le64, Md5Standard.lengthBytes, Md5Standard.wordBytes, List.range_succ]
  refine ⟨?_, ?_, ?_, ?_, ?_, ?_, ?_, ?_⟩ <;> apply UInt8.toNat_inj.mp <;>
    simp only [UInt8.toNat_ofNat', Nat.reducePow] <;> omega

theorem initial_toBuffer : Words.initial.toBuffer = Md5Standard.initial := by decide

/-- The fingerprint is MD5: the digest of every message is the one the standard
defines, whatever its length (blocks that the padding fills, and those it spills
over), and the compression of every block from every state is the standard's four
rounds of sixteen operations. -/
theorem digest_eq_md5 :
    (∀ message : List UInt8, (digest message).bytes = Md5Standard.md5 message) ∧
      ∀ (w : Words) (block : List UInt8),
        (compress w block).toBuffer =
          Md5Standard.processBlock w.toBuffer (Md5Standard.blockWords block) := by
  refine ⟨fun message => ?_, compress_toBuffer⟩
  obtain ⟨fed, counted⟩ := Stream.feed_absorb Stream.empty message
  have words : (Stream.empty.feed message).words = (absorb Words.initial message).1 :=
    congrArg Prod.fst fed
  have pending : (Stream.empty.feed message).pending = (absorb Words.initial message).2 :=
    congrArg Prod.snd fed
  have length : (Stream.empty.feed message).length = message.length.toUInt64 := by
    rw [counted]
    exact UInt64.zero_add _
  -- What `finish` feeds after the message is the standard's padding and length.
  have tail : 0x80 :: List.replicate ((119 - (Stream.empty.feed message).pending.length) % 64) 0 ++
      le64 ((Stream.empty.feed message).length * 8).toNat =
        Md5Standard.padding message.length ++ Md5Standard.lengthBytes message.length := by
    rw [pending, length_absorb_snd, length, le64_eq_lengthBytes]
    rfl
  have aligned : (message ++ (Md5Standard.padding message.length ++
      Md5Standard.lengthBytes message.length)).length % 64 = 0 := by
    have filled := (Md5Standard.length_padding message.length).2.2
    simp only [List.length_append] at filled ⊢
    omega
  have run := absorb_toBuffer Words.initial _ aligned
  rw [initial_toBuffer] at run
  rw [digest, Stream.finish_eq_absorb, tail, words, pending, absorb_append]
  simp only [Md5Standard.md5, ← run, Words.toBuffer, le32_eq_wordBytes, List.append_assoc]

end Md5

end TreeDump
