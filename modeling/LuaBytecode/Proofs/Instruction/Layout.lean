/-
  The four layouts of an instruction word.

  1. **One numeral** — a word is the sum of its four fields, each at its place; so the fields determine the
     word, and a sum of fields has the fields that were put in.

  2. **The other layouts** — Bx is B and C as one number, and Ax is Bx and A as one number.  The builders
     follow suit: `ofABx` is `ofABC` on the two halves of its operand, and `ofAx` is `ofABx` on the two
     parts of its operand.  So only the layout with three operands is looked at by itself.

  3. **The signed operand** — stored with a bias.  An operand out of range comes back reduced, and the ones that
     come back as they are form the range from `-131071` to `131072`.

  4. **Masks and shifts** — fields that do not overlap can be joined by `|||` instead of `+`.  A signed
     operand goes through 32-bit arithmetic, where a negative sum is a large word; the eighteen bits that
     are kept do not see the difference.
-/
import LuaBytecode.Instruction.Word
import Mathlib.Algebra.Group.Nat.Defs

namespace LuaBytecode

/-! ## Codes -/

namespace Operation

/-- The table is in the order of the codes, without a gap. -/
theorem map_code_all : all.map code = List.range all.length := by decide

/-- A code that names an operation is the code of that operation. -/
theorem code_of_ofCode? {n : Nat} {op : Operation} (h : ofCode? n = some op) : op.code = n := by
  have hn : n < all.length := (List.getElem?_eq_some_iff.1 h).1
  have hcode : (all.map code)[n]? = some op.code := by
    rw [List.getElem?_map]
    show (ofCode? n).map code = some op.code
    rw [h, Option.map_some]
  rw [map_code_all, List.getElem?_range hn] at hcode
  exact (Option.some.inj hcode).symm

end Operation

namespace Instruction

variable {i j : Instruction} {op : Operation} {a b c : Nat}

/-- The code of an instruction with a known operation. -/
theorem code_of_operation? (h : i.operation? = some op) : i.code = op.code :=
  (Operation.code_of_ofCode? h).symm

/-- A code is that of one operation only. -/
theorem operation?_of_code (h : i.code = op.code) : i.operation? = some op := by
  rw [operation?, h]
  exact Operation.ofCode?_code op

/-! ## One numeral -/

/-- **A word is the sum of its fields**, each at its place. -/
theorem toNat_word (i : Instruction) :
    i.word.toNat = i.code + 0x40 * i.a + 0x4000 * i.c + 0x800000 * i.b := by
  unfold code Instruction.a Instruction.b Instruction.c
  omega

theorem a_lt (i : Instruction) : i.a < 0x100 := Nat.mod_lt _ (by decide)

theorem c_lt (i : Instruction) : i.c < 0x200 := Nat.mod_lt _ (by decide)

/-- B is what is left of 32 bits above 23, so it fits nine without a mask. -/
theorem b_lt (i : Instruction) : i.b < 0x200 := by
  have hword : i.word.toNat < 0x100000000 := i.word.toNat_lt
  unfold Instruction.b
  omega

/-- The four fields determine the instruction. -/
theorem eq_of_fields (hcode : i.code = j.code) (ha : i.a = j.a) (hb : i.b = j.b) (hc : i.c = j.c) :
    i = j := by
  have hword : i.word = j.word := by
    apply UInt32.toNat_inj.1
    rw [toNat_word, toNat_word, hcode, ha, hb, hc]
  cases i
  cases j
  exact congrArg mk hword

/-- Nothing is cut off when the fields of a builder are added up. -/
theorem toNat_word_ofABC (op : Operation) (a b c : Nat) :
    (ofABC op a b c).word.toNat
      = op.code + 0x40 * (a % 0x100) + 0x4000 * (c % 0x200) + 0x800000 * (b % 0x200) := by
  have hcode := op.code_lt
  apply UInt32.toNat_ofNat_of_lt'
  show _ < 0x100000000
  omega

section Fields

variable (op a b c)

/-- Operands do not reach into the code. -/
@[simp] theorem code_ofABC : (ofABC op a b c).code = op.code := by
  have hcode := op.code_lt
  unfold code
  rw [toNat_word_ofABC]
  omega

@[simp] theorem a_ofABC : (ofABC op a b c).a = a % 0x100 := by
  have hcode := op.code_lt
  unfold Instruction.a
  rw [toNat_word_ofABC]
  omega

@[simp] theorem b_ofABC : (ofABC op a b c).b = b % 0x200 := by
  have hcode := op.code_lt
  unfold Instruction.b
  rw [toNat_word_ofABC]
  omega

@[simp] theorem c_ofABC : (ofABC op a b c).c = c % 0x200 := by
  have hcode := op.code_lt
  unfold Instruction.c
  rw [toNat_word_ofABC]
  omega

end Fields

/-! ## The other layouts -/

/-- Bx is B and C. -/
theorem bx_eq (i : Instruction) : i.bx = i.b * 0x200 + i.c := by
  unfold Instruction.bx Instruction.b Instruction.c
  omega

/-- Ax is Bx and A. -/
theorem ax_eq (i : Instruction) : i.ax = i.bx * 0x100 + i.a := by
  unfold Instruction.ax Instruction.bx Instruction.a
  omega

/-- **Bx is B and C as one number**, B being its upper half. -/
theorem ofABx_eq_ofABC (op : Operation) (a bx : Nat) : ofABx op a bx = ofABC op a (bx / 0x200) bx := by
  unfold ofABx ofABC
  congr 2
  omega

/-- **Ax is Bx and A as one number**, Bx being its upper part. -/
theorem ofAx_eq_ofABx (op : Operation) (ax : Nat) : ofAx op ax = ofABx op ax (ax / 0x100) := by
  unfold ofAx ofABx
  congr 2
  omega

theorem operation?_ofABC (op : Operation) (a b c : Nat) : (ofABC op a b c).operation? = some op :=
  operation?_of_code (code_ofABC op a b c)

theorem operation?_ofABx (op : Operation) (a bx : Nat) : (ofABx op a bx).operation? = some op := by
  rw [ofABx_eq_ofABC]
  exact operation?_ofABC op a _ bx

theorem a_ofABx (op : Operation) (a bx : Nat) : (ofABx op a bx).a = a % 0x100 := by
  rw [ofABx_eq_ofABC, a_ofABC]

/-- The two halves come back as one number. -/
theorem bx_ofABx (op : Operation) (a bx : Nat) : (ofABx op a bx).bx = bx % 0x40000 := by
  rw [bx_eq, ofABx_eq_ofABC, b_ofABC, c_ofABC]
  omega

theorem operation?_ofAx (op : Operation) (ax : Nat) : (ofAx op ax).operation? = some op := by
  rw [ofAx_eq_ofABx]
  exact operation?_ofABx op ax _

/-- So do the three parts. -/
theorem ax_ofAx (op : Operation) (ax : Nat) : (ofAx op ax).ax = ax % 0x4000000 := by
  rw [ax_eq, ofAx_eq_ofABx, bx_ofABx, a_ofABx]
  omega

/-! ## The signed operand -/

/-- A signed operand comes back reduced to the range of its field. -/
theorem sbx_ofAsBx (op : Operation) (a : Nat) (sbx : Int) :
    (ofAsBx op a sbx).sbx = (sbx + 131071) % 0x40000 - 131071 := by
  unfold ofAsBx Instruction.sbx signedBias
  rw [bx_ofABx]
  omega

/-- The signed operands that fit. -/
theorem sbx_ofAsBx_eq_self_iff (op : Operation) (a : Nat) (sbx : Int) :
    (ofAsBx op a sbx).sbx = sbx ↔ -131071 ≤ sbx ∧ sbx ≤ 131072 := by
  rw [sbx_ofAsBx]
  omega

/-! ## Rebuilding -/

/-- An instruction is rebuilt from its fields, if its code is that of an operation. -/
theorem ofABC_fields (h : i.operation? = some op) : ofABC op i.a i.b i.c = i := by
  apply eq_of_fields
  · rw [code_ofABC, code_of_operation? h]
  · rw [a_ofABC, Nat.mod_eq_of_lt i.a_lt]
  · rw [b_ofABC, Nat.mod_eq_of_lt i.b_lt]
  · rw [c_ofABC, Nat.mod_eq_of_lt i.c_lt]

/-- By the rebuilding of B and C, as Bx holds both. -/
theorem ofABx_fields (h : i.operation? = some op) : ofABx op i.a i.bx = i := by
  have hc := i.c_lt
  have hhalves : ofABC op i.a (i.bx / 0x200) i.bx = ofABC op i.a i.b i.c := by
    rw [bx_eq]
    unfold ofABC
    congr 2
    omega
  rw [ofABx_eq_ofABC, hhalves, ofABC_fields h]

/-- The bias that is taken off is put back, and Bx is within its width. -/
theorem ofAsBx_fields (h : i.operation? = some op) : ofAsBx op i.a i.sbx = i := by
  have hbx : ((i.sbx + signedBias) % 0x40000).toNat = i.bx := by
    have hb := i.b_lt
    have hc := i.c_lt
    rw [Instruction.sbx, Int.sub_add_cancel, bx_eq]
    omega
  rw [ofAsBx, hbx, ofABx_fields h]

/-- By the rebuilding of A and Bx, as Ax holds both. -/
theorem ofAx_field (h : i.operation? = some op) : ofAx op i.ax = i := by
  have ha := i.a_lt
  have hparts : ofABx op i.ax (i.ax / 0x100) = ofABx op i.a i.bx := by
    rw [ax_eq]
    unfold ofABx
    congr 2
    omega
  rw [ofAx_eq_ofABx, hparts, ofABx_fields h]

/-! ## Masks and shifts -/

/-- Three operands, each cut to its width by a mask and moved to its place by a shift. -/
def maskedABC (code a b c : UInt32) : UInt32 :=
  code ||| (a &&& 0xFF) <<< 6 ||| (c &&& 0x1FF) <<< 14 ||| (b &&& 0x1FF) <<< 23

/-- Two operands, cut and moved. -/
def maskedABx (code a bx : UInt32) : UInt32 := code ||| (a &&& 0xFF) <<< 6 ||| (bx &&& 0x3FFFF) <<< 14

/-- One operand, cut and moved. -/
def maskedAx (code ax : UInt32) : UInt32 := code ||| (ax &&& 0x3FFFFFF) <<< 6

/-- The builders of an operation, as masks and shifts; a signed operand is biased in 32-bit arithmetic. -/
structure BuiltByBits (op : Operation) : Prop where
  abc : ∀ a b c : UInt32,
    (ofABC op a.toNat b.toNat c.toNat).word = maskedABC (UInt32.ofNat op.code) a b c
  abx : ∀ a bx : UInt32, (ofABx op a.toNat bx.toNat).word = maskedABx (UInt32.ofNat op.code) a bx
  asbx : ∀ (a : UInt32) (sbx : Int32),
    (ofAsBx op a.toNat sbx.toInt).word = maskedABx (UInt32.ofNat op.code) a (sbx + 131071).toUInt32
  ax : ∀ ax : UInt32, (ofAx op ax.toNat).word = maskedAx (UInt32.ofNat op.code) ax

/-- The fields of an instruction, as masks and shifts; the topmost field of a layout needs no mask. -/
structure ReadByBits (i : Instruction) : Prop where
  code : i.code = (i.word &&& 0x3F).toNat
  a : i.a = (i.word >>> 6 &&& 0xFF).toNat
  b : i.b = (i.word >>> 23 &&& 0x1FF).toNat
  c : i.c = (i.word >>> 14 &&& 0x1FF).toNat
  bx : i.bx = (i.word >>> 14).toNat
  sbx : i.sbx = ((i.word >>> 14).toInt32 - 131071).toInt
  ax : i.ax = (i.word >>> 6).toNat

section Bits

/-- A mask of `n` ones keeps the remainder. -/
theorem toNat_and_mask {x m : UInt32} {n size : Nat} (hsize : size = 2 ^ n) (hm : m.toNat = size - 1) :
    (x &&& m).toNat = x.toNat % size := by
  rw [UInt32.toNat_and, hm, hsize, Nat.and_two_pow_sub_one_eq_mod]

/-- A shift is a division by the place of the field. -/
theorem toNat_shiftRight {w k : UInt32} {place : Nat} (hk : k.toNat < 32) (hplace : place = 2 ^ k.toNat) :
    (w >>> k).toNat = w.toNat / place := by
  rw [UInt32.toNat_shiftRight, Nat.mod_eq_of_lt hk, Nat.shiftRight_eq_div_pow, hplace]

/-- **A field above the bits in use adds up with them**: what does not overlap is joined without carry. -/
theorem toNat_or_field {w x m k : UInt32} {n size place : Nat} (hsize : size = 2 ^ n)
    (hm : m.toNat = size - 1) (hplace : place = 2 ^ k.toNat) (hfit : n + k.toNat ≤ 32) (hk : k.toNat < 32)
    (hw : w.toNat < place) : (w ||| (x &&& m) <<< k).toNat = w.toNat + place * (x.toNat % size) := by
  have hroom : x.toNat % size * place < 2 ^ 32 :=
    calc x.toNat % size * place
      _ < size * place := Nat.mul_lt_mul_of_pos_right
            (Nat.mod_lt _ (hsize ▸ Nat.two_pow_pos n)) (hplace ▸ Nat.two_pow_pos _)
      _ = 2 ^ (n + k.toNat) := by rw [hsize, hplace, Nat.pow_add]
      _ ≤ 2 ^ 32 := Nat.pow_le_pow_right (by decide) hfit
  have hshift : ((x &&& m) <<< k).toNat = (x.toNat % size) <<< k.toNat := by
    rw [UInt32.toNat_shiftLeft, Nat.mod_eq_of_lt hk, toNat_and_mask hsize hm, Nat.shiftLeft_eq, ← hplace,
      Nat.mod_eq_of_lt hroom]
  -- the bits of the word are all below the place of the field
  rw [hplace] at hw
  rw [UInt32.toNat_or, hshift, Nat.or_comm, ← Nat.shiftLeft_add_eq_or_of_lt hw, Nat.shiftLeft_eq, ← hplace,
    Nat.add_comm, Nat.mul_comm]

/-- Codes are far below the width of a word. -/
theorem toNat_codeWord (op : Operation) : (UInt32.ofNat op.code).toNat = op.code := by
  have hcode := op.code_lt
  apply UInt32.toNat_ofNat_of_lt'
  show op.code < 0x100000000
  omega

/-- Code and A, with which two layouts begin. -/
theorem toNat_codeWord_or_a (op : Operation) (a : UInt32) :
    (UInt32.ofNat op.code ||| (a &&& 0xFF) <<< 6).toNat = op.code + 0x40 * (a.toNat % 0x100) := by
  have hcode := toNat_codeWord op
  have hlt := op.code_lt
  have ha : (UInt32.ofNat op.code ||| (a &&& 0xFF) <<< 6).toNat = _ + 0x40 * (a.toNat % 0x100) :=
    toNat_or_field (n := 8) (k := 6) rfl rfl rfl (by decide) (by decide) (by omega)
  rw [ha, hcode]

/-- Three fields, each joined to what is below it. -/
theorem word_ofABC (op : Operation) (a b c : UInt32) :
    (ofABC op a.toNat b.toNat c.toNat).word = maskedABC (UInt32.ofNat op.code) a b c := by
  have hcode := op.code_lt
  have ha := toNat_codeWord_or_a op a
  have hc : (UInt32.ofNat op.code ||| (a &&& 0xFF) <<< 6 ||| (c &&& 0x1FF) <<< 14).toNat
      = _ + 0x4000 * (c.toNat % 0x200) :=
    toNat_or_field (n := 9) (k := 14) rfl rfl rfl (by decide) (by decide) (by omega)
  have hb : (maskedABC (UInt32.ofNat op.code) a b c).toNat = _ + 0x800000 * (b.toNat % 0x200) :=
    toNat_or_field (n := 9) (k := 23) rfl rfl rfl (by decide) (by decide) (by omega)
  apply UInt32.toNat_inj.1
  rw [toNat_word_ofABC, hb, hc, ha]

/-- A field of eighteen bits takes the place of two of nine. -/
theorem word_ofABx (op : Operation) (a bx : UInt32) :
    (ofABx op a.toNat bx.toNat).word = maskedABx (UInt32.ofNat op.code) a bx := by
  have hcode := op.code_lt
  have ha := toNat_codeWord_or_a op a
  have hbx : (maskedABx (UInt32.ofNat op.code) a bx).toNat = _ + 0x4000 * (bx.toNat % 0x40000) :=
    toNat_or_field (n := 18) (k := 14) rfl rfl rfl (by decide) (by decide) (by omega)
  apply UInt32.toNat_inj.1
  rw [ofABx_eq_ofABC, toNat_word_ofABC, hbx, ha]
  omega

/-- A field of twenty-six bits takes the place of three. -/
theorem word_ofAx (op : Operation) (ax : UInt32) :
    (ofAx op ax.toNat).word = maskedAx (UInt32.ofNat op.code) ax := by
  have hcode := op.code_lt
  have hword := toNat_codeWord op
  have hax : (maskedAx (UInt32.ofNat op.code) ax).toNat = _ + 0x40 * (ax.toNat % 0x4000000) :=
    toNat_or_field (n := 26) (k := 6) rfl rfl rfl (by decide) (by decide) (by omega)
  apply UInt32.toNat_inj.1
  rw [ofAx_eq_ofABx, ofABx_eq_ofABC, toNat_word_ofABC, hax, hword]
  omega

/-- A signed word and its bits, read as a natural number, differ by a multiple of `2 ^ 32`. -/
theorem toNat_toUInt32 (n : Int32) : (n.toUInt32.toNat : Int) = n.toInt % 0x100000000 := by
  have hlt : n.toUInt32.toNat < 0x100000000 := n.toUInt32.toNat_lt
  have hbits : n.toInt = Int.bmod n.toUInt32.toNat 0x100000000 := by
    rw [← Int32.toInt_toBitVec, BitVec.toInt_eq_toNat_bmod, ← Int32.toBitVec_toUInt32, UInt32.toNat_toBitVec]
  have hsame : n.toInt % 0x100000000 = n.toUInt32.toNat % 0x100000000 := hbits ▸ Int.bmod_emod
  omega

/-- Biasing in 32-bit arithmetic keeps the eighteen bits that are stored. -/
theorem word_ofAsBx (op : Operation) (a : UInt32) (sbx : Int32) :
    (ofAsBx op a.toNat sbx.toInt).word = maskedABx (UInt32.ofNat op.code) a (sbx + 131071).toUInt32 := by
  have hbias : (sbx + 131071).toInt % 0x100000000 = (sbx.toInt + 131071) % 0x100000000 := by
    rw [Int32.toInt_add]
    exact Int.bmod_emod
  have hbits := toNat_toUInt32 (sbx + 131071)
  have hsame : ofAsBx op a.toNat sbx.toInt = ofABx op a.toNat (sbx + 131071).toUInt32.toNat := by
    have hreduced : ((sbx.toInt + signedBias) % 0x40000).toNat % 0x40000
        = (sbx + 131071).toUInt32.toNat % 0x40000 := by
      unfold signedBias
      omega
    rw [ofAsBx, ofABx, hreduced, ofABx]
  rw [hsame, word_ofABx]

/-- **The builders are masks and shifts.** -/
theorem builtByBits (op : Operation) : BuiltByBits op where
  abc := word_ofABC op
  abx := word_ofABx op
  asbx := word_ofAsBx op
  ax := word_ofAx op

/-- A field is shifted down to the lowest bits and cut off there. -/
theorem toNat_shiftRight_and_mask {w m k : UInt32} {n size place : Nat} (hsize : size = 2 ^ n)
    (hm : m.toNat = size - 1) (hk : k.toNat < 32) (hplace : place = 2 ^ k.toNat) :
    (w >>> k &&& m).toNat = w.toNat / place % size := by
  rw [toNat_and_mask hsize hm, toNat_shiftRight hk hplace]

/-- B is at the top of the word, so the mask cuts nothing off. -/
theorem b_eq_bits (i : Instruction) : i.b = (i.word >>> 23 &&& 0x1FF).toNat := by
  rw [toNat_shiftRight_and_mask (n := 9) rfl rfl (by decide) rfl]
  exact (Nat.mod_eq_of_lt i.b_lt).symm

theorem bx_eq_bits (i : Instruction) : i.bx = (i.word >>> 14).toNat :=
  (toNat_shiftRight (k := 14) (by decide) rfl).symm

/-- Bx is far below the sign bit, so neither the cast nor the subtraction leaves the range. -/
theorem sbx_eq_bits (i : Instruction) : i.sbx = ((i.word >>> 14).toInt32 - 131071).toInt := by
  have hcast := toNat_toUInt32 (i.word >>> 14).toInt32
  rw [UInt32.toUInt32_toInt32, ← i.bx_eq_bits] at hcast
  have hdiff : ((i.word >>> 14).toInt32 - 131071).toInt % 0x100000000
      = ((i.word >>> 14).toInt32.toInt - 131071) % 0x100000000 := by
    rw [Int32.toInt_sub]
    exact Int.bmod_emod
  have hlow := ((i.word >>> 14).toInt32 - 131071).le_toInt
  have hhigh := ((i.word >>> 14).toInt32 - 131071).toInt_lt
  have hb := i.b_lt
  have hc := i.c_lt
  have hhalves := i.bx_eq
  unfold Instruction.sbx signedBias
  omega

/-- **So are the readers.** -/
theorem readByBits (i : Instruction) : ReadByBits i where
  code := (toNat_and_mask (n := 6) rfl rfl).symm
  a := by
    rw [toNat_shiftRight_and_mask (n := 8) rfl rfl (by decide) rfl]
    rfl
  b := i.b_eq_bits
  c := by
    rw [toNat_shiftRight_and_mask (n := 9) rfl rfl (by decide) rfl]
    rfl
  bx := i.bx_eq_bits
  sbx := i.sbx_eq_bits
  ax := (toNat_shiftRight (k := 6) (by decide) rfl).symm

end Bits

/-! ## All layouts -/

/-- **The layouts are faithful.**  In each of them the builder keeps the operation and every operand up to the width
    of its field; a signed operand comes back as it is exactly if it is between `-131071` and `131072`.  An
    instruction with a known operation is rebuilt from its fields in any layout, Bx being B and C as one number,
    and Ax being Bx and A.  Masks and shifts on words build and read the same. -/
theorem layouts_faithful (op : Operation) :
    (∀ a b c, (ofABC op a b c).operation? = some op
      ∧ ((ofABC op a b c).a, (ofABC op a b c).b, (ofABC op a b c).c) = (a % 0x100, b % 0x200, c % 0x200))
    ∧ (∀ a bx, (ofABx op a bx).operation? = some op
      ∧ ((ofABx op a bx).a, (ofABx op a bx).bx) = (a % 0x100, bx % 0x40000))
    ∧ (∀ a sbx, (ofAsBx op a sbx).operation? = some op
      ∧ ((ofAsBx op a sbx).a, (ofAsBx op a sbx).sbx) = (a % 0x100, (sbx + 131071) % 0x40000 - 131071)
      ∧ ((ofAsBx op a sbx).sbx = sbx ↔ -131071 ≤ sbx ∧ sbx ≤ 131072))
    ∧ (∀ ax, (ofAx op ax).operation? = some op ∧ (ofAx op ax).ax = ax % 0x4000000)
    ∧ (∀ i : Instruction, i.operation? = some op →
      ofABC op i.a i.b i.c = i ∧ ofABx op i.a i.bx = i ∧ ofAsBx op i.a i.sbx = i ∧ ofAx op i.ax = i
      ∧ i.bx = i.b * 0x200 + i.c ∧ i.ax = i.bx * 0x100 + i.a)
    ∧ BuiltByBits op ∧ ∀ i, ReadByBits i := by
  refine ⟨?_, ?_, ?_, ?_, ?_, builtByBits op, readByBits⟩
  · intro a b c
    exact ⟨operation?_ofABC op a b c, by rw [a_ofABC, b_ofABC, c_ofABC]⟩
  · intro a bx
    exact ⟨operation?_ofABx op a bx, by rw [a_ofABx, bx_ofABx]⟩
  · intro a sbx
    have ha : (ofAsBx op a sbx).a = a % 0x100 := a_ofABx op a _
    exact ⟨operation?_ofABx op a _, by rw [ha, sbx_ofAsBx], sbx_ofAsBx_eq_self_iff op a sbx⟩
  · intro ax
    exact ⟨operation?_ofAx op ax, ax_ofAx op ax⟩
  · intro i h
    exact ⟨ofABC_fields h, ofABx_fields h, ofAsBx_fields h, ofAx_field h, i.bx_eq, i.ax_eq⟩

/-- A signed operand one below the range comes back as the greatest one, and the word with all operand bits set
    is rebuilt in all layouts. -/
theorem layouts_faithful_samples :
    (ofAsBx .jmp 0x1FF (-131072)).sbx = 131072
    ∧ operation? ⟨0xFFFFFFEE⟩ = some .extraArg
    ∧ ofABC .extraArg 0xFF 0x1FF 0x1FF = ⟨0xFFFFFFEE⟩ ∧ ofABx .extraArg 0xFF 0x3FFFF = ⟨0xFFFFFFEE⟩
    ∧ ofAsBx .extraArg 0xFF 131072 = ⟨0xFFFFFFEE⟩ ∧ ofAx .extraArg 0x3FFFFFF = ⟨0xFFFFFFEE⟩ := by
  have hknown : operation? ⟨0xFFFFFFEE⟩ = some .extraArg := by decide
  obtain ⟨-, -, hsigned, -⟩ := layouts_faithful .jmp
  obtain ⟨-, -, -, -, hrebuilt, -⟩ := layouts_faithful .extraArg
  obtain ⟨habc, habx, hasbx, hax, -⟩ := hrebuilt ⟨0xFFFFFFEE⟩ hknown
  exact ⟨congrArg Prod.snd (hsigned 0x1FF (-131072)).2.1, hknown, habc, habx, hasbx, hax⟩

end Instruction

end LuaBytecode
