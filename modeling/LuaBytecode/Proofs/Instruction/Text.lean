/-
  The text of an instruction says which instruction it is, up to the fields that its operation does not read.

  1. **Operands** — a listing shows a register as its number and a constant as `-1` less its index.  Registers
     are not negative and constants are, so what is shown tells both apart and each among its own kind.

  2. **Operand lists** — two instructions with one operation show the same operands exactly if they agree on
     every field that the operation reads.  This rests on the table: an operation with one wide operand reads it
     as a number, as a constant or not at all, and these are the cases in which it is shown.

  3. **Texts** — the mnemonic ends at the first blank or tab, the tab begins the operands, and blanks
     part them; none of these characters stands inside what they part.  So mnemonic and operands can be cut out of
     the text again.  The text for an unknown code has no tab.
-/
import LuaBytecode.Proofs.Instruction.Layout
import LuaBytecode.Proofs.Number.Reading
import Mathlib.Data.List.Nodup

namespace LuaBytecode

open Numeral

/-! ## Operands -/

namespace Operand

/-- An operand that refers to a constant has its bit set, so it is at least as great as the bit. -/
theorem constantBit_le_of_isConstant {x : Nat} (h : isConstant x = true) : constantBit ≤ x := by
  simp only [isConstant, constantBit, beq_iff_eq] at h ⊢
  omega

/-- A constant is shown as a negative number. -/
theorem shown_of_isConstant {x : Nat} (h : isConstant x = true) : shown x = constantBit - 1 - x := by
  have hle := constantBit_le_of_isConstant h
  rw [shown, if_pos h, constantIndex, if_pos h]
  omega

theorem shown_of_not_isConstant {x : Nat} (h : isConstant x = false) : shown x = x := by
  rw [shown, h]
  rfl

/-- **Different operands are shown differently.** -/
theorem shown_injective {x y : Nat} (h : shown x = shown y) : x = y := by
  cases hx : isConstant x with
  | true =>
    have hle := constantBit_le_of_isConstant hx
    rw [shown_of_isConstant hx] at h
    cases hy : isConstant y with
    | true =>
      rw [shown_of_isConstant hy] at h
      omega
    | false =>
      -- a negative number on the left, a natural on the right
      rw [shown_of_not_isConstant hy] at h
      omega
  | false =>
    rw [shown_of_not_isConstant hx] at h
    cases hy : isConstant y with
    | true =>
      have hle := constantBit_le_of_isConstant hy
      rw [shown_of_isConstant hy] at h
      omega
    | false =>
      rw [shown_of_not_isConstant hy] at h
      omega

/-- What is shown is as much as the mark and the number without it. -/
theorem shown_eq_iff {x y : Nat} :
    shown x = shown y ↔ isConstant x = isConstant y ∧ constantIndex x = constantIndex y := by
  constructor
  · intro h
    rw [shown_injective h]
    exact ⟨rfl, rfl⟩
  · rintro ⟨hmark, hindex⟩
    rw [shown, shown, hmark, hindex]
    split
    · rfl
    · rename_i hy
      rw [constantIndex, constantIndex, hmark, if_neg hy, if_neg hy] at hindex
      rw [hindex]

end Operand

/-! ## The table -/

namespace Operation

theorem mem_all (op : Operation) : op ∈ all := List.mem_of_getElem? (ofCode?_code op)

/-- No two operations have one mnemonic. -/
theorem mnemonic_injective {op op' : Operation} (h : op.mnemonic = op'.mnemonic) : op = op' := by
  have hnodup : (all.map mnemonic).Nodup := by decide +kernel
  exact List.inj_on_of_nodup_map hnodup op.mem_all op'.mem_all h

/-- A mnemonic is made of capital letters. -/
theorem isUpper_of_mem_mnemonic (op : Operation) {c : Char} (h : c ∈ op.mnemonic.toList) : c.isUpper = true := by
  have hupper : ∀ op ∈ all, op.mnemonic.toList.all Char.isUpper = true := by decide +kernel
  exact List.all_eq_true.1 (hupper op op.mem_all) c h

/-- No operation reads its wide operand as a register. -/
theorem useB_ne_register (op : Operation) (h : op.info.layout = .abx) : op.info.useB ≠ .register := by
  cases op with
  | loadK | loadKx | closure => decide
  | _ => cases h

end Operation

namespace Instruction

variable {v w : Instruction} {op op' : Operation}

/-! ## Operand lists -/

/-- The instructions have the same content in every field that an operation of this kind reads. -/
def AgreeOn (info : OperationInfo) (v w : Instruction) : Prop :=
  match info.layout with
  | .abc => v.a = w.a ∧ (info.useB ≠ .unused → v.b = w.b) ∧ (info.useC ≠ .unused → v.c = w.c)
  | .abx => v.a = w.a ∧ (info.useB ≠ .unused → v.bx = w.bx)
  | .asbx => v.a = w.a ∧ v.sbx = w.sbx
  | .ax => v.ax = w.ax

/-- An operand that is shown only if it is read. -/
theorem shownIfUsed_eq_iff {use : OperandUse} {x y : Nat} :
    (if use = .unused then [] else [Operand.shown x]) = (if use = .unused then [] else [Operand.shown y])
      ↔ (use ≠ .unused → x = y) := by
  split
  · rename_i hunused
    exact ⟨fun _ hused => absurd hunused hused, fun _ => rfl⟩
  · rename_i hused
    rw [List.cons.injEq, and_iff_left rfl]
    exact ⟨fun h _ => Operand.shown_injective h, fun h => congrArg _ (h hused)⟩

/-- **The operands shown are the fields read.** -/
theorem operandsOf_eq_iff {info : OperationInfo} (htable : info.layout = .abx → info.useB ≠ .register) :
    v.operandsOf info = w.operandsOf info ↔ AgreeOn info v w := by
  unfold operandsOf AgreeOn
  cases hlayout : info.layout with
  | abc =>
    dsimp only
    rw [List.cons.injEq, Int.natCast_inj]
    refine and_congr_right fun _ => ⟨?_, ?_⟩
    · -- both lists of B operands have the same length, so the lists split at the same place
      intro h
      obtain ⟨hb, hc⟩ := List.append_inj h (by split <;> rfl)
      exact ⟨shownIfUsed_eq_iff.1 hb, shownIfUsed_eq_iff.1 hc⟩
    · rintro ⟨hb, hc⟩
      rw [shownIfUsed_eq_iff.2 hb, shownIfUsed_eq_iff.2 hc]
  | abx =>
    dsimp only
    rw [List.cons.injEq, Int.natCast_inj]
    refine and_congr_right fun _ => ?_
    cases huse : info.useB with
    | unused => simp
    | used => simp
    | register => exact absurd huse (htable hlayout)
    | constant => simp
  | asbx => simp
  | ax => simp

/-! ## Texts -/

theorem operands_of_operation? (h : v.operation? = some op) : v.operands = v.operandsOf op.info := by
  rw [operands, h]

/-- Every operation has an operand to show. -/
theorem operandsOf_ne_nil (v : Instruction) (info : OperationInfo) : v.operandsOf info ≠ [] := by
  unfold operandsOf
  split <;> exact List.cons_ne_nil _ _

/-- A mnemonic can be cut out of its column. -/
theorem padMnemonic_injective {s t : String} (hs : ' ' ∉ s.toList) (ht : ' ' ∉ t.toList)
    (h : padMnemonic s = padMnemonic t) : s = t := by
  have hcut {s : String} (hs : ' ' ∉ s.toList) : (cut ' ' (padMnemonic s).toList).1 = s.toList := by
    rw [padMnemonic, String.toList_append, String.toList_ofList]
    cases 9 - s.length with
    | zero => rw [List.replicate_zero, List.append_nil, cut_of_not_mem hs]
    | succ n => rw [List.replicate_succ, cut_append hs]
  rw [← String.toList_inj, ← hcut hs, ← hcut ht, h]

/-- The first piece, and then each piece behind the mark that parts them. -/
theorem intercalate_cons {α : Type} (mark : α) (piece : List α) (rest : List (List α)) :
    [mark].intercalate (piece :: rest) = piece ++ rest.flatMap (mark :: ·) := by
  induction rest generalizing piece with
  | nil => rw [List.intercalate_singleton, List.flatMap_nil, List.append_nil]
  | cons next rest ih =>
    rw [List.intercalate_cons_cons, ih, List.flatMap_cons, List.append_assoc, List.singleton_append,
      List.cons_append]

/-- Operands are parted by blanks. -/
theorem toList_operandsText {xs : List Int} (h : xs ≠ []) :
    (operandsText xs).toList = '\t' :: [' '].intercalate (xs.map fun x => (integerText x).toList) := by
  obtain ⟨x, rest, rfl⟩ := List.exists_cons_of_ne_nil h
  rw [List.map_cons, intercalate_cons, List.flatMap_map]
  simp [operandsText, furtherOperands, List.flatMap_map]

/-- The text of a known operation is its padded mnemonic, a tab, and the operands parted by blanks. -/
theorem toList_text_of_operation? (h : v.operation? = some op) :
    v.text.toList = (padMnemonic op.mnemonic).toList
      ++ '\t' :: [' '].intercalate (v.operands.map fun x => (integerText x).toList) := by
  have hoperands : v.operands ≠ [] := operands_of_operation? h ▸ v.operandsOf_ne_nil op.info
  rw [text, h]
  dsimp only
  rw [String.toList_append, toList_operandsText hoperands]

/-- In the column of a mnemonic stand capital letters and blanks only. -/
theorem not_mem_padMnemonic (op : Operation) {c : Char} (hupper : c.isUpper = false) (hblank : c ≠ ' ') :
    c ∉ (padMnemonic op.mnemonic).toList := by
  rw [padMnemonic, String.toList_append, String.toList_ofList, List.mem_append, not_or]
  refine ⟨fun hmem => ?_, fun hmem => ?_⟩
  · rw [op.isUpper_of_mem_mnemonic hmem] at hupper
    cases hupper
  · exact hblank (List.eq_of_mem_replicate hmem)

/-- The text of a known operation, cut at the tab. -/
theorem cut_text (h : v.operation? = some op) :
    cut '\t' v.text.toList = ((padMnemonic op.mnemonic).toList,
      some ([' '].intercalate (v.operands.map fun x => (integerText x).toList))) := by
  rw [toList_text_of_operation? h, cut_append (not_mem_padMnemonic op (by decide) (by decide))]

/-- The text of an unknown code has no tab. -/
theorem cut_text_of_none (h : v.operation? = none) : cut '\t' v.text.toList = (v.text.toList, none) := by
  apply cut_of_not_mem
  rw [text, h]
  dsimp only
  rw [String.toList_append, String.toList_append, toList_naturalText, List.mem_append, List.mem_append]
  rintro ((hmem | hmem) | hmem)
  · exact absurd hmem (by decide)
  · exact (isDigits_toDigits _).not_mem (by decide) hmem
  · exact absurd hmem (by decide)

/-- Operands can be cut out of their text. -/
theorem operands_eq_of_intercalate {xs ys : List Int} (hxs : xs ≠ []) (hys : ys ≠ [])
    (h : [' '].intercalate (xs.map fun x => (integerText x).toList)
      = [' '].intercalate (ys.map fun y => (integerText y).toList)) : xs = ys := by
  have hsplit {xs : List Int} (hxs : xs ≠ []) :
      ([' '].intercalate (xs.map fun x => (integerText x).toList)).splitOn ' '
        = xs.map fun x => (integerText x).toList := by
    apply List.splitOn_intercalate
    · intro piece hpiece
      obtain ⟨x, -, rfl⟩ := List.mem_map.1 hpiece
      exact not_mem_integerText x (by decide) (by decide)
    · simpa using hxs
  have htexts := congrArg (List.splitOn ' ') h
  rw [hsplit hxs, hsplit hys] at htexts
  refine List.map_injective_iff.2 (fun x y hxy => ?_) htexts
  exact integerText_injective (String.toList_inj.1 hxy)

/-- **Known operations**: the text says which operation it is and what its operands are. -/
theorem text_eq_iff_of_known (hv : v.operation? = some op) (hw : w.operation? = some op') :
    v.text = w.text ↔ op = op' ∧ AgreeOn op.info v w := by
  constructor
  · intro h
    have hcut := congrArg (fun t : String => cut '\t' t.toList) h
    rw [cut_text hv, cut_text hw, Prod.mk.injEq, Option.some.injEq, String.toList_inj] at hcut
    have hblank (op : Operation) : ' ' ∉ op.mnemonic.toList := fun hmem =>
      absurd (op.isUpper_of_mem_mnemonic hmem) (by decide)
    obtain rfl : op = op' :=
      Operation.mnemonic_injective (padMnemonic_injective (hblank op) (hblank op') hcut.1)
    rw [operands_of_operation? hv, operands_of_operation? hw] at hcut
    have hoperands := operands_eq_of_intercalate (v.operandsOf_ne_nil _) (w.operandsOf_ne_nil _) hcut.2
    exact ⟨rfl, (operandsOf_eq_iff op.useB_ne_register).1 hoperands⟩
  · rintro ⟨rfl, hagree⟩
    have hoperands := (operandsOf_eq_iff op.useB_ne_register).2 hagree
    rw [← String.toList_inj, toList_text_of_operation? hv, toList_text_of_operation? hw,
      operands_of_operation? hv, operands_of_operation? hw, hoperands]

/-- **Unknown codes**: the text says which code it is. -/
theorem text_eq_iff_of_unknown (hv : v.operation? = none) (hw : w.operation? = none) :
    v.text = w.text ↔ v.code = w.code := by
  constructor
  · intro h
    rw [text, text, hv, hw] at h
    apply naturalText_injective
    exact (String.append_right_inj _).1 ((String.append_left_inj _).1 h)
  · intro h
    rw [text, text, hv, hw, h]

/-- Known operations and unknown codes share no text. -/
theorem text_ne_of_known_of_unknown (hv : v.operation? = some op) (hw : w.operation? = none) :
    v.text ≠ w.text := by
  intro h
  have hcut := congrArg (fun t : String => (cut '\t' t.toList).2) h
  rw [cut_text hv, cut_text_of_none hw] at hcut
  cases hcut

/-- The codes from 47 on name no operation. -/
theorem operation?_eq_none_iff : v.operation? = none ↔ 47 ≤ v.code := by
  rw [operation?, Operation.ofCode?, List.getElem?_eq_none_iff, Operation.length_all]

/-- **The text determines the instruction** up to what its operation does not read: two texts are the same exactly
    if the codes are, and the code names no operation or the instructions agree on every field that its
    operation reads.  A constant is never shown as a register or as another constant is. -/
theorem text_eq_iff_agreeOn (v w : Instruction) :
    (v.text = w.text ↔
      v.code = w.code ∧ (47 ≤ v.code ∨ ∃ op, v.operation? = some op ∧ AgreeOn op.info v w))
    ∧ ∀ x y : Nat, Operand.shown x = Operand.shown y ↔
        Operand.isConstant x = Operand.isConstant y ∧ Operand.constantIndex x = Operand.constantIndex y := by
  refine ⟨?_, fun x y => Operand.shown_eq_iff⟩
  cases hv : v.operation? with
  | none =>
    have hhigh := operation?_eq_none_iff.1 hv
    cases hw : w.operation? with
    | none =>
      rw [text_eq_iff_of_unknown hv hw]
      exact ⟨fun h => ⟨h, .inl hhigh⟩, fun h => h.1⟩
    | some op =>
      have hcode := code_of_operation? hw
      have hlow := op.code_lt
      refine ⟨fun h => absurd h.symm (text_ne_of_known_of_unknown hw hv), fun h => ?_⟩
      omega
  | some op =>
    have hcode := code_of_operation? hv
    have hlow := op.code_lt
    cases hw : w.operation? with
    | none =>
      have hhigh := operation?_eq_none_iff.1 hw
      refine ⟨fun h => absurd h (text_ne_of_known_of_unknown hv hw), fun h => ?_⟩
      omega
    | some op' =>
      rw [text_eq_iff_of_known hv hw]
      constructor
      · rintro ⟨rfl, hagree⟩
        exact ⟨hcode.trans (code_of_operation? hw).symm, .inr ⟨op, rfl, hagree⟩⟩
      · rintro ⟨hsame, hhigh | ⟨named, hnamed, hagree⟩⟩
        · omega
        · -- one code names one operation
          cases hnamed
          have hop : some op = some op' := by rw [← hv, ← hw, operation?, operation?, hsame]
          exact ⟨Option.some.inj hop, hagree⟩

/-- A move does not read its third field. -/
example : (ofABC .move 1 2 3).text = (ofABC .move 1 2 0).text := by decide +kernel

end Instruction

end LuaBytecode
