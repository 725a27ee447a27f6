/-
  Doubles in order.

  1. **Ranks** — a pattern is its sign and the rest of its bits, its `rank`.  The rank is what the exponent
     and the fraction are read off, and the infinities are the last ranks that are not NaNs.

  2. **Magnitudes** — counting the rank up by one adds one unit of the last place (`magnitudeAt_succ`), also
     where the exponent grows: there the fraction starts again from nothing, and the leading one is worth
     twice as much.  So magnitudes grow with the rank.

  3. **Numbers** — mirrored at zero, the magnitudes become one row that grows from minus infinity to
     infinity (`strictMono_valueAt`), and a pattern stands in it at its `order`.  Hence patterns compare as
     the numbers they denote.

  An infinity has a place in the row as well, and counts there as `2 ^ 1024`, the number that would come next
  if there were more exponents.
-/
import Mathlib.Algebra.Order.Field.Power
import Mathlib.Data.Int.ConditionallyCompleteOrder
import Mathlib.Tactic.LinearCombination
import Mathlib.Tactic.Linarith
import Mathlib.Tactic.Ring
import LuaBytecode.Number.Binary64

namespace LuaBytecode

namespace Binary64

variable {f g : Binary64}

/-! ## Bits -/

theorem rank_lt (f : Binary64) : f.rank < 0x8000000000000000 := Nat.mod_lt _ (by decide)

/-- The bits without the sign are the exponent above the fraction. -/
theorem exponentField_eq (f : Binary64) : f.exponentField = f.rank / 0x10000000000000 := by
  unfold exponentField rank
  omega

/-- And the fraction is what is left of them. -/
theorem fractionField_eq (f : Binary64) : f.fractionField = f.rank % 0x10000000000000 := by
  unfold fractionField rank
  omega

/-- A pattern is its sign and its rank. -/
theorem eq_of_rank_eq (hsign : f.negative = g.negative) (hrank : f.rank = g.rank) : f = g := by
  have hf := f.bits.toNat_lt
  have hg := g.bits.toNat_lt
  have hbits : f.bits.toNat = g.bits.toNat := by
    unfold negative at hsign
    unfold rank at hrank
    rw [decide_eq_decide] at hsign
    omega
  cases f
  cases g
  exact congrArg mk (UInt64.toNat_inj.1 hbits)

/-- Finite numbers come before the infinity in the row. -/
theorem isFinite_iff : f.isFinite = true ↔ f.rank < 0x7FF0000000000000 := by
  have := f.rank_lt
  simp only [isFinite, bne_iff_ne, ne_eq, exponentField_eq]
  omega

/-- NaNs come behind it. -/
theorem isNaN_eq_false_iff : f.isNaN = false ↔ f.rank ≤ 0x7FF0000000000000 := by
  have := f.rank_lt
  simp only [isNaN, Bool.and_eq_false_iff, beq_eq_false_iff_ne, bne_eq_false_iff_eq, ne_eq, exponentField_eq,
    fractionField_eq]
  omega

theorem isNaN_of_isFinite (h : f.isFinite = true) : f.isNaN = false :=
  isNaN_eq_false_iff.2 (isFinite_iff.1 h).le

/-- The order is the rank with a sign. -/
theorem natAbs_order (f : Binary64) : f.order.natAbs = f.rank := by
  unfold order signed
  split <;> omega

/-- A pattern without the sign bit is its own place. -/
theorem order_of_lt {w : UInt64} (h : w.toNat < 0x8000000000000000) : (mk w).order = w.toNat := by
  have hneg : (mk w).negative = false := decide_eq_false (Nat.not_le.2 h)
  rw [order, signed, hneg, if_neg Bool.false_ne_true, rank, Nat.mod_eq_of_lt h]

/-- Setting the sign bit mirrors the place. -/
theorem order_negated {w : UInt64} (h : w.toNat < 0x8000000000000000) :
    (mk (w + 0x8000000000000000)).order = -(w.toNat : Int) := by
  have hbits : (w + 0x8000000000000000).toNat = w.toNat + 0x8000000000000000 := by
    rw [UInt64.toNat_add]
    exact Nat.mod_eq_of_lt (Nat.add_lt_add_right h 0x8000000000000000)
  have hneg : (mk (w + 0x8000000000000000)).negative = true :=
    decide_eq_true (hbits ▸ Nat.le_add_left _ _)
  have hrank : (mk (w + 0x8000000000000000)).rank = w.toNat := by
    rw [rank, hbits, Nat.add_mod_right, Nat.mod_eq_of_lt h]
  rw [order, signed, hneg, if_pos rfl, hrank]

/-- Every place up to the infinities is taken. -/
theorem exists_order_eq {z : Int} (hz : z.natAbs ≤ 0x7FF0000000000000) :
    ∃ g : Binary64, g.isNaN = false ∧ g.order = z := by
  have hplace : ∃ g : Binary64, g.order = z := by
    have hbits : (UInt64.ofNat z.natAbs).toNat = z.natAbs :=
      UInt64.toNat_ofNat_of_lt' (show z.natAbs < 2 ^ 64 by omega)
    have hlt : (UInt64.ofNat z.natAbs).toNat < 0x8000000000000000 := by omega
    rcases lt_or_ge z 0 with hneg | hpos
    · exact ⟨⟨UInt64.ofNat z.natAbs + 0x8000000000000000⟩, (order_negated hlt).trans (by omega)⟩
    · exact ⟨⟨UInt64.ofNat z.natAbs⟩, (order_of_lt hlt).trans (by omega)⟩
  obtain ⟨g, rfl⟩ := hplace
  exact ⟨g, isNaN_eq_false_iff.2 (by rwa [← natAbs_order]), rfl⟩

/-! ## The row of magnitudes -/

/-- The significand of the patterns of a rank. -/
def significandAt (r : Nat) : Nat :=
  if r / 0x10000000000000 = 0 then r % 0x10000000000000 else 0x10000000000000 + r % 0x10000000000000

/-- The scale of the patterns of a rank. -/
def scaleAt (r : Nat) : Int := (max (r / 0x10000000000000) 1 : Nat) - 1075

/-- The significand depends on the place in the row only. -/
theorem significand_eq (f : Binary64) : f.significand = significandAt f.rank := by
  unfold significand significandAt
  rw [exponentField_eq, fractionField_eq]

/-- So does the scale. -/
theorem scale_eq (f : Binary64) : f.scale = scaleAt f.rank := by
  unfold scale scaleAt
  rw [exponentField_eq]

/-- Even places have even significands, for the bit above the fraction is even. -/
theorem significandAt_mod_two (r : Nat) : significandAt r % 2 = r % 2 := by
  unfold significandAt
  split <;> omega

theorem significandAt_lt (r : Nat) : significandAt r < 0x20000000000000 := by
  unfold significandAt
  split <;> omega

/-- **The next rank** has the next significand; or the scale grows, and the significand, which would be `2 ^ 53`,
    is half of that. -/
theorem significandAt_succ (r : Nat) :
    (significandAt (r + 1) = significandAt r + 1 ∧ scaleAt (r + 1) = scaleAt r)
      ∨ (2 * significandAt (r + 1) = significandAt r + 1 ∧ scaleAt (r + 1) = scaleAt r + 1) := by
  unfold significandAt scaleAt
  split <;> split <;> omega

/-- The magnitude of the numbers of a rank. -/
def magnitudeAt (r : Nat) : Rat := significandAt r * 2 ^ scaleAt r

/-- The distance from a magnitude to the next. -/
def spacingAt (r : Nat) : Rat := 2 ^ scaleAt r

theorem spacingAt_pos (r : Nat) : 0 < spacingAt r := zpow_pos (by norm_num) _

theorem magnitudeAt_zero : magnitudeAt 0 = 0 := by
  simp [magnitudeAt, significandAt]

/-- **The next magnitude is one spacing further**, across the ends of exponents too: there the significand
    begins anew and the spacing doubles. -/
theorem magnitudeAt_succ (r : Nat) : magnitudeAt (r + 1) = magnitudeAt r + spacingAt r := by
  unfold magnitudeAt spacingAt
  rcases significandAt_succ r with ⟨hsig, hscale⟩ | ⟨hsig, hscale⟩
  · rw [hsig, hscale]
    push_cast
    ring
  · have hcast : 2 * (significandAt (r + 1) : Rat) = significandAt r + 1 := by exact_mod_cast hsig
    rw [hscale, zpow_add_one₀ (by norm_num)]
    linear_combination (2 : Rat) ^ scaleAt r * hcast

/-- Magnitudes go up along the row, as every spacing is positive. -/
theorem strictMono_magnitudeAt : StrictMono magnitudeAt := by
  apply strictMono_nat_of_lt_succ
  intro r
  rw [magnitudeAt_succ]
  have := spacingAt_pos r
  linarith

/-! ## The row of numbers -/

/-- The number at a place of the row. -/
def valueAt (z : Int) : Rat := if z < 0 then -magnitudeAt z.natAbs else magnitudeAt z.natAbs

theorem valueAt_natCast (n : Nat) : valueAt n = magnitudeAt n := by
  unfold valueAt
  rw [if_neg (by omega), Int.natAbs_natCast]

/-- The row is symmetric about zero. -/
theorem valueAt_neg (z : Int) : valueAt (-z) = -valueAt z := by
  unfold valueAt
  rw [Int.natAbs_neg]
  rcases lt_trichotomy z 0 with hz | rfl | hz
  · rw [if_neg (by omega), if_pos hz, neg_neg]
  · simp [magnitudeAt_zero]
  · rw [if_pos (by omega), if_neg (by omega)]

/-- **The row of numbers grows.** -/
theorem strictMono_valueAt : StrictMono valueAt := by
  apply strictMono_int_of_lt_succ
  intro z
  rcases lt_or_ge z 0 with hz | hz
  · -- towards zero the magnitudes fall
    obtain ⟨n, rfl⟩ : ∃ n : Nat, z = -((n + 1 : Nat) : Int) := ⟨z.natAbs - 1, by omega⟩
    have hnext : -((n + 1 : Nat) : Int) + 1 = -(n : Int) := by omega
    rw [hnext, valueAt_neg, valueAt_neg, valueAt_natCast, valueAt_natCast]
    exact neg_lt_neg (strictMono_magnitudeAt (Nat.lt_succ_self n))
  · obtain ⟨n, rfl⟩ := Int.eq_ofNat_of_zero_le hz
    show valueAt n < valueAt ((n + 1 : Nat) : Int)
    rw [valueAt_natCast, valueAt_natCast]
    exact strictMono_magnitudeAt (Nat.lt_succ_self n)

/-! ## Meaning -/

/-- The number that a pattern denotes: its significand, with its sign, times two to its scale. -/
def value (f : Binary64) : Rat := f.signed f.significand * 2 ^ f.scale

/-- A number is the magnitude at its rank, with its sign. -/
theorem value_eq_magnitudeAt (f : Binary64) :
    f.value = if f.negative then -magnitudeAt f.rank else magnitudeAt f.rank := by
  unfold value signed magnitudeAt
  rw [significand_eq, scale_eq]
  split <;> push_cast <;> ring

/-- **A number is what stands at its order in the row.** -/
theorem value_eq_valueAt (f : Binary64) : f.value = valueAt f.order := by
  rw [value_eq_magnitudeAt]
  unfold order signed
  split
  · rw [valueAt_neg, valueAt_natCast]
  · rw [valueAt_natCast]

/-- Numbers compare as their places do. -/
theorem value_lt_iff : f.value < g.value ↔ f.order < g.order := by
  rw [value_eq_valueAt, value_eq_valueAt]
  exact strictMono_valueAt.lt_iff_lt

theorem value_le_iff : f.value ≤ g.value ↔ f.order ≤ g.order := by
  rw [value_eq_valueAt, value_eq_valueAt]
  exact strictMono_valueAt.le_iff_le

theorem value_eq_iff : f.value = g.value ↔ f.order = g.order := by
  rw [value_eq_valueAt, value_eq_valueAt]
  exact strictMono_valueAt.injective.eq_iff

/-- The comparison of doubles is that of their values, where there is no NaN. -/
theorem numLe_iff (hf : f.isNaN = false) (hg : g.isNaN = false) : f.numLe g = true ↔ f.value ≤ g.value := by
  simp [numLe, hf, hg, value_le_iff]

theorem numLt_iff (hf : f.isNaN = false) (hg : g.isNaN = false) : f.numLt g = true ↔ f.value < g.value := by
  simp [numLt, hf, hg, value_lt_iff]

/-- Even places hold even significands. -/
theorem order_emod_two (f : Binary64) : f.order % 2 = 0 ↔ f.significand % 2 = 0 := by
  have habs := f.natAbs_order
  rw [significand_eq, significandAt_mod_two]
  omega

end Binary64

end LuaBytecode
