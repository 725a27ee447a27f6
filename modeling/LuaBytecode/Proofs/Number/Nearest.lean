/-
  Rounding to the nearest double.

  1. **The relation** — `IsNearest x f` says that no double is closer to `x` than `f`, and that `f` is even if
     another one is as close.  It speaks of all doubles and not of a way to find the nearest.  Infinities take
     part with the number that would come next, so what lies beyond the middle between the greatest double and
     that number rounds to infinity.

  2. **Finding it** — in the row of all numbers it is enough to look at the two neighbours: a place `Catches`
     what lies between the middles to its neighbours, a middle itself only if the place is even.

  3. **Order** — greater numbers do not round to lesser ones (`IsNearest.value_le_of_le`).  Only a middle could
     round both ways, and of two neighbours just one is even; so the relation is a function up to the sign of
     zero (`IsNearest.unique`).
-/
import LuaBytecode.Proofs.Number.Order

namespace LuaBytecode

namespace Binary64

variable {f g : Binary64}

/-! ## Middles -/

section Middle

variable {a b x : Rat}

/-- The greater of two numbers is as close as the lesser from their middle on. -/
theorem abs_sub_le_abs_sub_left (h : a < b) : |x - b| ≤ |x - a| ↔ a + b ≤ 2 * x := by
  have hsquares : (x - a) ^ 2 - (x - b) ^ 2 = (b - a) * (2 * x - (a + b)) := by ring
  rw [← sq_le_sq, ← sub_nonneg, hsquares, mul_nonneg_iff_of_pos_left (sub_pos.2 h), sub_nonneg]

/-- The lesser of two numbers is as close as the greater up to their middle. -/
theorem abs_sub_le_abs_sub_right (h : a < b) : |x - a| ≤ |x - b| ↔ 2 * x ≤ a + b := by
  have hsquares : (x - b) ^ 2 - (x - a) ^ 2 = (b - a) * (a + b - 2 * x) := by ring
  rw [← sq_le_sq, ← sub_nonneg, hsquares, mul_nonneg_iff_of_pos_left (sub_pos.2 h), sub_nonneg]

end Middle

/-! ## The relation -/

/-- `x` rounds to `f`: no double is closer, and where another one is as close, `f` has an even significand.
    An infinity counts as `2 ^ 1024` or its negative, which settles what is out of range. -/
structure IsNearest (x : Rat) (f : Binary64) : Prop where
  isNaN_eq : f.isNaN = false
  closest (g : Binary64) : g.isNaN = false → |x - f.value| ≤ |x - g.value|
  even (g : Binary64) : g.isNaN = false → g.value ≠ f.value → |x - g.value| = |x - f.value| →
    f.significand % 2 = 0

/-- A place of the row catches what lies between the middles to its neighbours.  A middle is caught by the
    even place of the two. -/
structure Catches (z : Int) (x : Rat) : Prop where
  above : valueAt (z - 1) + valueAt z ≤ 2 * x
  below : 2 * x ≤ valueAt z + valueAt (z + 1)
  inside : z % 2 = 0 ∨ (valueAt (z - 1) + valueAt z < 2 * x ∧ 2 * x < valueAt z + valueAt (z + 1))

variable {x y : Rat} {z : Int}

/-- The row is symmetric about zero. -/
theorem Catches.neg (h : Catches z x) : Catches (-z) (-x) := by
  have hpred : valueAt (-z - 1) = -valueAt (z + 1) := by
    rw [← valueAt_neg]
    congr 1
    ring
  have hsucc : valueAt (-z + 1) = -valueAt (z - 1) := by
    rw [← valueAt_neg]
    congr 1
    ring
  have hself := valueAt_neg z
  constructor
  · rw [hpred, hself]
    linarith [h.below]
  · rw [hsucc, hself]
    linarith [h.above]
  · rw [hpred, hsucc, hself]
    rcases h.inside with heven | ⟨hlo, hhi⟩
    · exact .inl (by omega)
    · exact .inr ⟨by linarith, by linarith⟩

/-- Every place catches its own number. -/
theorem catches_valueAt (z : Int) : Catches z (valueAt z) := by
  have hpred := strictMono_valueAt (show z - 1 < z by omega)
  have hsucc := strictMono_valueAt (show z < z + 1 by omega)
  exact ⟨by linarith, by linarith, .inr ⟨by linarith, by linarith⟩⟩

/-- **The neighbours decide**: what the place of a double catches rounds to it. -/
theorem isNearest_of_catches (hnan : f.isNaN = false) (h : Catches f.order x) : IsNearest x f := by
  have hbelow (g : Binary64) (hlt : g.value < f.value) : g.value ≤ valueAt (f.order - 1) := by
    have horder := value_lt_iff.1 hlt
    rw [value_eq_valueAt g]
    exact strictMono_valueAt.monotone (by omega)
  have habove (g : Binary64) (hlt : f.value < g.value) : valueAt (f.order + 1) ≤ g.value := by
    have horder := value_lt_iff.1 hlt
    rw [value_eq_valueAt g]
    exact strictMono_valueAt.monotone (by omega)
  have hself := value_eq_valueAt f
  constructor
  · exact hnan
  · intro g _
    rcases lt_trichotomy g.value f.value with hlt | heq | hlt
    · have := hbelow g hlt
      exact (abs_sub_le_abs_sub_left hlt).2 (by linarith [h.above])
    · rw [heq]
    · have := habove g hlt
      exact (abs_sub_le_abs_sub_right hlt).2 (by linarith [h.below])
  · intro g _ hne htie
    rcases h.inside with heven | ⟨hlo, hhi⟩
    · exact f.order_emod_two.1 heven
    · -- a number that is as close would lie on a middle
      exfalso
      rcases lt_or_gt_of_ne hne with hlt | hlt
      · have := hbelow g hlt
        have := (abs_sub_le_abs_sub_right hlt).1 htie.le
        linarith
      · have := habove g hlt
        have := (abs_sub_le_abs_sub_left hlt).1 htie.le
        linarith

/-! ## Order -/

namespace IsNearest

/-- **Rounding keeps order.**  If it did not, both numbers would be the middle between the two results. -/
theorem value_le_of_le (hf : IsNearest x f) (hg : IsNearest y g) (hxy : x ≤ y) : f.value ≤ g.value := by
  by_contra hlt
  push Not at hlt
  have hx := (abs_sub_le_abs_sub_left hlt).1 (hf.closest g hg.isNaN_eq)
  have hy := (abs_sub_le_abs_sub_right hlt).1 (hg.closest f hf.isNaN_eq)
  obtain rfl : x = y := by linarith
  have horder : g.order < f.order := value_lt_iff.1 hlt
  have hfabs := f.natAbs_order
  have hgabs := g.natAbs_order
  have hfrank := isNaN_eq_false_iff.1 hf.isNaN_eq
  have hgrank := isNaN_eq_false_iff.1 hg.isNaN_eq
  rcases lt_or_ge (g.order + 1) f.order with hgap | hnext
  · -- a number between the two is closer than either
    obtain ⟨h, hnan, hplace⟩ := exists_order_eq (z := g.order + 1) (by omega)
    have hgh : g.value < h.value := value_lt_iff.2 (by omega)
    have hhf : h.value < f.value := value_lt_iff.2 (by omega)
    have := (abs_sub_le_abs_sub_left hhf).1 (hf.closest h hnan)
    linarith
  · -- neighbours that are equally close are not both even
    have htie : |x - g.value| = |x - f.value| :=
      le_antisymm ((abs_sub_le_abs_sub_right hlt).2 hy) ((abs_sub_le_abs_sub_left hlt).2 hx)
    have hfeven := f.order_emod_two.2 (hf.even g hg.isNaN_eq hlt.ne htie)
    have hgeven := g.order_emod_two.2 (hg.even f hf.isNaN_eq hlt.ne' htie.symm)
    omega

/-- **A number rounds to one pattern of either sign.** -/
theorem unique (hf : IsNearest x f) (hg : IsNearest x g) (hsign : f.negative = g.negative) : f = g := by
  have hvalue : f.value = g.value :=
    le_antisymm (hf.value_le_of_le hg le_rfl) (hg.value_le_of_le hf le_rfl)
  have hplace := congrArg Int.natAbs (value_eq_iff.1 hvalue)
  rw [natAbs_order, natAbs_order] at hplace
  exact eq_of_rank_eq hsign hplace

end IsNearest

end Binary64

end LuaBytecode
