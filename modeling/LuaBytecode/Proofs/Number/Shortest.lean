/-
  The shortest decimal reads back.

  1. **The interval** — the numbers between the two ends of a rounding interval, an end itself only if the
     interval is closed (`RoundingInterval.Holds`).  Cleared of negative powers, the comparison that the search
     makes on naturals is this one (`contains_iff`).

  2. **The search** — a grid point is answered only if the interval holds it, so whatever grid the search stops
     at, the answer is held.  Where it does not stop, the answer is the double itself, which lies between the
     ends (`holds_shortest`).

  3. **The ends** — twice an end is the sum of two neighbours in the row of magnitudes, and the interval is
     closed exactly at even places.  So the interval of a double holds what its place catches, and whatever
     decimal lies in it (`Decimal.Within`), the shortest or another one, is nearest to no other double.
-/
import Mathlib.Tactic.FieldSimp
import LuaBytecode.Number.Shortest
import LuaBytecode.Proofs.Number.Nearest

namespace LuaBytecode

/-- The number that a decimal denotes. -/
def Decimal.value (d : Decimal) : Rat := d.digits * 10 ^ d.exponent

namespace RoundingInterval

variable {i : RoundingInterval} {tie : Tie} {c : Nat} {k : Int} {d : Decimal}

/-! ## The interval -/

/-- `x` lies between the ends of the interval, or on one that belongs to it. -/
def Holds (i : RoundingInterval) (x : Rat) : Prop :=
  i.lower * 2 ^ i.scale ≤ x ∧ x ≤ i.upper * 2 ^ i.scale ∧
  (i.closed = true ∨ (i.lower * 2 ^ i.scale < x ∧ x < i.upper * 2 ^ i.scale))

/-- Multiplying by the negative part of an exponent leaves the positive part. -/
theorem zpow_mul_pow_toNat {b : Rat} (hb : b ≠ 0) (k : Int) : b ^ k * b ^ (-k).toNat = b ^ k.toNat := by
  rw [← zpow_natCast, ← zpow_natCast, ← zpow_add₀ hb]
  congr 1
  omega

/-- What both sides of a comparison are multiplied by. -/
def weight (i : RoundingInterval) (k : Int) : Rat := 2 ^ (-i.scale).toNat * 10 ^ (-k).toNat

theorem weight_pos (i : RoundingInterval) (k : Int) : 0 < i.weight k := by
  unfold weight
  positivity

/-- A unit of the interval, cleared of negative powers. -/
theorem unit_eq (i : RoundingInterval) (k : Int) : (i.unit k : Rat) = 2 ^ i.scale * i.weight k := by
  have hpow := zpow_mul_pow_toNat two_ne_zero i.scale
  unfold unit weight
  simp only [Nat.pow_eq]
  push_cast
  linear_combination -(10 : Rat) ^ (-k).toNat * hpow

/-- A step of the grid, cleared of the same. -/
theorem step_eq (i : RoundingInterval) (k : Int) : (i.step k : Rat) = 10 ^ k * i.weight k := by
  have hpow := zpow_mul_pow_toNat (show (10 : Rat) ≠ 0 by norm_num) k
  unfold step weight
  simp only [Nat.pow_eq]
  push_cast
  linear_combination -(2 : Rat) ^ (-i.scale).toNat * hpow

/-- **The comparison on naturals is the comparison of numbers.** -/
theorem contains_iff : i.contains c k = true ↔ i.Holds (c * 10 ^ k) := by
  have hw := i.weight_pos k
  have hpoint : (c * i.step k : Nat) = (c * 10 ^ k : Rat) * i.weight k := by
    rw [Nat.cast_mul, step_eq, mul_assoc]
  have hend (n : Nat) : (n * i.unit k : Nat) = (n * 2 ^ i.scale : Rat) * i.weight k := by
    rw [Nat.cast_mul, unit_eq, mul_assoc]
  have hle (a b : Nat) (x y : Rat) (ha : (a : Rat) = x * i.weight k) (hb : (b : Rat) = y * i.weight k) :
      (a ≤ b ↔ x ≤ y) ∧ (a < b ↔ x < y) := by
    have hcast : ((a : Rat) ≤ b ↔ a ≤ b) ∧ ((a : Rat) < b ↔ a < b) := ⟨Nat.cast_le, Nat.cast_lt⟩
    rw [← hcast.1, ← hcast.2, ha, hb]
    exact ⟨mul_le_mul_iff_of_pos_right hw, mul_lt_mul_iff_of_pos_right hw⟩
  have hlo := hle _ _ _ _ (hend i.lower) hpoint
  have hhi := hle _ _ _ _ hpoint (hend i.upper)
  unfold contains Holds
  dsimp only
  split
  · rename_i hclosed
    rw [decide_eq_true_eq, hlo.1, hhi.1]
    exact ⟨fun h => ⟨h.1, h.2, .inl hclosed⟩, fun h => ⟨h.1, h.2.1⟩⟩
  · rename_i hopen
    rw [decide_eq_true_eq, hlo.2, hhi.2]
    exact ⟨fun h => ⟨h.1.le, h.2.le, .inr h⟩, fun h => h.2.2.resolve_left hopen⟩

/-! ## The search -/

/-- A grid answers with a point that the interval holds. -/
theorem holds_of_onGrid? (h : i.onGrid? tie k = some c) : i.Holds (c * 10 ^ k) := by
  rw [← contains_iff]
  unfold onGrid? at h
  dsimp only at h
  split at h <;> rename_i hfloor hnext
  · cases h
    rcases roundDiv_eq_or tie (i.center * i.unit k) (i.step k) with hround | hround
    · rw [hround, hfloor]
    · rw [hround, hnext]
  · cases h
    exact hfloor
  · cases h
    exact hnext
  · cases h

/-- Whatever grid the search stops at, by induction on the tries. -/
theorem holds_of_search {tries : Nat} (h : i.search tie tries k = some d) : i.Holds d.value := by
  induction tries generalizing k with
  | zero => cases h
  | succ tries ih =>
    rw [search] at h
    split at h
    · rename_i hgrid
      cases h
      exact holds_of_onGrid? hgrid
    · exact ih h

/-- With a negative scale the powers of two are made powers of ten by fives. -/
theorem value_exact (i : RoundingInterval) : i.exact.value = i.center * 2 ^ i.scale := by
  unfold exact Decimal.value
  split
  · rename_i hscale
    obtain ⟨n, hn⟩ := Int.eq_ofNat_of_zero_le hscale
    rw [hn, Int.toNat_natCast, zpow_natCast, Nat.pow_eq]
    push_cast
    ring
  · obtain ⟨n, hn⟩ : ∃ n : Nat, i.scale = -(n : Int) := ⟨(-i.scale).toNat, by omega⟩
    have hten : (10 : Rat) ^ n = 2 ^ n * 5 ^ n := by
      rw [← mul_pow]
      norm_num
    rw [hn, neg_neg, Int.toNat_natCast, zpow_neg, zpow_neg, zpow_natCast, zpow_natCast, Nat.pow_eq, hten]
    push_cast
    field_simp

/-- **The shortest decimal lies in the interval**, if its center does. -/
theorem holds_shortest (tie : Tie) (hlo : i.lower < i.center) (hhi : i.center < i.upper) :
    i.Holds (i.shortest tie).value := by
  unfold shortest
  cases hsearch : i.search tie 22 i.startExponent with
  | some d => exact holds_of_search hsearch
  | none =>
    have hpos : (0 : Rat) < 2 ^ i.scale := zpow_pos (by norm_num) _
    have hlo' : (i.lower : Rat) * 2 ^ i.scale < i.center * 2 ^ i.scale := by gcongr
    have hhi' : (i.center : Rat) * 2 ^ i.scale < i.upper * 2 ^ i.scale := by gcongr
    rw [Option.getD_none, value_exact]
    exact ⟨hlo'.le, hhi'.le, .inr ⟨hlo', hhi'⟩⟩

end RoundingInterval

/-- The decimal lies in the rounding interval of the double, the sign aside; for zero it is zero.  This is all
    that has to be known of the digits that are printed. -/
def Decimal.Within (d : Decimal) (f : Binary64) : Prop :=
  if f.significand = 0 then d.digits = 0 else (RoundingInterval.ofBinary64 f).Holds d.value

namespace Binary64

open RoundingInterval

variable {f : Binary64}

/-! ## The ends -/

/-- Below the first rank of an exponent the distance is half of what it is above, save where subnormal and
    normal numbers meet. -/
theorem scaleAt_pred (r : Nat) :
    scaleAt (r + 1) =
      if significandAt (r + 1) = 0x10000000000000 ∧ 1 < (r + 1) / 0x10000000000000 then scaleAt r + 1
      else scaleAt r := by
  unfold significandAt scaleAt
  split <;> split <;> omega

/-- Only zero has the significand zero, as the others have a leading one or a fraction. -/
theorem significand_eq_zero_iff : f.significand = 0 ↔ f.rank = 0 := by
  rw [significand_eq, significandAt]
  split <;> omega

/-- **An end is the middle between two neighbours.** -/
theorem two_mul_ends (h : f.significand ≠ 0) :
    2 * ((ofBinary64 f).lower * 2 ^ (ofBinary64 f).scale) = valueAt (f.rank - 1) + valueAt f.rank ∧
    2 * ((ofBinary64 f).upper * 2 ^ (ofBinary64 f).scale) = valueAt f.rank + valueAt (f.rank + 1) := by
  obtain ⟨p, hp⟩ : ∃ p, f.rank = p + 1 := Nat.exists_eq_succ_of_ne_zero (mt significand_eq_zero_iff.2 h)
  have hquarter : (2 : Rat) ^ scaleAt (p + 1) = 4 * 2 ^ (scaleAt (p + 1) - 2) := by
    rw [zpow_sub₀ two_ne_zero]
    norm_num
    ring
  have hself : valueAt (p + 1 : Nat) = 4 * significandAt (p + 1) * 2 ^ (scaleAt (p + 1) - 2) := by
    rw [valueAt_natCast, magnitudeAt, hquarter]
    ring
  have hpred : valueAt ((p + 1 : Nat) - 1) = valueAt (p + 1 : Nat) - spacingAt p := by
    rw [Nat.cast_add_one, add_sub_cancel_right, ← Nat.cast_add_one, valueAt_natCast, valueAt_natCast,
      magnitudeAt_succ, add_sub_cancel_right]
  have hsucc : valueAt ((p + 1 : Nat) + 1) = valueAt (p + 1 : Nat) + spacingAt (p + 1) := by
    rw [← Nat.cast_add_one, valueAt_natCast, valueAt_natCast, magnitudeAt_succ (p + 1)]
  have hpos : 0 < significandAt (p + 1) := by
    rw [← hp, ← significand_eq]
    exact Nat.pos_of_ne_zero h
  unfold ofBinary64
  dsimp only
  rw [significand_eq, exponentField_eq, scale_eq, hp, hpred, hsucc, hself, spacingAt, spacingAt, hquarter]
  constructor
  · have hscale := scaleAt_pred p
    by_cases hfirst : significandAt (p + 1) = 0x10000000000000 ∧ 1 < (p + 1) / 0x10000000000000
    · rw [if_pos hfirst] at hscale ⊢
      have hhalf : (2 : Rat) ^ scaleAt p = 2 * 2 ^ (scaleAt (p + 1) - 2) := by
        rw [hscale, ← zpow_one_add₀ two_ne_zero]
        congr 1
        ring
      rw [hhalf, Nat.cast_sub (by omega)]
      push_cast
      ring
    · rw [if_neg hfirst] at hscale ⊢
      rw [← hscale, hquarter, Nat.cast_sub (by omega)]
      push_cast
      ring
  · push_cast
    ring

/-- **The interval of a double holds what its place catches.** -/
theorem catches_of_holds {x : Rat} (hsignificand : f.significand ≠ 0) (h : (ofBinary64 f).Holds x) :
    Catches f.rank x := by
  obtain ⟨hlower, hupper⟩ := two_mul_ends hsignificand
  obtain ⟨hlo, hhi, hinside⟩ := h
  constructor
  · linarith
  · linarith
  · rcases hinside with hclosed | ⟨hlo', hhi'⟩
    · have heven : f.significand % 2 = 0 := beq_iff_eq.1 hclosed
      rw [significand_eq, significandAt_mod_two] at heven
      exact .inl (by omega)
    · exact .inr ⟨by linarith, by linarith⟩

/-! ## Decimals within the interval -/

/-- **The shortest decimal is one of them.** -/
theorem within_shortest (f : Binary64) (tie : Tie) : (f.shortest tie).Within f := by
  unfold Decimal.Within shortest
  split
  · rfl
  · apply holds_shortest
    · unfold ofBinary64
      dsimp only
      split <;> omega
    · exact Nat.lt_add_of_pos_right (by decide)

/-- **The place of a double catches every decimal within its interval.** -/
theorem catches_of_within {d : Decimal} (h : d.Within f) : Catches f.rank d.value := by
  unfold Decimal.Within at h
  split at h
  · rename_i hzero
    have hvalue : d.value = valueAt f.rank := by
      rw [significand_eq_zero_iff.1 hzero, valueAt_natCast, magnitudeAt_zero, Decimal.value, h, Nat.cast_zero]
      exact zero_mul _
    rw [hvalue]
    exact catches_valueAt _
  · rename_i hsignificand
    exact catches_of_holds hsignificand h

/-- **A decimal within the interval of a double rounds to it.** -/
theorem isNearest_of_within (hnan : f.isNaN = false) {d : Decimal} (hd : d.Within f) :
    IsNearest (if f.negative then -d.value else d.value) f := by
  apply isNearest_of_catches hnan
  have h := catches_of_within hd
  unfold order signed
  split
  · exact h.neg
  · exact h

end Binary64

end LuaBytecode
