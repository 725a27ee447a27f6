/-
  From doubles to integers.

  A finite double denotes `± significand · 2 ^ scale`.  With a scale that is not negative that is an integer;
  with a negative one it is an integer exactly if the power of two divides the significand.  So `isWhole`
  decides whether the number is an integer, and then `truncate` is that integer.

  The range is tested on doubles.  Its lower end is a double, its upper end is not, and the test is against the
  first integer above the range instead.  As doubles compare like the numbers they denote, what passes the
  test is in range, and clamping it changes nothing.
-/
import LuaBytecode.Proofs.Number.Order

namespace LuaBytecode

namespace Binary64

variable {f : Binary64}

/-! ## Whole numbers -/

theorem signed_mul (f : Binary64) (a b : Nat) : f.signed (a * b) = f.signed a * b := by
  unfold signed
  split <;> push_cast <;> ring

theorem natAbs_signed (f : Binary64) (n : Nat) : (f.signed n).natAbs = n := by
  unfold signed
  split <;> omega

/-- Without a fraction the value is the whole number that truncation gives. -/
theorem value_of_nonneg_scale (h : 0 ≤ f.scale) : f.value = f.truncate := by
  obtain ⟨k, hk⟩ := Int.eq_ofNat_of_zero_le h
  rw [value, truncate, if_pos h, hk, Int.toNat_natCast, signed_mul, zpow_natCast, Nat.pow_eq]
  push_cast
  rfl

/-- A negative scale moved to the other side. -/
theorem value_mul_pow {k : Nat} (h : f.scale = -(k : Int)) : f.value * 2 ^ k = f.signed f.significand := by
  rw [value, h, zpow_neg, zpow_natCast, mul_assoc, inv_mul_cancel₀ (by positivity), mul_one]

/-- With a negative scale an integer is what remains of the significand. -/
theorem significand_of_value_eq {k : Nat} {n : Int} (hk : f.scale = -(k : Int)) (h : f.value = n) :
    f.significand = n.natAbs * 2 ^ k := by
  have hvalue := value_mul_pow hk
  rw [h] at hvalue
  have hproduct : f.signed f.significand = n * 2 ^ k := by exact_mod_cast hvalue.symm
  have hsignificand := congrArg Int.natAbs hproduct
  rwa [natAbs_signed, Int.natAbs_mul, Int.natAbs_pow] at hsignificand

/-- A double with a fraction of `k` bits is whole exactly if these are all zero. -/
theorem isWhole_iff_dvd {k : Nat} (h : f.scale = -(k : Int)) :
    f.isWhole = true ↔ f.isFinite = true ∧ 2 ^ k ∣ f.significand := by
  simp only [isWhole, h, neg_neg, Int.toNat_natCast, Nat.pow_eq, Bool.and_eq_true, Bool.or_eq_true,
    decide_eq_true_eq, beq_iff_eq, Nat.dvd_iff_mod_eq_zero, and_congr_right_iff, or_iff_right_iff_imp]
  intro _ hk
  obtain rfl : k = 0 := by omega
  exact Nat.mod_one _

/-- **A whole double is the integer it truncates to.** -/
theorem value_of_isWhole (h : f.isWhole = true) : f.value = f.truncate := by
  rcases le_or_gt 0 f.scale with hscale | hscale
  · exact value_of_nonneg_scale hscale
  · obtain ⟨k, hk⟩ : ∃ k : Nat, f.scale = -(k : Int) := ⟨(-f.scale).toNat, by omega⟩
    have htruncate : f.truncate = f.signed (f.significand / 2 ^ k) := by
      rw [truncate, if_neg (by omega), hk, neg_neg, Int.toNat_natCast, Nat.pow_eq]
    have hvalue := value_mul_pow hk
    rw [← Nat.div_mul_cancel ((isWhole_iff_dvd hk).1 h).2, signed_mul, ← htruncate] at hvalue
    push_cast at hvalue
    exact mul_right_cancel₀ (by positivity) hvalue

/-- **A finite double that is an integer is whole.** -/
theorem isWhole_of_value_eq {n : Int} (hfinite : f.isFinite = true) (h : f.value = n) : f.isWhole = true := by
  rcases le_or_gt 0 f.scale with hscale | hscale
  · rw [isWhole, hfinite, decide_eq_true hscale, Bool.true_or, Bool.and_self]
  · obtain ⟨k, hk⟩ : ∃ k : Nat, f.scale = -(k : Int) := ⟨(-f.scale).toNat, by omega⟩
    refine (isWhole_iff_dvd hk).2 ⟨hfinite, ?_⟩
    rw [significand_of_value_eq hk h]
    exact Nat.dvd_mul_left _ _

/-! ## The signed 64-bit range -/

/-- The least of the range is a double. -/
theorem value_int64Least : int64Least.value = -2 ^ 63 := by
  have hsignificand : int64Least.signed int64Least.significand = -0x10000000000000 := by decide
  have hscale : int64Least.scale = 11 := by decide
  rw [value, hsignificand, hscale]
  norm_num

/-- The greatest of the range is none, so the range is bounded by the first double beyond it. -/
theorem value_int64Bound : int64Bound.value = 2 ^ 63 := by
  have hsignificand : int64Bound.signed int64Bound.significand = 0x10000000000000 := by decide
  have hscale : int64Bound.scale = 11 := by decide
  rw [value, hsignificand, hscale]
  norm_num

theorem isFinite_of_isWhole (h : f.isWhole = true) : f.isFinite = true := (Bool.and_eq_true_iff.1 h).1

/-- The test on doubles is a test on numbers. -/
theorem inRange_iff (h : f.isFinite = true) :
    (int64Least.numLe f && f.numLt int64Bound) = true ↔ -2 ^ 63 ≤ f.value ∧ f.value < 2 ^ 63 := by
  have hnan := isNaN_of_isFinite h
  rw [Bool.and_eq_true, numLe_iff (by decide) hnan, numLt_iff hnan (by decide), value_int64Least,
    value_int64Bound]

/-- A whole double in range is not clamped. -/
theorem toInt_clampToInt64 (h : f.isWhole = true) (hlo : -2 ^ 63 ≤ f.value) (hhi : f.value < 2 ^ 63) :
    (f.clampToInt64.toInt : Rat) = f.value := by
  rw [value_of_isWhole h] at hlo hhi ⊢
  have hlo' : -2 ^ 63 ≤ f.truncate := by exact_mod_cast hlo
  have hhi' : f.truncate < 2 ^ 63 := by exact_mod_cast hhi
  have hnan := isNaN_of_isFinite (isFinite_of_isWhole h)
  rw [clampToInt64, if_neg (by simp [hnan]), if_neg (by omega), if_neg (by omega),
    Int64.toInt_ofInt_of_le hlo' hhi']

/-- **Narrowing is exact.** -/
theorem toInt64?_eq_some_iff {n : Int64} :
    f.toInt64? = some n ↔ f.isFinite = true ∧ f.value = n.toInt := by
  unfold toInt64?
  constructor
  · intro h
    split at h
    · rename_i hchecked
      obtain ⟨hwhole, hrange⟩ := Bool.and_eq_true_iff.1 hchecked
      have hfinite := isFinite_of_isWhole hwhole
      obtain ⟨hlo, hhi⟩ := (inRange_iff hfinite).1 hrange
      cases h
      exact ⟨hfinite, (toInt_clampToInt64 hwhole hlo hhi).symm⟩
    · cases h
  · rintro ⟨hfinite, hvalue⟩
    have hwhole := isWhole_of_value_eq hfinite hvalue
    have hlo : -2 ^ 63 ≤ f.value := by
      rw [hvalue]
      exact_mod_cast n.le_toInt
    have hhi : f.value < 2 ^ 63 := by
      rw [hvalue]
      exact_mod_cast n.toInt_lt
    rw [hwhole, (inRange_iff hfinite).2 ⟨hlo, hhi⟩, Bool.and_self, if_pos rfl]
    have hsame := (toInt_clampToInt64 hwhole hlo hhi).trans hvalue
    exact congrArg some (Int64.toInt_inj.1 (by exact_mod_cast hsame))

/-- What has no answer is no integer of the range. -/
theorem toInt64?_eq_none_iff :
    f.toInt64? = none ↔
      f.isFinite = false ∨ (∀ n : Int, f.value ≠ n) ∨ f.value < -2 ^ 63 ∨ 2 ^ 63 ≤ f.value := by
  constructor
  · intro hnone
    by_contra! h
    obtain ⟨hfinite, ⟨n, hn⟩, hlo, hhi⟩ := h
    rw [hn] at hlo hhi
    have htoInt : (Int64.ofInt n).toInt = n :=
      Int64.toInt_ofInt_of_le (by exact_mod_cast hlo) (by exact_mod_cast hhi)
    have hsome : f.toInt64? = some (Int64.ofInt n) :=
      toInt64?_eq_some_iff.2 ⟨Bool.not_eq_false _ ▸ hfinite, by rw [hn, htoInt]⟩
    rw [hnone] at hsome
    cases hsome
  · rw [Option.eq_none_iff_forall_ne_some]
    intro h n hsome
    obtain ⟨hfinite, hvalue⟩ := toInt64?_eq_some_iff.1 hsome
    rcases h with hinfinite | hfraction | hlow | hhigh
    · rw [hfinite] at hinfinite
      cases hinfinite
    · exact hfraction n.toInt hvalue
    · rw [hvalue] at hlow
      exact absurd n.le_toInt (not_le.2 (by exact_mod_cast hlow))
    · rw [hvalue] at hhigh
      exact absurd n.toInt_lt (not_lt.2 (by exact_mod_cast hhigh))

/-- Both zeros have the value zero. -/
theorem value_of_isZero (h : f.isZero = true) : f.isFinite = true ∧ f.value = 0 := by
  simp only [isZero, Bool.and_eq_true, beq_iff_eq] at h
  refine ⟨by simp [isFinite, h.1], ?_⟩
  rw [value, significand, if_pos h.1, h.2]
  simp [signed]

/-- **A double converts exactly if it denotes an integer of the signed 64-bit range**, and then to that
    integer.  There is no answer for NaNs and infinities, for a fractional part, from `2 ^ 63` upwards and below
    `-2 ^ 63`.  Both zeros convert to zero, and the lower end of the range converts. -/
theorem toInt64?_exact (f : Binary64) :
    (∀ n : Int, (∃ k : Int64, f.toInt64? = some k ∧ k.toInt = n) ↔
      f.isFinite = true ∧ f.value = n ∧ -2 ^ 63 ≤ n ∧ n < 2 ^ 63) ∧
    (f.toInt64? = none ↔
      f.isFinite = false ∨ (∀ n : Int, f.value ≠ n) ∨ f.value < -2 ^ 63 ∨ 2 ^ 63 ≤ f.value) ∧
    (f.isZero = true → f.toInt64? = some 0) ∧
    (f = int64Least → f.toInt64? = some Int64.minValue) := by
  refine ⟨fun n => ⟨?_, ?_⟩, toInt64?_eq_none_iff, ?_, ?_⟩
  · rintro ⟨k, hk, rfl⟩
    obtain ⟨hfinite, hvalue⟩ := toInt64?_eq_some_iff.1 hk
    exact ⟨hfinite, hvalue, k.le_toInt, k.toInt_lt⟩
  · rintro ⟨hfinite, hvalue, hlo, hhi⟩
    have htoInt := Int64.toInt_ofInt_of_le hlo hhi
    exact ⟨Int64.ofInt n, toInt64?_eq_some_iff.2 ⟨hfinite, by rw [hvalue, htoInt]⟩, htoInt⟩
  · intro h
    obtain ⟨hfinite, hvalue⟩ := value_of_isZero h
    exact toInt64?_eq_some_iff.2 ⟨hfinite, by rw [hvalue, Int64.toInt_zero, Int.cast_zero]⟩
  · rintro rfl
    refine toInt64?_eq_some_iff.2 ⟨by decide, ?_⟩
    rw [value_int64Least, Int64.toInt_minValue]
    norm_num

/-- The negative zero and the two ends of the range. -/
theorem toInt64?_exact_samples :
    isZero ⟨0x8000000000000000⟩ = true ∧ toInt64? ⟨0x8000000000000000⟩ = some 0 ∧
    int64Least.toInt64? = some Int64.minValue ∧ int64Bound.toInt64? = none := by
  refine ⟨by decide, (toInt64?_exact _).2.2.1 (by decide), (toInt64?_exact _).2.2.2 rfl, ?_⟩
  exact (toInt64?_exact _).2.1.2 (.inr (.inr (.inr value_int64Bound.ge)))

end Binary64

end LuaBytecode
