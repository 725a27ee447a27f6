/-
  From integers to doubles, and back.

  1. **Packing** — a leading significand `m` of 53 bits and a binary exponent `e` are stored as one rank, and
     that rank denotes `m · 2 ^ (e - 52)`.  At `m = 2 ^ 53` the sum carries into the exponent, and what it
     denotes is still the product (`magnitudeAt_packed`).

  2. **Widening rounds to the nearest** — the significand of an integer is the integer itself, shifted, or its
     quotient rounded to the nearest.  Within one exponent the neighbours of a rank are one unit away.  The
     first rank of an exponent has a nearer neighbour below, and the carried one a farther neighbour above, but
     the integer does not lie on that side.

  3. **The way back** — a widened integer is an integer again, and up to the middle below `2 ^ 63` it is in
     range.  Every multiple of 1024 in range is a double, so rounding moves an integer by at most 512.
-/
import LuaBytecode.Proofs.Number.Nearest
import LuaBytecode.Proofs.Number.Narrowing
import LuaBytecode.Value.Basic

namespace LuaBytecode

/-- A half-even rounded quotient is within half of the quotient, and strictly so if it is odd. -/
theorem roundDiv_toEven_spec {n d q : Nat} (hd : 0 < d) (hq : roundDiv .toEven n d = q) :
    2 * (q * d) ≤ 2 * n + d ∧ 2 * n ≤ 2 * (q * d) + d ∧
    (q % 2 = 0 ∨ (2 * (q * d) < 2 * n + d ∧ 2 * n < 2 * (q * d) + d)) := by
  have hn : n / d * d + n % d = n := Nat.div_add_mod' n d
  have hr := Nat.mod_lt n hd
  have hsucc : (n / d + 1) * d = n / d * d + d := Nat.succ_mul _ _
  unfold roundDiv at hq
  dsimp only at hq
  split at hq
  · subst hq
    omega
  · split at hq
    · subst hq
      omega
    · rcases Nat.mod_two_eq_zero_or_one (n / d) with heven | hodd
      · rw [heven, Nat.add_zero] at hq
        subst hq
        omega
      · rw [hodd] at hq
        subst hq
        omega

namespace Binary64

variable {e m n : Nat}

/-! ## Packing -/

/-- The rank that stores a 53-bit significand with a binary exponent. -/
def packed (e m : Nat) : Nat := (e + 1022) * 0x10000000000000 + m

/-- A significand that has become the next power of two is packed as the first of the next exponent, and
    this is the right magnitude. -/
theorem magnitudeAt_packed (hlo : 0x10000000000000 ≤ m) (hhi : m ≤ 0x20000000000000) :
    magnitudeAt (packed e m) = m * 2 ^ ((e : Int) - 52) := by
  unfold magnitudeAt
  rcases hhi.lt_or_eq with hlt | rfl
  · have hsignificand : significandAt (packed e m) = m := by
      unfold significandAt packed
      split <;> omega
    have hscale : scaleAt (packed e m) = e - 52 := by
      unfold scaleAt packed
      omega
    rw [hsignificand, hscale]
  · have hsignificand : significandAt (packed e 0x20000000000000) = 0x10000000000000 := by
      unfold significandAt packed
      split <;> omega
    have hscale : scaleAt (packed e 0x20000000000000) = e - 52 + 1 := by
      unfold scaleAt packed
      omega
    rw [hsignificand, hscale, zpow_add_one₀ (by norm_num)]
    push_cast
    ring

/-- A packed rank catches what its significand is nearest to within the exponent. -/
theorem catches_packed {x : Rat} {u : Rat} (hu : u = 2 ^ ((e : Int) - 52)) (hlo : 0x10000000000000 ≤ m)
    (hhi : m ≤ 0x20000000000000) (hfirst : 0x10000000000000 * u ≤ x) (hlast : x < 0x20000000000000 * u)
    (habove : 2 * (m * u) ≤ 2 * x + u) (hbelow : 2 * x ≤ 2 * (m * u) + u)
    (hinside : m % 2 = 0 ∨ (2 * (m * u) < 2 * x + u ∧ 2 * x < 2 * (m * u) + u)) :
    Catches (packed e m : Nat) x := by
  have hself : valueAt (packed e m : Nat) = m * u := by
    rw [valueAt_natCast, magnitudeAt_packed hlo hhi, hu]
  have hlow : valueAt ((packed e m : Nat) - 1) + valueAt (packed e m : Nat) < 2 * x ∨
      valueAt ((packed e m : Nat) - 1) + valueAt (packed e m : Nat) = 2 * (m * u) - u := by
    rcases hlo.lt_or_eq with hlt | rfl
    · obtain ⟨k, rfl⟩ : ∃ k, m = k + 1 := ⟨m - 1, by omega⟩
      have hpred : ((packed e (k + 1) : Nat) : Int) - 1 = (packed e k : Nat) := by
        unfold packed
        omega
      rw [hself, hpred, valueAt_natCast, magnitudeAt_packed (by omega) (by omega), ← hu]
      push_cast
      exact .inr (by ring)
    · -- below the first rank of the exponent there is nothing to catch
      have hpred := strictMono_valueAt (sub_one_lt ((packed e 0x10000000000000 : Nat) : Int))
      push_cast at hself
      exact .inl (by linarith)
  have hhigh : 2 * x < valueAt (packed e m : Nat) + valueAt ((packed e m : Nat) + 1) ∨
      valueAt (packed e m : Nat) + valueAt ((packed e m : Nat) + 1) = 2 * (m * u) + u := by
    rcases hhi.lt_or_eq with hlt | rfl
    · have hsucc : ((packed e m : Nat) : Int) + 1 = (packed e (m + 1) : Nat) := by
        unfold packed
        omega
      rw [hself, hsucc, valueAt_natCast, magnitudeAt_packed (by omega) (by omega), ← hu]
      push_cast
      exact .inr (by ring)
    · -- nor above the carried one
      have hsucc := strictMono_valueAt (lt_add_one ((packed e 0x20000000000000 : Nat) : Int))
      push_cast at hself
      exact .inl (by linarith)
  constructor
  · rcases hlow with h | h <;> linarith
  · rcases hhigh with h | h <;> linarith
  · rcases hinside with heven | ⟨hstrictLo, hstrictHi⟩
    · left
      unfold packed
      omega
    · right
      constructor
      · rcases hlow with h | h <;> linarith
      · rcases hhigh with h | h <;> linarith

/-! ## Widening -/

/-- The significand of an integer, of 53 bits. -/
def leading (n : Nat) : Nat :=
  if n.log2 ≤ 52 then n * 2 ^ (52 - n.log2) else roundDiv .toEven n (2 ^ (n.log2 - 52))

/-- What an integer is rounded to. -/
def rounded (n : Nat) : Rat := leading n * 2 ^ ((n.log2 : Int) - 52)

/-- Up to 53 bits nothing is dropped. -/
theorem rounded_of_log2_le (h : n.log2 ≤ 52) : rounded n = n := by
  obtain ⟨k, hk⟩ : ∃ k : Nat, 52 = n.log2 + k := ⟨52 - n.log2, by omega⟩
  have hexponent : (n.log2 : Int) - 52 = -(k : Int) := by omega
  rw [rounded, leading, if_pos h, hexponent, show 52 - n.log2 = k by omega, zpow_neg, zpow_natCast]
  push_cast
  rw [mul_assoc, mul_inv_cancel₀ (by positivity), mul_one]

/-- Above that, the result is a multiple of the unit. -/
theorem rounded_of_lt_log2 (h : 52 < n.log2) :
    rounded n = (roundDiv .toEven n (2 ^ (n.log2 - 52)) * 2 ^ (n.log2 - 52) : Nat) := by
  have hexponent : (n.log2 : Int) - 52 = ((n.log2 - 52 : Nat) : Int) := by omega
  rw [rounded, leading, if_neg (by omega), hexponent, zpow_natCast]
  push_cast
  rfl

/-- A widened integer is an integer. -/
theorem exists_rounded_eq (n : Nat) : ∃ k : Nat, rounded n = k := by
  rcases le_or_gt n.log2 52 with h | h
  · exact ⟨n, rounded_of_log2_le h⟩
  · exact ⟨_, rounded_of_lt_log2 h⟩

/-- **Integers with at most 53 significant bits stay as they are.** -/
theorem rounded_of_eq (hn : n = m * 2 ^ e) (hm : m < 0x20000000000000) : rounded n = n := by
  rcases le_or_gt n.log2 52 with h | h
  · exact rounded_of_log2_le h
  · have hne : n ≠ 0 := by
      rintro rfl
      exact absurd h (by decide)
    have hunit : n.log2 - 52 ≤ e := by
      have hpow : 2 ^ n.log2 < 2 ^ (53 + e) :=
        calc 2 ^ n.log2 ≤ n := Nat.log2_self_le hne
          _ = m * 2 ^ e := hn
          _ < 2 ^ 53 * 2 ^ e := Nat.mul_lt_mul_of_pos_right hm (by positivity)
          _ = 2 ^ (53 + e) := (pow_add 2 53 e).symm
      have := (Nat.pow_lt_pow_iff_right (by decide)).1 hpow
      omega
    have hdvd : 2 ^ (n.log2 - 52) ∣ n := ((pow_dvd_pow 2 hunit).mul_left m).trans (dvd_of_eq hn.symm)
    have hround : roundDiv .toEven n (2 ^ (n.log2 - 52)) = n / 2 ^ (n.log2 - 52) := by
      simp [roundDiv, Nat.mod_eq_zero_of_dvd hdvd]
    rw [rounded_of_lt_log2 h, hround, Nat.div_mul_cancel hdvd]

section Unit

variable {u : Rat} (hu : u = 2 ^ ((n.log2 : Int) - 52))

include hu

/-- An integer lies between the first integer of its exponent and that of the next, in units of the exponent. -/
theorem log2_bounds (hn : n ≠ 0) : 0x10000000000000 * u ≤ n ∧ (n : Rat) < 0x20000000000000 * u := by
  have hfirst : (0x10000000000000 : Rat) * u = (2 ^ n.log2 : Nat) := by
    rw [hu, zpow_sub₀ (by norm_num), zpow_natCast]
    push_cast
    ring
  have hlast : (0x20000000000000 : Rat) * u = (2 ^ (n.log2 + 1) : Nat) := by
    rw [pow_succ, Nat.cast_mul, ← hfirst]
    push_cast
    ring
  rw [hfirst, hlast]
  exact ⟨by exact_mod_cast Nat.log2_self_le hn, by exact_mod_cast Nat.lt_log2_self⟩

/-- The significand is the nearest one. -/
theorem leading_spec :
    2 * (leading n * u) ≤ 2 * (n : Rat) + u ∧ 2 * (n : Rat) ≤ 2 * (leading n * u) + u ∧
    (leading n % 2 = 0 ∨ (2 * (leading n * u) < 2 * (n : Rat) + u ∧ 2 * (n : Rat) < 2 * (leading n * u) + u)) := by
  have hpos : 0 < u := hu ▸ zpow_pos (by norm_num) _
  rcases le_or_gt n.log2 52 with h | h
  · have hexact : leading n * u = n := by rw [hu, ← rounded, rounded_of_log2_le h]
    rw [hexact]
    exact ⟨by linarith, by linarith, .inr ⟨by linarith, by linarith⟩⟩
  · have hunit : u = (2 ^ (n.log2 - 52) : Nat) := by
      have hexponent : (n.log2 : Int) - 52 = ((n.log2 - 52 : Nat) : Int) := by omega
      rw [hu, hexponent, zpow_natCast]
      push_cast
      rfl
    have hleading : roundDiv .toEven n (2 ^ (n.log2 - 52)) = leading n := by rw [leading, if_neg (by omega)]
    rw [hunit]
    exact_mod_cast roundDiv_toEven_spec (by positivity) hleading

/-- The leading bits of a number are a significand of 53 bits, or the next power of two if they were rounded
    up to it. -/
theorem leading_bounds (hn : n ≠ 0) : 0x10000000000000 ≤ leading n ∧ leading n ≤ 0x20000000000000 := by
  have hpos : 0 < u := hu ▸ zpow_pos (by norm_num) _
  obtain ⟨hfirst, hlast⟩ := log2_bounds hu hn
  obtain ⟨habove, hbelow, -⟩ := leading_spec hu
  have hlo : (2 * 0x10000000000000 - 1 : Rat) * u ≤ 2 * leading n * u := by linarith
  have hhi : (2 * leading n : Rat) * u < (2 * 0x20000000000000 + 1) * u := by linarith
  have hlo' : 2 * 0x10000000000000 ≤ 2 * leading n + 1 := by
    have := le_of_mul_le_mul_right hlo hpos
    rw [sub_le_iff_le_add] at this
    exact_mod_cast this
  have hhi' : 2 * leading n < 2 * 0x20000000000000 + 1 := by
    have := lt_of_mul_lt_mul_right hhi hpos.le
    exact_mod_cast this
  omega

end Unit

/-- The bits of a widened integer, which are a rank, and what that rank catches.  From `2 ^ 1024` on there is
    no exponent to store. -/
theorem ofNat_spec (n : Nat) (h : n.log2 ≤ 1023) :
    (ofNat n).bits.toNat ≤ (n.log2 + 1024) * 0x10000000000000 ∧
    Catches (ofNat n).bits.toNat n ∧ valueAt (ofNat n).bits.toNat = rounded n := by
  by_cases hn : n = 0
  · subst hn
    have hzero : valueAt ((ofNat 0).bits.toNat : Int) = (0 : Nat) := by
      rw [valueAt_natCast]
      exact magnitudeAt_zero
    refine ⟨by decide, hzero ▸ catches_valueAt _, ?_⟩
    rw [hzero, rounded_of_log2_le (by decide)]
  · obtain ⟨hlo, hhi⟩ := leading_bounds rfl hn
    obtain ⟨hfirst, hlast⟩ := log2_bounds rfl hn
    obtain ⟨habove, hbelow, hinside⟩ := leading_spec (n := n) rfl
    have hbits : (ofNat n).bits.toNat = packed n.log2 (leading n) := by
      have hlt : packed n.log2 (leading n) < 2 ^ 64 := by
        unfold packed
        omega
      rw [ofNat, if_neg hn]
      exact UInt64.toNat_ofNat_of_lt' hlt
    rw [hbits]
    refine ⟨?_, catches_packed rfl hlo hhi hfirst hlast habove hbelow hinside, ?_⟩
    · unfold packed
      omega
    · rw [valueAt_natCast, magnitudeAt_packed hlo hhi, rounded]

/-- An integer is its magnitude on the side of its sign. -/
theorem cast_eq_ite (n : Int) : (n : Rat) = if n < 0 then -(n.natAbs : Rat) else n.natAbs := by
  split
  · rw [← Int.cast_natCast, ← Int.cast_neg, Int.cast_inj]
    omega
  · rw [← Int.cast_natCast, Int.cast_inj]
    omega

/-- The place of a widened integer is that of its magnitude, on the side of its sign. -/
theorem order_ofInt {n : Int} (h : n.natAbs.log2 ≤ 1023) :
    (ofInt n).order = if n < 0 then -((ofNat n.natAbs).bits.toNat : Int) else (ofNat n.natAbs).bits.toNat := by
  obtain ⟨hbits, -⟩ := ofNat_spec n.natAbs h
  have hlt : (ofNat n.natAbs).bits.toNat < 0x8000000000000000 := by omega
  unfold ofInt
  split
  · exact order_negated hlt
  · exact order_of_lt hlt

/-- The sign is put back after rounding the magnitude. -/
theorem value_ofInt {n : Int} (h : n.natAbs.log2 ≤ 1023) :
    (ofInt n).value = if n < 0 then -rounded n.natAbs else rounded n.natAbs := by
  obtain ⟨-, -, hvalue⟩ := ofNat_spec n.natAbs h
  rw [value_eq_valueAt, order_ofInt h]
  split
  · rw [valueAt_neg, hvalue]
  · exact hvalue

/-- **Widening rounds to the nearest double**, a half going to the even one. -/
theorem isNearest_ofInt {n : Int} (h : n.natAbs.log2 ≤ 1023) : IsNearest n (ofInt n) := by
  obtain ⟨hbits, hcatches, -⟩ := ofNat_spec n.natAbs h
  have hplace := order_ofInt h
  have hrank := (ofInt n).natAbs_order
  apply isNearest_of_catches
  · rw [isNaN_eq_false_iff]
    omega
  · rw [hplace, cast_eq_ite]
    split
    · exact hcatches.neg
    · exact hcatches

/-- Rounding up does not reach the infinity below the last exponent. -/
theorem isFinite_ofInt {n : Int} (h : n.natAbs.log2 ≤ 1022) : (ofInt n).isFinite = true := by
  obtain ⟨hbits, -⟩ := ofNat_spec n.natAbs (by omega)
  have hplace := order_ofInt (n := n) (by omega)
  have hrank := (ofInt n).natAbs_order
  rw [isFinite_iff]
  omega

/-- An integer that is a double has at most 53 significant bits. -/
theorem exists_of_value_eq {f : Binary64} {n : Int} (h : f.value = n) :
    ∃ m e : Nat, |n| = m * 2 ^ e ∧ m < 2 ^ 53 := by
  have hsignificand : f.significand < 2 ^ 53 := by
    rw [significand_eq]
    exact significandAt_lt _
  rcases le_or_gt 0 f.scale with hscale | hscale
  · have htruncate : f.truncate = n := by
      rw [value_of_nonneg_scale hscale] at h
      exact_mod_cast h
    refine ⟨f.significand, f.scale.toNat, ?_, hsignificand⟩
    rw [← htruncate, truncate, if_pos hscale, Int.abs_eq_natAbs, natAbs_signed, Nat.pow_eq]
    push_cast
    rfl
  · obtain ⟨k, hk⟩ : ∃ k : Nat, f.scale = -(k : Int) := ⟨(-f.scale).toNat, by omega⟩
    have hproduct := significand_of_value_eq hk h
    refine ⟨n.natAbs, 0, by rw [pow_zero, mul_one, Int.abs_eq_natAbs], ?_⟩
    calc n.natAbs ≤ n.natAbs * 2 ^ k := Nat.le_mul_of_pos_right _ (by positivity)
      _ = f.significand := hproduct.symm
      _ < 2 ^ 53 := hsignificand

/-- **Exactly the integers with at most 53 significant bits keep their value.** -/
theorem value_ofInt_eq_self_iff {n : Int} (h : n.natAbs.log2 ≤ 1023) :
    (ofInt n).value = n ↔ ∃ m e : Nat, |n| = m * 2 ^ e ∧ m < 2 ^ 53 := by
  refine ⟨exists_of_value_eq, ?_⟩
  rintro ⟨m, e, hn, hm⟩
  have hnat : n.natAbs = m * 2 ^ e := by
    rw [Int.abs_eq_natAbs] at hn
    exact_mod_cast hn
  rw [value_ofInt h, rounded_of_eq hnat hm, cast_eq_ite n]

/-! ## The signed 64-bit range -/

theorem log2_le_of_natAbs_le {n : Int} (h : n.natAbs ≤ 2 ^ 63) : n.natAbs.log2 ≤ 63 := by
  by_cases hzero : n.natAbs = 0
  · rw [hzero]
    decide
  · exact Nat.lt_succ_iff.1 ((Nat.log2_lt hzero).2 (by omega))

/-- In the signed 64-bit range no exponent is out of reach. -/
theorem isNearest_ofInt_of_le {n : Int} (h : n.natAbs ≤ 2 ^ 63) : IsNearest n (ofInt n) :=
  isNearest_ofInt ((log2_le_of_natAbs_le h).trans (by decide))

/-- Greater integers do not widen to lesser doubles. -/
theorem value_ofInt_le {n k : Int} (hn : n.natAbs ≤ 2 ^ 63) (hk : k.natAbs ≤ 2 ^ 63) (h : n ≤ k) :
    (ofInt n).value ≤ (ofInt k).value :=
  (isNearest_ofInt_of_le hn).value_le_of_le (isNearest_ofInt_of_le hk) (by exact_mod_cast h)

/-- The nearest multiple of 1024 is a double. -/
theorem exists_multiple_near {n : Int} (h : n.natAbs ≤ 2 ^ 63) :
    ∃ k : Int, k.natAbs ≤ 2 ^ 63 ∧ |n - k| ≤ 512 ∧ (ofInt k).value = k := by
  obtain ⟨q, hq⟩ : ∃ q, (n + 512) / 1024 = q := ⟨_, rfl⟩
  have hbound : (q * 1024).natAbs ≤ 2 ^ 63 := by omega
  refine ⟨q * 1024, hbound, by rw [abs_le]; omega, ?_⟩
  rw [value_ofInt_eq_self_iff ((log2_le_of_natAbs_le hbound).trans (by decide)), Int.abs_eq_natAbs]
  by_cases hlast : q.natAbs < 2 ^ 53
  · exact ⟨q.natAbs, 10, by omega, hlast⟩
  · exact ⟨1, 63, by omega, by decide⟩

section Int64

variable (i : Int64)

theorem natAbs_toInt_le : i.toInt.natAbs ≤ 2 ^ 63 := by
  have hlo := i.le_toInt
  have hhi := i.toInt_lt
  omega

theorem isNearest_ofInt_toInt : IsNearest i.toInt (ofInt i.toInt) :=
  isNearest_ofInt_of_le (natAbs_toInt_le i)

theorem isFinite_ofInt_toInt : (ofInt i.toInt).isFinite = true :=
  isFinite_ofInt ((log2_le_of_natAbs_le (natAbs_toInt_le i)).trans (by decide))

/-- A widened integer is an integer again. -/
theorem exists_value_ofInt_toInt : ∃ k : Int, (ofInt i.toInt).value = k := by
  obtain ⟨k, hk⟩ := exists_rounded_eq i.toInt.natAbs
  rw [value_ofInt ((log2_le_of_natAbs_le (natAbs_toInt_le i)).trans (by decide)), hk]
  split
  · exact ⟨-k, by push_cast; rfl⟩
  · exact ⟨k, by push_cast; rfl⟩

/-- **Widening moves an integer by at most 512.** -/
theorem abs_value_ofInt_sub_le : |(ofInt i.toInt).value - i.toInt| ≤ 512 := by
  obtain ⟨k, hk, hnear, hvalue⟩ := exists_multiple_near (natAbs_toInt_le i)
  calc |(ofInt i.toInt).value - i.toInt| = |(i.toInt : Rat) - (ofInt i.toInt).value| := abs_sub_comm _ _
    _ ≤ |(i.toInt : Rat) - (ofInt k).value| :=
        (isNearest_ofInt_toInt i).closest _ (isNearest_ofInt_of_le hk).isNaN_eq
    _ = |((i.toInt - k : Int) : Rat)| := by rw [hvalue, Int.cast_sub]
    _ ≤ 512 := by exact_mod_cast hnear

/-- **The middle below `2 ^ 63`** goes up, as `2 ^ 63` is even; everything below it stays in range. -/
theorem value_ofInt_bound_iff : 2 ^ 63 ≤ (ofInt i.toInt).value ↔ 2 ^ 63 - 512 ≤ i.toInt := by
  rw [← value_int64Bound]
  constructor
  · intro h
    by_contra hlt
    have hle : (ofInt i.toInt).value ≤ (ofInt (2 ^ 63 - 513)).value :=
      value_ofInt_le (natAbs_toInt_le i) (by decide) (by omega)
    have hbelow : ofInt (2 ^ 63 - 513) = ⟨0x43DFFFFFFFFFFFFF⟩ := by decide +kernel
    rw [hbelow] at hle
    exact absurd (h.trans hle) (not_le.2 (value_lt_iff.2 (by decide)))
  · intro h
    have hmiddle : ofInt (2 ^ 63 - 512) = int64Bound := by decide +kernel
    rw [← hmiddle]
    exact value_ofInt_le (by decide) (natAbs_toInt_le i) h

theorem value_ofInt_least_le : -2 ^ 63 ≤ (ofInt i.toInt).value := by
  have hleast : ofInt (-2 ^ 63) = int64Least := by decide +kernel
  rw [← value_int64Least, ← hleast]
  exact value_ofInt_le (by decide) (natAbs_toInt_le i) i.le_toInt

/-- A widened integer comes back exactly if it stayed in range. -/
theorem toInt64?_ofInt_eq_none_iff : (ofInt i.toInt).toInt64? = none ↔ 2 ^ 63 - 512 ≤ i.toInt := by
  obtain ⟨k, hk⟩ := exists_value_ofInt_toInt i
  have hfinite := isFinite_ofInt_toInt i
  have hlow := value_ofInt_least_le i
  rw [toInt64?_eq_none_iff, ← value_ofInt_bound_iff]
  constructor
  · rintro (hinfinite | hfraction | hbelow | hbound)
    · rw [hfinite] at hinfinite
      cases hinfinite
    · exact absurd hk (hfraction k)
    · exact absurd hlow (not_le.2 hbelow)
    · exact hbound
  · exact fun h => .inr (.inr (.inr h))

end Int64

end Binary64

namespace Value

open Binary64

/-- **Widening an integer and narrowing it again.**  The widened integer is a nearest double, and there is no
    way back exactly from the middle below `2 ^ 63` on.  Below it, the integer that comes back is that double
    and at most 512 away; it is the integer one started with exactly if that has at most 53 significant
    bits.  Greater integers widen to greater or equal doubles. -/
theorem narrowed_widened (i : Int64) :
    ∃ f : Binary64, (Value.int i).toNumber? = some f ∧ IsNearest i.toInt f ∧
      ((Value.float f).toInteger? = none ↔ 2 ^ 63 - 512 ≤ i.toInt) ∧
      (i.toInt < 2 ^ 63 - 512 → ∃ j : Int64,
        (Value.float f).toInteger? = some j ∧ f.value = j.toInt ∧ |j.toInt - i.toInt| ≤ 512) ∧
      ((Value.float f).toInteger? = some i ↔ ∃ m e : Nat, |i.toInt| = m * 2 ^ e ∧ m < 2 ^ 53) ∧
      ∀ k : Int64, i ≤ k → ∃ g : Binary64, (Value.int k).toNumber? = some g ∧ f.numLe g = true := by
  refine ⟨ofInt i.toInt, rfl, isNearest_ofInt_toInt i, toInt64?_ofInt_eq_none_iff i, ?_, ?_, ?_⟩
  · intro hlt
    have hsome : (ofInt i.toInt).toInt64? ≠ none := by
      rw [Ne, toInt64?_ofInt_eq_none_iff]
      omega
    obtain ⟨j, hj⟩ := Option.ne_none_iff_exists'.1 hsome
    have hvalue := (toInt64?_eq_some_iff.1 hj).2
    have hnear := abs_value_ofInt_sub_le i
    rw [hvalue] at hnear
    exact ⟨j, hj, hvalue, by exact_mod_cast hnear⟩
  · have hlog := (log2_le_of_natAbs_le (natAbs_toInt_le i)).trans (show 63 ≤ 1023 by decide)
    rw [← value_ofInt_eq_self_iff hlog]
    exact toInt64?_eq_some_iff.trans (and_iff_right (isFinite_ofInt_toInt i))
  · intro k hik
    refine ⟨ofInt k.toInt, rfl, ?_⟩
    rw [numLe_iff (isNearest_ofInt_toInt i).isNaN_eq (isNearest_ofInt_toInt k).isNaN_eq]
    exact value_ofInt_le (natAbs_toInt_le i) (natAbs_toInt_le k) (Int64.le_iff_toInt_le.1 hik)

/-- The last integer that comes back, the first that does not, and their order. -/
theorem narrowed_widened_samples :
    ∃ f g : Binary64, (Value.int 9223372036854775295).toNumber? = some f ∧
      (∃ j : Int64, (Value.float f).toInteger? = some j ∧ f.value = j.toInt ∧
        |j.toInt - 9223372036854775295| ≤ 512) ∧
      (Value.int 9223372036854775296).toNumber? = some g ∧ (Value.float g).toInteger? = none ∧
      f.numLe g = true := by
  obtain ⟨f, hf, -, -, hback, -, hmono⟩ := narrowed_widened 9223372036854775295
  obtain ⟨g, hg, hle⟩ := hmono 9223372036854775296 (by decide)
  obtain ⟨g', hg', -, hnone, -⟩ := narrowed_widened 9223372036854775296
  obtain rfl : g = g' := Option.some.inj (hg.symm.trans hg')
  exact ⟨f, g, hf, hback (by decide), hg, hnone.2 (by decide), hle⟩

end Value

end LuaBytecode
