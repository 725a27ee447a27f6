/-
  Reading numerals.

  1. **The notation** — decimal numerals as they are commonly read: digits are a natural, a sign before it
     makes an integer, a point inside the digits divides by as many tens as there are digits after it, and an
     exponent after an `e` multiplies by tens.  Nothing is rounded: what is read is a decimal with its sign, so
     `-0.0` and `0.0` are read differently.

  2. **Integers** — the text of an integer is read as that integer, and has no leading zeros and no sign at
     zero.

  3. **Doubles** — in each of the four layouts the digits that are written are read again, and the zeros that
     fill the gaps change the number as the exponent says.  So the text of a double is read as the decimal that
     was chosen for it.
-/
import LuaBytecode.Number.Numeral
import LuaBytecode.Proofs.Number.Shortest

namespace LuaBytecode

namespace Numeral

variable {c : Char} {s t ds : List Char} {d : Decimal} {e : Int}

/-! ## The notation -/

/-- The text before the first `c`, and the text after it if there is one. -/
def cut (c : Char) : List Char → List Char × Option (List Char)
  | [] => ([], none)
  | x :: s => if x = c then ([], some s) else (x :: (cut c s).1, (cut c s).2)

/-- One decimal digit at least, and nothing else. -/
def IsDigits (s : List Char) : Prop := s ≠ [] ∧ ∀ c ∈ s, c.isDigit = true

instance : DecidablePred IsDigits := fun s =>
  decidable_of_iff ((!s.isEmpty && s.all Char.isDigit) = true) (by simp [IsDigits])

/-- The number that digits spell. -/
def number (s : List Char) : Nat := Nat.ofDigitChars 10 s 0

def natural? (s : List Char) : Option Nat := if IsDigits s then some (number s) else none

def integer? : List Char → Option Int
  | '-' :: s => (natural? s).map fun n : Nat => -(n : Int)
  | s => (natural? s).map fun n : Nat => (n : Int)

/-- Digits, perhaps with a point that has digits on both sides. -/
def mantissa? (s : List Char) : Option Decimal :=
  match cut '.' s with
  | (whole, none) => (natural? whole).map fun n => ⟨n, 0⟩
  | (whole, some fraction) =>
    if IsDigits whole ∧ IsDigits fraction then some ⟨number (whole ++ fraction), -(fraction.length : Int)⟩
    else none

/-- A mantissa, perhaps with an exponent. -/
def decimal? (s : List Char) : Option Decimal :=
  match cut 'e' s with
  | (mantissa, none) => mantissa? mantissa
  | (mantissa, some exponent) => do
    let d ← mantissa? mantissa
    let e ← integer? exponent
    return ⟨d.digits, d.exponent + e⟩

/-- A decimal with a sign, which zero has as well. -/
structure SignedDecimal where
  negative : Bool
  magnitude : Decimal
  deriving DecidableEq

def SignedDecimal.value (d : SignedDecimal) : Rat := if d.negative then -d.magnitude.value else d.magnitude.value

def signed? : List Char → Option SignedDecimal
  | '-' :: s => (decimal? s).map (SignedDecimal.mk true)
  | s => (decimal? s).map (SignedDecimal.mk false)

/-! ## Parts -/

/-- Without the mark there is nothing to cut off. -/
theorem cut_of_not_mem (h : c ∉ s) : cut c s = (s, none) := by
  induction s with
  | nil => rfl
  | cons x s ih =>
    rw [List.mem_cons, not_or] at h
    rw [cut, if_neg (Ne.symm h.1), ih h.2]

/-- The first mark is where the text is cut. -/
theorem cut_append (h : c ∉ s) : cut c (s ++ c :: t) = (s, some t) := by
  induction s with
  | nil => simp [cut]
  | cons x s ih =>
    rw [List.mem_cons, not_or] at h
    rw [List.cons_append, cut, if_neg (Ne.symm h.1), ih h.2]

/-- What is not the mark itself is before it or after it. -/
theorem mem_cut {x : Char} (hmem : x ∈ s) (hne : x ≠ c) : x ∈ (cut c s).1 ∨ ∃ t, (cut c s).2 = some t ∧ x ∈ t := by
  induction s with
  | nil => cases hmem
  | cons y s ih =>
    rw [cut]
    split
    · rename_i hy
      rcases List.mem_cons.1 hmem with rfl | hmem
      · exact absurd hy hne
      · exact .inr ⟨s, rfl, hmem⟩
    · rcases List.mem_cons.1 hmem with rfl | hmem
      · exact .inl List.mem_cons_self
      · exact (ih hmem).imp_left (List.mem_cons_of_mem y)

namespace IsDigits

theorem not_mem (h : IsDigits s) (hc : c.isDigit = false) : c ∉ s := by
  intro hmem
  have hdigit := h.2 c hmem
  rw [hc] at hdigit
  cases hdigit

theorem append (hs : IsDigits s) (ht : ∀ c ∈ t, c.isDigit = true) : IsDigits (s ++ t) := by
  refine ⟨List.append_ne_nil_of_left_ne_nil hs.1 t, ?_⟩
  intro c hmem
  rcases List.mem_append.1 hmem with hmem | hmem
  · exact hs.2 c hmem
  · exact ht c hmem

/-- The exponent mark stands neither among digits nor at the point. -/
theorem not_mem_point (hs : IsDigits s) (ht : IsDigits t) : 'e' ∉ s ++ '.' :: t := by
  intro hmem
  rcases List.mem_append.1 hmem with hmem | hmem
  · exact hs.not_mem (by decide) hmem
  · exact ht.not_mem (by decide) ((List.mem_cons.1 hmem).resolve_left (by decide))

end IsDigits

/-- What is written for a natural number are digits, and at least one. -/
theorem isDigits_toDigits (n : Nat) : IsDigits (Nat.toDigits 10 n) :=
  ⟨Nat.toDigits_ne_nil, fun _ => Nat.isDigit_of_mem_toDigits (by decide) (by decide)⟩

theorem isDigit_of_mem_zeros {k : Nat} (h : c ∈ List.replicate k '0') : c.isDigit = true := by
  rw [List.eq_of_mem_replicate h]
  decide

/-- Writing a natural number and reading it gives the number. -/
theorem number_toDigits (n : Nat) : number (Nat.toDigits 10 n) = n := Nat.ofDigitChars_ten_toDigits

/-- Zeros after the digits multiply by ten. -/
theorem number_append_zeros (s : List Char) (k : Nat) : number (s ++ List.replicate k '0') = number s * 10 ^ k := by
  rw [number, Nat.ofDigitChars_append, Nat.ofDigitChars_replicate_zero, mul_comm]
  rfl

/-- Zeros before the digits change nothing. -/
theorem number_zeros_append (k : Nat) (s : List Char) : number (List.replicate k '0' ++ s) = number s := by
  rw [number, Nat.ofDigitChars_append, Nat.ofDigitChars_replicate_zero, mul_zero]
  rfl

theorem natural?_of_isDigits (h : IsDigits s) : natural? s = some (number s) := if_pos h

theorem natural?_eq_none (h : ¬ IsDigits s) : natural? s = none := if_neg h

theorem mantissa?_of_isDigits (h : IsDigits s) : mantissa? s = some ⟨number s, 0⟩ := by
  rw [mantissa?, cut_of_not_mem (h.not_mem (by decide))]
  show (natural? s).map _ = _
  rw [natural?_of_isDigits h]
  rfl

/-- The point makes the digits behind it count by negative powers. -/
theorem mantissa?_point (hs : IsDigits s) (ht : IsDigits t) :
    mantissa? (s ++ '.' :: t) = some ⟨number (s ++ t), -(t.length : Int)⟩ := by
  rw [mantissa?, cut_append (hs.not_mem (by decide))]
  exact if_pos ⟨hs, ht⟩

theorem decimal?_of_not_mem (h : 'e' ∉ s) : decimal? s = mantissa? s := by
  rw [decimal?, cut_of_not_mem h]

/-- An exponent moves the point by as many places. -/
theorem decimal?_exponent (h : 'e' ∉ s) (hs : mantissa? s = some d) (ht : integer? t = some e) :
    decimal? (s ++ 'e' :: t) = some ⟨d.digits, d.exponent + e⟩ := by
  rw [decimal?, cut_append h]
  show (mantissa? s).bind _ = _
  rw [hs, Option.bind_some, ht]
  rfl

/-- A sign is no part of a magnitude. -/
theorem decimal?_minus (s : List Char) : decimal? ('-' :: s) = none := by
  have hdigits (s : List Char) : ¬ IsDigits ('-' :: s) := fun h => h.not_mem (by decide) List.mem_cons_self
  have hmantissa (s : List Char) : mantissa? ('-' :: s) = none := by
    rw [mantissa?, cut, if_neg (by decide)]
    cases (cut '.' s).2 with
    | none =>
      show (natural? _).map _ = _
      rw [natural?_eq_none (hdigits _), Option.map_none]
    | some fraction => exact if_neg (fun h => hdigits _ h.1)
  rw [decimal?, cut, if_neg (by decide)]
  cases (cut 'e' s).2 with
  | none => exact hmantissa _
  | some exponent =>
    show (mantissa? _).bind _ = _
    rw [hmantissa, Option.bind_none]

/-- A numeral that begins with a digit has no sign. -/
theorem signed?_of_decimal? (h : decimal? s = some d) : signed? s = some ⟨false, d⟩ := by
  unfold signed?
  split
  · rw [decimal?_minus] at h
    cases h
  · rw [h, Option.map_some]

/-- A minus is the sign and the rest is read as before. -/
theorem signed?_minus (h : decimal? s = some d) : signed? ('-' :: s) = some ⟨true, d⟩ := by
  rw [signed?, h, Option.map_some]

theorem integer?_of_isDigits (h : IsDigits s) : integer? s = some (number s : Int) := by
  unfold integer?
  split
  · exact absurd List.mem_cons_self (h.not_mem (by decide))
  · rw [natural?_of_isDigits h, Option.map_some]

/-- Other characters than digits and the sign make no integer. -/
theorem integer?_eq_none (hmem : c ∈ s) (hdigit : c.isDigit = false) (hsign : c ≠ '-') : integer? s = none := by
  unfold integer?
  split
  · rename_i s
    have htail := (List.mem_cons.1 hmem).resolve_left hsign
    rw [natural?_eq_none (fun h => h.not_mem hdigit htail), Option.map_none]
  · rw [natural?_eq_none (fun h => h.not_mem hdigit hmem), Option.map_none]

/-- Other characters than digits and the point make no mantissa. -/
theorem mantissa?_eq_none (hmem : c ∈ s) (hdigit : c.isDigit = false) (hpoint : c ≠ '.') : mantissa? s = none := by
  have hdigits {s : List Char} (h : c ∈ s) : ¬ IsDigits s := fun hs => hs.not_mem hdigit h
  have hcut := mem_cut hmem hpoint
  unfold mantissa?
  split
  · rename_i whole heq
    rw [heq] at hcut
    rcases hcut with hwhole | ⟨t, ht, -⟩
    · rw [natural?_eq_none (hdigits hwhole), Option.map_none]
    · cases ht
  · rename_i whole fraction heq
    rw [heq] at hcut
    apply if_neg
    rintro ⟨hwhole, hfraction⟩
    rcases hcut with hmem | ⟨t, ht, hmem⟩
    · exact hdigits hmem hwhole
    · cases ht
      exact hdigits hmem hfraction

/-- **A numeral is made of digits, a point, an exponent mark and signs.** -/
theorem signed?_eq_none (hmem : c ∈ s) (hdigit : c.isDigit = false) (hpoint : c ≠ '.') (hexponent : c ≠ 'e')
    (hsign : c ≠ '-') : signed? s = none := by
  have hdecimal {s : List Char} (hmem : c ∈ s) : decimal? s = none := by
    have hcut := mem_cut hmem hexponent
    unfold decimal?
    split
    · rename_i mantissa heq
      rw [heq] at hcut
      rcases hcut with hmem | ⟨t, ht, -⟩
      · exact mantissa?_eq_none hmem hdigit hpoint
      · cases ht
    · rename_i mantissa exponent heq
      rw [heq] at hcut
      rcases hcut with hmem | ⟨t, ht, hmem⟩
      · rw [mantissa?_eq_none hmem hdigit hpoint]
        rfl
      · cases ht
        rw [integer?_eq_none hmem hdigit hsign]
        cases mantissa? mantissa <;> rfl
  unfold signed?
  split
  · rw [hdecimal ((List.mem_cons.1 hmem).resolve_left hsign), Option.map_none]
  · rw [hdecimal hmem, Option.map_none]

/-! ## Integers -/

/-- Digits without leading zeros. -/
def IsCanonicalNatural (s : List Char) : Prop := IsDigits s ∧ (s.head? = some '0' → s = ['0'])

/-- A natural without leading zeros, or a sign and such a natural that is not zero. -/
def IsCanonicalInteger (s : List Char) : Prop :=
  IsCanonicalNatural s ∨ ∃ t, s = '-' :: t ∧ IsCanonicalNatural t ∧ t ≠ ['0']

/-- Only zero is written with a leading zero. -/
theorem head?_toDigits {n : Nat} (hn : n ≠ 0) : (Nat.toDigits 10 n).head? ≠ some '0' := by
  induction n using Nat.strong_induction_on with
  | _ n ih =>
    rcases lt_or_ge n 10 with hlt | hge
    · rw [Nat.toDigits_of_lt_base hlt, List.head?_cons, Ne, Option.some.injEq, Nat.digitChar_eq_zero]
      exact hn
    · rw [Nat.toDigits_of_base_le (by decide) hge, List.head?_append_of_ne_nil _ Nat.toDigits_ne_nil]
      exact ih (n / 10) (by omega) (by omega)

/-- So what is written for a natural number is canonical. -/
theorem isCanonicalNatural_toDigits (n : Nat) : IsCanonicalNatural (Nat.toDigits 10 n) := by
  refine ⟨isDigits_toDigits n, ?_⟩
  intro hhead
  by_cases hn : n = 0
  · rw [hn, Nat.toDigits_zero]
  · exact absurd hhead (head?_toDigits hn)

theorem toList_naturalText (n : Nat) : (naturalText n).toList = Nat.toDigits 10 n := String.toList_ofList

/-- An integer is its magnitude, behind a minus if it is negative. -/
theorem toList_integerText (n : Int) :
    (integerText n).toList = if n < 0 then '-' :: Nat.toDigits 10 n.natAbs else Nat.toDigits 10 n.natAbs := by
  unfold integerText
  split
  · rw [String.toList_append, toList_naturalText]
    rfl
  · exact toList_naturalText _

/-- Numbers that are written alike are the same, since they are read alike. -/
theorem naturalText_injective : Function.Injective naturalText := by
  intro n k h
  rw [← number_toDigits n, ← number_toDigits k, ← toList_naturalText, ← toList_naturalText, h]

/-- **The text of an integer is canonical.** -/
theorem isCanonicalInteger_integerText (n : Int) : IsCanonicalInteger (integerText n).toList := by
  rw [toList_integerText]
  split
  · refine .inr ⟨_, rfl, isCanonicalNatural_toDigits _, ?_⟩
    intro hzero
    exact head?_toDigits (by omega) (congrArg List.head? hzero)
  · exact .inl (isCanonicalNatural_toDigits _)

/-- **The text of an integer is read as that integer.** -/
theorem integer?_integerText (n : Int) : integer? (integerText n).toList = some n := by
  rw [toList_integerText]
  split
  · rw [integer?, natural?_of_isDigits (isDigits_toDigits _), Option.map_some, number_toDigits, Option.some.injEq]
    omega
  · rw [integer?_of_isDigits (isDigits_toDigits _), number_toDigits, Option.some.injEq]
    omega

/-- The text of an integer has digits and a sign only. -/
theorem not_mem_integerText (n : Int) (hdigit : c.isDigit = false) (hsign : c ≠ '-') :
    c ∉ (integerText n).toList := by
  intro hmem
  have hread := integer?_integerText n
  rw [integer?_eq_none hmem hdigit hsign] at hread
  cases hread

/-- **Different integers have different texts.** -/
theorem integerText_injective : Function.Injective integerText := by
  intro n k h
  apply Option.some.inj
  rw [← integer?_integerText n, ← integer?_integerText k, h]

/-! ## Doubles -/

section Layout

variable {style : NumeralStyle} {point : Int}

/-- **A positional numeral** is digits around a point, and the point stands where it should. -/
theorem exists_layPositional (hsuffix : style.wholeSuffix = ".0") (hds : IsDigits ds) :
    ∃ s t, style.layPositional ds point = s ++ '.' :: t ∧ IsDigits s ∧ IsDigits t ∧
      (number (s ++ t) : Rat) * 10 ^ (-(t.length : Int)) = number ds * 10 ^ (point - ds.length) := by
  unfold NumeralStyle.layPositional
  split
  · -- zeros fill the digits up to the point
    rename_i hwhole
    obtain ⟨k, hk⟩ : ∃ k : Nat, point = ds.length + k := ⟨(point - ds.length).toNat, by omega⟩
    have hzeros : point.toNat - ds.length = k := by omega
    refine ⟨ds ++ List.replicate k '0', ['0'], ?_, hds.append fun c => isDigit_of_mem_zeros, by decide, ?_⟩
    · rw [hzeros, hsuffix]
      rfl
    · have hdigits : ds ++ List.replicate k '0' ++ ['0'] = ds ++ List.replicate (k + 1) '0' := by
        rw [List.replicate_succ', List.append_assoc]
      rw [hdigits, number_append_zeros, hk, add_sub_cancel_left, zpow_natCast, List.length_singleton, pow_succ]
      push_cast
      rw [zpow_neg_one]
      field_simp
  · split
    · -- the point cuts the digits
      refine ⟨ds.take point.toNat, ds.drop point.toNat, rfl, ⟨?_, ?_⟩, ⟨?_, ?_⟩, ?_⟩
      · rw [Ne, List.take_eq_nil_iff]
        rintro (hzero | hnil)
        · omega
        · exact hds.1 hnil
      · exact fun c hmem => hds.2 c (List.mem_of_mem_take hmem)
      · rw [Ne, List.drop_eq_nil_iff]
        omega
      · exact fun c hmem => hds.2 c (List.mem_of_mem_drop hmem)
      · rw [List.take_append_drop, List.length_drop]
        congr 2
        omega
    · -- zeros fill the gap after the point
      refine ⟨['0'], List.replicate (-point).toNat '0' ++ ds, rfl, by decide, ⟨?_, ?_⟩, ?_⟩
      · exact List.append_ne_nil_of_right_ne_nil _ hds.1
      · intro c hmem
        rcases List.mem_append.1 hmem with hmem | hmem
        · exact isDigit_of_mem_zeros hmem
        · exact hds.2 c hmem
      · have hdigits : ['0'] ++ (List.replicate (-point).toNat '0' ++ ds)
            = List.replicate ((-point).toNat + 1) '0' ++ ds := by
          rw [List.replicate_succ]
          rfl
        rw [hdigits, number_zeros_append, List.length_append, List.length_replicate]
        congr 2
        omega

/-- **An exponent numeral** is a mantissa with one digit before the point, and the exponent that makes up for
    it. -/
theorem exists_layExponent (hplus : style.exponentPlus = "") (hds : IsDigits ds) :
    ∃ m, style.layExponent ds point = m ++ 'e' :: (integerText (point - 1)).toList ∧ 'e' ∉ m ∧
      mantissa? m = some ⟨number ds, 1 - ds.length⟩ := by
  have hexponent : (if point - 1 < 0 then [] else style.exponentPlus.toList) = [] := by
    rw [hplus]
    exact ite_self _
  unfold NumeralStyle.layExponent
  dsimp only
  rw [hexponent, List.nil_append]
  obtain ⟨x, rest, rfl⟩ := List.exists_cons_of_ne_nil hds.1
  cases rest with
  | nil => exact ⟨[x], rfl, hds.not_mem (by decide), mantissa?_of_isDigits hds⟩
  | cons y rest =>
    have hall := List.forall_mem_cons.1 hds.2
    have hx : IsDigits [x] := ⟨List.cons_ne_nil _ _, List.forall_mem_singleton.2 hall.1⟩
    have hrest : IsDigits (y :: rest) := ⟨List.cons_ne_nil _ _, hall.2⟩
    refine ⟨[x] ++ '.' :: y :: rest, rfl, hx.not_mem_point hrest, ?_⟩
    have hlength : ((x :: y :: rest).length : Int) = (y :: rest).length + 1 := by
      rw [List.length_cons, Nat.cast_add_one]
    rw [mantissa?_point hx hrest, List.singleton_append, hlength, sub_add_cancel_right]

/-- **The text of a decimal is read as a decimal of the same value**, and shows that it is no integer. -/
theorem decimal?_layDecimal (hsuffix : style.wholeSuffix = ".0") (hplus : style.exponentPlus = "") (d : Decimal) :
    ('.' ∈ style.layDecimal d ∨ 'e' ∈ style.layDecimal d) ∧
    ∃ r, decimal? (style.layDecimal d) = some r ∧ r.value = d.value := by
  have hds := isDigits_toDigits d.digits
  have hnumber := number_toDigits d.digits
  unfold NumeralStyle.layDecimal
  dsimp only
  split
  · obtain ⟨s, t, hlay, hs, ht, hvalue⟩ := exists_layPositional hsuffix hds
    rw [hlay]
    refine ⟨.inl (List.mem_append_right s List.mem_cons_self), ⟨number (s ++ t), -(t.length : Int)⟩, ?_, ?_⟩
    · rw [decimal?_of_not_mem (hs.not_mem_point ht), mantissa?_point hs ht]
    · rw [Decimal.value, hvalue, hnumber, add_sub_cancel_left, Decimal.value]
  · obtain ⟨m, hlay, hm, hmantissa⟩ := exists_layExponent hplus hds
    rw [hlay]
    refine ⟨.inr (List.mem_append_right m List.mem_cons_self), _,
      decimal?_exponent hm hmantissa (integer?_integerText _), ?_⟩
    unfold Decimal.value
    dsimp only
    rw [hnumber]
    congr 2
    ring

/-- The text of a finite double is its sign before the text of its decimal. -/
theorem toList_textOf (style : NumeralStyle) (d : Decimal) {f : Binary64} (h : f.isFinite = true) :
    (style.textOf d f).toList =
      if f.negative then '-' :: style.layDecimal d else style.layDecimal d := by
  have hnan := Binary64.isNaN_of_isFinite h
  unfold NumeralStyle.textOf
  rw [hnan, h]
  cases f.negative <;> simp

/-- **The text of a finite double is read as the decimal that was chosen for it**, with the sign of the double. -/
theorem signed?_textOf (style : NumeralStyle) (hsuffix : style.wholeSuffix = ".0")
    (hplus : style.exponentPlus = "") (d : Decimal) {f : Binary64} (h : f.isFinite = true) :
    ('.' ∈ (style.textOf d f).toList ∨ 'e' ∈ (style.textOf d f).toList) ∧
    ∃ r, signed? (style.textOf d f).toList = some ⟨f.negative, r⟩ ∧ r.value = d.value := by
  obtain ⟨hmark, r, hr, hvalue⟩ := decimal?_layDecimal hsuffix hplus d
  rw [toList_textOf style d h]
  cases hneg : f.negative with
  | false => exact ⟨hmark, r, signed?_of_decimal? hr, hvalue⟩
  | true => exact ⟨hmark.imp (List.mem_cons_of_mem _) (List.mem_cons_of_mem _), r, signed?_minus hr, hvalue⟩

end Layout

end Numeral

end LuaBytecode
