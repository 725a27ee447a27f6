/-
  The text of a number says which number it is.

  What is read from the text of an integer is that integer.  The text of a finite double is no integer, since
  it has a point or an exponent, and what is read from it rounds to that double and to no other, the sign being
  kept.  The texts of the infinities are not numerals at all.  So the text tells integers, finite doubles and
  infinities apart, and within each of these it tells the numbers apart.

  Nothing of this rests on the digits of a double being the shortest.  It is enough that they are within its
  rounding interval, so it is proved for any such choice of digits (`numberTextBy_faithful`), and the shortest
  ones are an instance.
-/
import LuaBytecode.Proofs.Number.Reading
import LuaBytecode.Value.Basic

namespace LuaBytecode

open Binary64 Numeral

/-- Reading `d` as a double gives `f`: the nearest one, with the sign of `d`. -/
def Numeral.SignedDecimal.RoundsTo (d : SignedDecimal) (f : Binary64) : Prop :=
  f.negative = d.negative ∧ IsNearest d.value f

namespace Value

variable {f g : Binary64} {d e : Decimal}

/-- Numbers other than NaNs. -/
def denotesNumber : Value → Bool
  | int _ => true
  | float f => !f.isNaN
  | _ => false

/-- **The text of a finite double reads back**, as that double only, if its digits are within its interval. -/
theorem exists_signed?_textOf (h : f.isFinite = true) (hd : d.Within f) :
    ('.' ∈ (numeral.textOf d f).toList ∨ 'e' ∈ (numeral.textOf d f).toList) ∧
    ∃ x, signed? (numeral.textOf d f).toList = some x ∧ ∀ g, x.RoundsTo g ↔ g = f := by
  obtain ⟨hmark, r, hr, hvalue⟩ := signed?_textOf numeral rfl rfl d h
  have hnearest : IsNearest (SignedDecimal.value ⟨f.negative, r⟩) f := by
    unfold SignedDecimal.value
    dsimp only
    rw [hvalue]
    exact isNearest_of_within (isNaN_of_isFinite h) hd
  refine ⟨hmark, ⟨f.negative, r⟩, hr, fun g => ⟨?_, ?_⟩⟩
  · rintro ⟨hsign, hg⟩
    exact hg.unique hnearest hsign
  · rintro rfl
    exact ⟨rfl, hnearest⟩

/-- The infinities are spelt out. -/
theorem toList_textOf_infinite (d : Decimal) (hnan : f.isNaN = false) (h : f.isFinite = false) :
    (numeral.textOf d f).toList = if f.negative then ['-', 'i', 'n', 'f'] else ['i', 'n', 'f'] := by
  unfold NumeralStyle.textOf
  rw [hnan, h]
  cases f.negative <;> simp [numeral]

/-- The text of a double is no integer. -/
theorem integer?_textOf (hnan : f.isNaN = false) (hd : f.isFinite = true → d.Within f) :
    integer? (numeral.textOf d f).toList = none := by
  cases hfinite : f.isFinite with
  | true =>
    rcases (exists_signed?_textOf hfinite (hd hfinite)).1 with hpoint | hexponent
    · exact integer?_eq_none hpoint (by decide) (by decide)
    · exact integer?_eq_none hexponent (by decide) (by decide)
  | false =>
    rw [toList_textOf_infinite d hnan hfinite]
    split <;> decide

/-- The text of a double is a numeral exactly if the double is finite. -/
theorem isSome_signed?_textOf (hnan : f.isNaN = false) (hd : f.isFinite = true → d.Within f) :
    (signed? (numeral.textOf d f).toList).isSome = f.isFinite := by
  cases hfinite : f.isFinite with
  | true =>
    obtain ⟨-, x, hx, -⟩ := exists_signed?_textOf hfinite (hd hfinite)
    rw [hx, Option.isSome_some]
  | false =>
    rw [toList_textOf_infinite d hnan hfinite]
    split <;> decide

/-- **Different doubles have different texts**, whichever digits within their intervals are printed. -/
theorem eq_of_textOf_eq (hf : f.isNaN = false) (hg : g.isNaN = false) (hd : f.isFinite = true → d.Within f)
    (he : g.isFinite = true → e.Within g) (h : numeral.textOf d f = numeral.textOf e g) : f = g := by
  have hsame : f.isFinite = g.isFinite := by
    rw [← isSome_signed?_textOf hf hd, ← isSome_signed?_textOf hg he, h]
  cases hfinite : f.isFinite with
  | true =>
    have hfinite' : g.isFinite = true := hsame ▸ hfinite
    obtain ⟨-, x, hx, hround⟩ := exists_signed?_textOf hfinite (hd hfinite)
    obtain ⟨-, x', hx', hround'⟩ := exists_signed?_textOf hfinite' (he hfinite')
    rw [h] at hx
    obtain rfl : x = x' := Option.some.inj (hx.symm.trans hx')
    exact (hround' f).1 ((hround f).2 rfl)
  | false =>
    have hinfinite : g.isFinite = false := hsame ▸ hfinite
    have hsign : f.negative = g.negative := by
      have htext := congrArg String.toList h
      rw [toList_textOf_infinite d hf hfinite, toList_textOf_infinite e hg hinfinite] at htext
      cases hfneg : f.negative <;> cases hgneg : g.negative <;> simp [hfneg, hgneg] at htext ⊢
    rw [isNaN_eq_false_iff] at hf hg
    rw [Bool.eq_false_iff, Ne, isFinite_iff] at hfinite hinfinite
    exact eq_of_rank_eq hsign (by omega)

/-! ## Numbers -/

/-- The text of a number, for a choice of the digits of every double. -/
def numberTextBy (digits : Binary64 → Decimal) : Value → Option String
  | int n => some (integerText n.toInt)
  | float f => some (numeral.textOf (digits f) f)
  | _ => none

/-- The digits that are chosen are the shortest. -/
theorem numberText?_eq_numberTextBy (v : Value) :
    v.numberText? = v.numberTextBy (·.shortest numeral.tie) := by
  cases v <;> rfl

section Digits

variable {digits : Binary64 → Decimal} (hdigits : ∀ f : Binary64, f.isFinite = true → (digits f).Within f)

include hdigits

/-- Integers and doubles share no text. -/
theorem numberTextBy_int_ne_float (n : Int64) (hnan : f.isNaN = false) :
    (int n).numberTextBy digits ≠ (float f).numberTextBy digits := by
  intro h
  have hread := congrArg (fun s : String => integer? s.toList) (Option.some.inj h)
  rw [integer?_integerText, integer?_textOf hnan (hdigits f)] at hread
  cases hread

/-- **Numbers with the same text are the same number.** -/
theorem eq_of_numberTextBy_eq {v w : Value} (hv : v.denotesNumber = true) (hw : w.denotesNumber = true)
    (h : v.numberTextBy digits = w.numberTextBy digits) : v = w := by
  have hnan {f : Binary64} (hf : (float f).denotesNumber = true) : f.isNaN = false := by
    simpa [denotesNumber] using hf
  cases v with
  | int n =>
    cases w with
    | int k =>
      have hread := congrArg (fun s : String => integer? s.toList) (Option.some.inj h)
      rw [integer?_integerText, integer?_integerText, Option.some.injEq, Int64.toInt_inj] at hread
      rw [hread]
    | float g => exact absurd h (numberTextBy_int_ne_float hdigits n (hnan hw))
    | nil | bool | str => cases hw
  | float f =>
    cases w with
    | int k => exact absurd h.symm (numberTextBy_int_ne_float hdigits k (hnan hv))
    | float g =>
      rw [eq_of_textOf_eq (hnan hv) (hnan hw) (hdigits f) (hdigits g) (Option.some.inj h)]
    | nil | bool | str => cases hw
  | nil | bool | str => cases hv

/-- **Number texts are faithful**, whichever digits are printed for a double, as long as they are within its
    interval. -/
theorem numberTextBy_faithful :
    (∀ v w : Value, v.denotesNumber = true → w.denotesNumber = true →
      (v.numberTextBy digits = w.numberTextBy digits ↔ v = w)) ∧
    (∀ n : Int64, ∃ s, (int n).numberTextBy digits = some s ∧
      IsCanonicalInteger s.toList ∧ integer? s.toList = some n.toInt) ∧
    (∀ f : Binary64, f.isFinite = true → ∃ s, (float f).numberTextBy digits = some s ∧
      ('.' ∈ s.toList ∨ 'e' ∈ s.toList) ∧
      ∃ x, signed? s.toList = some x ∧ ∀ g, x.RoundsTo g ↔ g = f) := by
  refine ⟨?_, ?_, ?_⟩
  · intro v w hv hw
    exact ⟨eq_of_numberTextBy_eq hdigits hv hw, congrArg (numberTextBy digits)⟩
  · intro n
    exact ⟨_, rfl, isCanonicalInteger_integerText _, integer?_integerText _⟩
  · intro f hfinite
    exact ⟨_, rfl, exists_signed?_textOf hfinite (hdigits f hfinite)⟩

end Digits

/-- **Number texts are faithful.**  Two numbers have the same text only if they are the same, bit for bit and of
    the same kind.  The text of an integer is canonical and reads as that integer.  The text of a finite double
    has a point or an exponent, and reads as a signed decimal that rounds to that double and to no other. -/
theorem numberText?_faithful :
    (∀ v w : Value, v.denotesNumber = true → w.denotesNumber = true →
      (v.numberText? = w.numberText? ↔ v = w)) ∧
    (∀ n : Int64, ∃ s, (int n).numberText? = some s ∧
      IsCanonicalInteger s.toList ∧ integer? s.toList = some n.toInt) ∧
    (∀ f : Binary64, f.isFinite = true → ∃ s, (float f).numberText? = some s ∧
      ('.' ∈ s.toList ∨ 'e' ∈ s.toList) ∧
      ∃ d, signed? s.toList = some d ∧ ∀ g, d.RoundsTo g ↔ g = f) := by
  have h := numberTextBy_faithful fun f _ => within_shortest f numeral.tie
  simp only [← numberText?_eq_numberTextBy] at h
  exact h

/-- The two zeros have different texts, the least integer reads back, and so does the least subnormal. -/
theorem numberText?_faithful_samples :
    (float ⟨0⟩).numberText? ≠ (float ⟨0x8000000000000000⟩).numberText? ∧
    (∃ s, (int Int64.minValue).numberText? = some s ∧ integer? s.toList = some (-2 ^ 63)) ∧
    (isFinite ⟨1⟩ = true ∧ ∃ s, (float ⟨1⟩).numberText? = some s ∧
      ∃ d, signed? s.toList = some d ∧ ∀ g, d.RoundsTo g ↔ g = ⟨1⟩) := by
  refine ⟨?_, ?_, by decide, ?_⟩
  · rw [Ne, numberText?_faithful.1 _ _ (by decide) (by decide)]
    decide
  · obtain ⟨s, hs, -, hread⟩ := numberText?_faithful.2.1 Int64.minValue
    exact ⟨s, hs, hread⟩
  · obtain ⟨s, hs, -, hread⟩ := numberText?_faithful.2.2 ⟨1⟩ (by decide)
    exact ⟨s, hs, hread⟩

end Value

end LuaBytecode
