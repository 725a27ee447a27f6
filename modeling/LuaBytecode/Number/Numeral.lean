/-
  Writing numbers in decimal.

  Integers are a sign and decimal digits.  For doubles, which digits to print is settled by the
  shortest decimal that reads back; what is left is layout, and three texts of this library lay the
  same digits out differently.  The differences are the fields of a `NumeralStyle`:

    * where a positional numeral ends and an exponent begins,
    * whether a whole number carries `.0`,
    * whether a positive exponent carries `+`,
    * where an exact half goes, and how the values without digits are spelt.

  Write the digits as `d₁ … dₙ` and the value as `0.d₁ … dₙ · 10 ^ point`, so that `point` is the number
  of digits before the decimal point.  A positional numeral is the digits padded with zeros on the
  right, cut by a point, or padded on the left, as `point` is at least `n`, between, or not positive.
-/
import LuaBytecode.Number.Shortest

namespace LuaBytecode

/-- The decimal digits of `n`. -/
def naturalText (n : Nat) : String := String.ofList (Nat.toDigits 10 n)

/-- Canonical decimal: a minus sign for negative numbers, no leading zeros. -/
def integerText (n : Int) : String :=
  if n < 0 then "-" ++ naturalText n.natAbs else naturalText n.natAbs

/-- How doubles are laid out as text. -/
structure NumeralStyle where
  /-- Whether a numeral with this many digits before the point is written without an exponent. -/
  positional : Int → Bool
  /-- What follows the digits of a whole number written without an exponent. -/
  wholeSuffix : String
  /-- What precedes the digits of an exponent that is not negative. -/
  exponentPlus : String
  tie : Tie
  nan : String
  infinity : String

namespace NumeralStyle

/-- The digits `ds` with the point after the first `point` of them, zeros filling the gaps. -/
def layPositional (style : NumeralStyle) (ds : List Char) (point : Int) : List Char :=
  if (ds.length : Int) ≤ point then
    ds ++ List.replicate (point.toNat - ds.length) '0' ++ style.wholeSuffix.toList
  else if 0 < point then ds.take point.toNat ++ '.' :: ds.drop point.toNat
  else '0' :: '.' :: (List.replicate (-point).toNat '0' ++ ds)

/-- The digits `ds` with the point after the first, and the power of ten that puts it after `point`
    digits. -/
def layExponent (style : NumeralStyle) (ds : List Char) (point : Int) : List Char :=
  let mantissa := match ds with
    | d :: rest@(_ :: _) => d :: '.' :: rest
    | _ => ds
  let e := point - 1
  let plus := if e < 0 then [] else style.exponentPlus.toList
  mantissa ++ 'e' :: (plus ++ (integerText e).toList)

/-- The text of a decimal without sign. -/
def layDecimal (style : NumeralStyle) (d : Decimal) : List Char :=
  let ds := Nat.toDigits 10 d.digits
  let point := ds.length + d.exponent
  if style.positional point then style.layPositional ds point else style.layExponent ds point

/-- The text of a double whose digits are those of `d`.  NaNs carry no sign; infinities and zeros do. -/
def textOf (style : NumeralStyle) (d : Decimal) (f : Binary64) : String :=
  if f.isNaN then style.nan
  else
    let sign := if f.negative then "-" else ""
    if f.isFinite then sign ++ String.ofList (style.layDecimal d)
    else sign ++ style.infinity

/-- The text of a double, by the shortest digits that read back. -/
def text (style : NumeralStyle) (f : Binary64) : String := style.textOf (f.shortest style.tie) f

end NumeralStyle

end LuaBytecode
