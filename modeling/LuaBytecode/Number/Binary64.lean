/-
  Doubles as 64-bit patterns.

  A chunk stores its floating-point constants as eight bytes, and loading, storing and dumping must
  keep every bit, NaN payloads included.  So a double here *is* its bit pattern, and its meaning is
  read off the three fields: sign (1 bit), exponent (11 bits), fraction (52 bits).  A finite pattern
  denotes `± significand · 2 ^ scale`, an exact number, so the conversions to and from integers are
  exact arithmetic on `Nat` and `Int`:

    * `toInt64?` answers with the integer a pattern denotes, if it denotes one and the integer is in range;
    * `ofInt` rounds an integer to the nearest pattern, a half going to the even significand.

  Patterns without their sign are numbered by what they denote: the larger the bits, the larger the number.
  So numbers are compared by their place in that row, `order`, and no arithmetic is needed for it.

  The rounded significand may reach `2 ^ 53`; adding it to the exponent field as a number carries
  into the exponent, which is exactly the next power of two.
-/
import LuaBytecode.Number.Rounding

namespace LuaBytecode

/-- A double, as the 64 bits that store it. -/
structure Binary64 where
  bits : UInt64
  deriving DecidableEq, Inhabited

namespace Binary64

/-! ## Fields -/

/-- The sign bit. -/
def negative (f : Binary64) : Bool := decide (0x8000000000000000 ≤ f.bits.toNat)

/-- The eleven exponent bits. -/
def exponentField (f : Binary64) : Nat := f.bits.toNat / 0x10000000000000 % 0x800

/-- The low 52 bits. -/
def fractionField (f : Binary64) : Nat := f.bits.toNat % 0x10000000000000

/-- All exponent bits set marks infinities and NaNs. -/
def isFinite (f : Binary64) : Bool := f.exponentField != 2047

def isNaN (f : Binary64) : Bool := f.exponentField == 2047 && f.fractionField != 0

/-- Both zeros. -/
def isZero (f : Binary64) : Bool := f.exponentField == 0 && f.fractionField == 0

/-! ## Meaning: `± significand · 2 ^ scale` -/

/-- The integer significand: the leading one is implicit except for the subnormal exponent. -/
def significand (f : Binary64) : Nat :=
  if f.exponentField = 0 then f.fractionField else 0x10000000000000 + f.fractionField

/-- The power of two that multiplies the significand.  Subnormals share the exponent of the smallest
    normal numbers. -/
def scale (f : Binary64) : Int := (max f.exponentField 1 : Nat) - 1075

/-- Gives `n` the sign of `f`. -/
def signed (f : Binary64) (n : Nat) : Int := if f.negative then -(n : Int) else n

/-- Equality of numbers rather than of patterns: a NaN differs from everything, itself included, and
    the two zeros are equal. -/
def numEq (f g : Binary64) : Bool :=
  !f.isNaN && !g.isNaN && (f.bits == g.bits || (f.isZero && g.isZero))

/-- A number that is not zero has one pattern. -/
theorem numEq_eq_true_iff {f g : Binary64} (hnan : g.isNaN = false) (hzero : g.isZero = false) :
    f.numEq g = true ↔ f = g := by
  constructor
  · intro h
    have hbits : f.bits = g.bits := by simpa [numEq, hnan, hzero] using (Bool.and_eq_true_iff.1 h).2
    cases f
    cases g
    exact congrArg mk hbits
  · rintro rfl
    simp [numEq, hnan]

/-! ## Order -/

/-- The bits without the sign. -/
def rank (f : Binary64) : Nat := f.bits.toNat % 0x8000000000000000

/-- The place of a number in the row of all numbers, both zeros being at place zero. -/
def order (f : Binary64) : Int := f.signed f.rank

/-- `f ≤ g` as numbers; a NaN compares with nothing. -/
def numLe (f g : Binary64) : Bool := !f.isNaN && !g.isNaN && decide (f.order ≤ g.order)

/-- `f < g` as numbers; a NaN compares with nothing. -/
def numLt (f g : Binary64) : Bool := !f.isNaN && !g.isNaN && decide (f.order < g.order)

/-! ## Integers -/

/-- Whether there is no fractional part.  A negative scale must divide the significand exactly. -/
def isWhole (f : Binary64) : Bool :=
  f.isFinite && (decide (0 ≤ f.scale) || f.significand % Nat.pow 2 (-f.scale).toNat == 0)

/-- The number without its fractional part. -/
def truncate (f : Binary64) : Int :=
  if 0 ≤ f.scale then f.signed (f.significand * Nat.pow 2 f.scale.toNat)
  else f.signed (f.significand / Nat.pow 2 (-f.scale).toNat)

/-- The number without its fractional part as a signed 64-bit integer.  What is out of range goes to the
    nearer end, and a NaN to zero. -/
def clampToInt64 (f : Binary64) : Int64 :=
  if f.isNaN then 0
  else if f.truncate < -0x8000000000000000 then Int64.minValue
  else if 0x8000000000000000 ≤ f.truncate then Int64.maxValue
  else Int64.ofInt f.truncate

/-- The least signed 64-bit integer, `-2 ^ 63`, which is a double. -/
def int64Least : Binary64 := ⟨0xC3E0000000000000⟩

/-- The first integer above the signed 64-bit range, `2 ^ 63`.  The greatest integer of the range is not a
    double. -/
def int64Bound : Binary64 := ⟨0x43E0000000000000⟩

/-- The integer that `f` denotes, if it denotes one of the signed 64-bit range. -/
def toInt64? (f : Binary64) : Option Int64 :=
  if f.isWhole && (int64Least.numLe f && f.numLt int64Bound) then some f.clampToInt64 else none

/-- The positive zero. -/
def zero : Binary64 := ⟨0⟩

/-- The pattern of the double nearest to `n`, a half going to the even significand.  For `n` at or
    above the overflow threshold the pattern is no longer meaningful; the integers of this library
    stay far below it. -/
def ofNat (n : Nat) : Binary64 :=
  if n = 0 then zero
  else
    let e := n.log2
    let m := if e ≤ 52 then n * Nat.pow 2 (52 - e) else roundDiv .toEven n (Nat.pow 2 (e - 52))
    ⟨UInt64.ofNat ((e + 1022) * 0x10000000000000 + m)⟩

/-- The pattern of the double nearest to `n`, a half going to the even significand. -/
def ofInt (n : Int) : Binary64 :=
  let f := ofNat n.natAbs
  if n < 0 then ⟨f.bits + 0x8000000000000000⟩ else f

example : ofInt 1 = ⟨0x3ff0000000000000⟩ := by decide +kernel
example : ofInt (-3) = ⟨0xc008000000000000⟩ := by decide +kernel
example : (ofInt 9007199254740993).toInt64? = some 9007199254740992 := by decide +kernel
example : toInt64? ⟨0x3ff8000000000000⟩ = none := by decide +kernel
example : int64Bound.toInt64? = none := by decide +kernel

end Binary64

end LuaBytecode
