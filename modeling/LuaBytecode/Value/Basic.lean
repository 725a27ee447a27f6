/-
  The values that a chunk's constants and the stack hold: nil, booleans, integers, doubles and byte
  strings.

  Integers are signed 64-bit words and doubles are bit patterns, so equality of values is equality of
  what is stored.  Beside it stands `Value.alike`, equality as a program compares constants: doubles
  compare as numbers, so a NaN is not alike itself and the two zeros are alike, while an integer is
  never alike a double.

  The conversions are Lua's: only nil and false are falsy; integers widen to the nearest double; a double
  narrows to an integer only if it denotes one.
-/
import LuaBytecode.Bytes
import LuaBytecode.Number.Numeral
import LuaBytecode.Text.Utf8
import LuaBytecode.Value.Kind

namespace LuaBytecode

/-- A Lua value. -/
inductive Value where
  | nil
  | bool (b : Bool)
  | int (n : Int64)
  | float (f : Binary64)
  | str (bytes : Bytes)
  deriving DecidableEq, Inhabited

namespace Value

/-- The kind of a value. -/
def kind : Value → Kind
  | nil => .nil
  | bool _ => .boolean
  | int _ | float _ => .number
  | str _ => .string

def isNil : Value → Bool
  | nil => true
  | _ => false

def isNumber : Value → Bool
  | int _ | float _ => true
  | _ => false

/-- Doubles compare as numbers, everything else as stored; kinds of number are kept apart. -/
def alike : Value → Value → Bool
  | float f, float g => f.numEq g
  | v, w => decide (v = w)

/-! ## Conversions -/

/-- Only nil and false are falsy. -/
def truthy : Value → Bool
  | nil | bool false => false
  | _ => true

/-- The value as a double, an integer going to the nearest one. -/
def toNumber? : Value → Option Binary64
  | float f => some f
  | int n => some (.ofInt n.toInt)
  | _ => none

/-- The value as an integer, a double only if it denotes one. -/
def toInteger? : Value → Option Int64
  | int n => some n
  | float f => f.toInt64?
  | _ => none

/-! ## Text -/

/-- Doubles are positional from `0.00001` up to sixteen digits before the point, and whole numbers keep
    a `.0`, so that the text of a double never reads as an integer. -/
def numeral : NumeralStyle where
  positional p := decide (-5 < p ∧ p ≤ 16)
  wholeSuffix := ".0"
  exponentPlus := ""
  tie := .toEven
  nan := "nan"
  infinity := "inf"

/-- The text of a number. -/
def numberText? : Value → Option String
  | int n => some (integerText n.toInt)
  | float f => some (numeral.text f)
  | _ => none

/-- The text of a value; bytes that are not UTF-8 are replaced. -/
def text : Value → String
  | nil => "nil"
  | bool b => if b then "true" else "false"
  | int n => integerText n.toInt
  | float f => numeral.text f
  | str bytes => Utf8.decode bytes

example : numeral.text ⟨0x3ff0000000000000⟩ = "1.0" := by decide +kernel
example : numeral.text ⟨0x4341c37937e08000⟩ = "1e16" := by decide +kernel
example : numeral.text ⟨0x430c6bf526340000⟩ = "1000000000000000.0" := by decide +kernel
example : numeral.text ⟨0x3ee4f8b588e368f1⟩ = "0.00001" := by decide +kernel
example : numeral.text ⟨0xbeb92a737110e454⟩ = "-1.5e-6" := by decide +kernel

end Value

end LuaBytecode
