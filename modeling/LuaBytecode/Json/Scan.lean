/-
  Reading JSON text from its bytes.

  A step consumes bytes from the front of the text or stops with one of three faults: the text ended too
  early, it is not JSON at this place, or it is JSON of another kind than was wanted.  The first fault
  met ends the reading, so text behind a value of the wrong kind is never looked at.

  Numbers and strings are read in two ways.  A value that nobody asked for is only skipped: its escapes
  must be well-formed but surrogates need not pair, its numbers may be of any size, and a number that the
  end of the text cuts short is simply not JSON.  A value that is asked for is read strictly: surrogates
  pair, a number cut short is a text that ended too early, and a number too large for a double is not
  accepted as a number at all.

  Loops carry a count of steps that the length of the text bounds, since every step consumes a byte.
-/
import LuaBytecode.Bytes
import LuaBytecode.Number.Binary64
import LuaBytecode.Text.Utf8

namespace LuaBytecode

/-- Why reading stops. -/
inductive JsonFault where
  /-- The text ended where more was needed. -/
  | endOfText
  /-- The text is not JSON at this place. -/
  | malformed
  /-- A value of another kind was wanted. -/
  | mismatch
  deriving DecidableEq

/-- A reading step on the bytes of a text. -/
abbrev JsonScan := StateT Bytes (Except JsonFault)

namespace JsonScan

/-- The code of an ASCII character. -/
def ascii (c : Char) : UInt8 := UInt8.ofNat c.toNat

def isDigit (b : UInt8) : Bool := decide (ascii '0' ≤ b ∧ b ≤ ascii '9')

/-! ## Bytes -/

/-- The next byte, left in place. -/
def peek? : JsonScan (Option UInt8) := fun bytes => .ok (bytes.head?, bytes)

/-- Drops the next byte. -/
def advance : JsonScan Unit := modify List.tail

/-- The next byte, `atEnd` saying what it means that there is none. -/
def next (atEnd : JsonFault) : JsonScan UInt8 := fun bytes =>
  match bytes with
  | b :: rest => .ok (b, rest)
  | [] => .error atEnd

/-- Goes on only if `p` holds. -/
def require (p : Prop) [Decidable p] (fault : JsonFault) : JsonScan Unit :=
  if p then return () else throw fault

/-- The next byte, which has to be `c`. -/
def expect (c : Char) : JsonScan Unit := do
  let b ← next .endOfText
  require (b = ascii c) .malformed

def isBlankByte (b : UInt8) : Bool :=
  b == ascii ' ' || b == ascii '\n' || b == ascii '\t' || b == ascii '\r'

/-- Drops blanks. -/
def skipBlanks : JsonScan Unit := modify (List.dropWhile isBlankByte)

/-- The next byte that is no blank, left in place. -/
def peek : JsonScan UInt8 := do
  skipBlanks
  match ← peek? with
  | some b => return b
  | none => throw .endOfText

/-- The rest of a word. -/
def word : List Char → JsonScan Unit
  | [] => return ()
  | c :: rest => do
    expect c
    word rest

/-! ## Numbers -/

/-- A number as it is written, its sign aside. -/
structure Numeral where
  whole : List Nat
  fraction : Option (List Nat)
  /-- The sign and the digits of the exponent. -/
  exponent : Option (Bool × List Nat)

/-- All digits that come next. -/
def digits : JsonScan (List Nat) := fun bytes =>
  .ok ((bytes.takeWhile isDigit).map fun b => b.toNat - 48, bytes.dropWhile isDigit)

/-- At least one digit. -/
def someDigits (atEnd : JsonFault) : JsonScan (List Nat) := do
  let b ← next atEnd
  require (isDigit b) .malformed
  let rest ← digits
  return (b.toNat - 48) :: rest

/-- The digits before the point; only a lone zero starts with zero. -/
def wholeDigits (atEnd : JsonFault) : JsonScan (List Nat) := do
  let ds ← someDigits atEnd
  require (ds.head? = some 0 → ds.length = 1) .malformed
  return ds

/-- The exponent, if the next byte starts one; the flag says that it is negative. -/
def exponent? (atEnd : JsonFault) : JsonScan (Option (Bool × List Nat)) := do
  let b ← peek?
  if b = some (ascii 'e') ∨ b = some (ascii 'E') then
    advance
    let sign ← peek?
    if sign = some (ascii '+') ∨ sign = some (ascii '-') then advance
    let ds ← someDigits atEnd
    return some (sign == some (ascii '-'), ds)
  else return none

/-- A number without its sign, `atEnd` saying what it means that the text ends within it. -/
def numeral (atEnd : JsonFault) : JsonScan Numeral := do
  let whole ← wholeDigits atEnd
  let b ← peek?
  if b = some (ascii '.') then
    advance
    let fraction ← someDigits atEnd
    let exponent ← exponent? atEnd
    return ⟨whole, some fraction, exponent⟩
  else
    let exponent ← exponent? atEnd
    return ⟨whole, none, exponent⟩

/-- The bound of an unsigned 64-bit word. -/
def wordBound : Nat := 0x10000000000000000

/-- Appends digits to a number as long as it stays a 64-bit word; answers with the number and with the
    count of digits left over. -/
def absorb (n : Nat) : List Nat → Nat × Nat
  | [] => (n, 0)
  | d :: rest => if n * 10 + d < wordBound then absorb (n * 10 + d) rest else (n, rest.length + 1)

/-- A natural rounded to the precision of a double. -/
def toDoublePrecision (n : Nat) : Nat :=
  if n.log2 ≤ 52 then n else roundDiv .toEven n (Nat.pow 2 (n.log2 - 52)) * Nat.pow 2 (n.log2 - 52)

/-- Half a unit above the greatest double; from here on numbers round to infinity. -/
def infinityThreshold : Nat := Nat.pow 2 1024 - Nat.pow 2 970

/-- Whether `n · 10 ^ e`, both factors and the product rounded to doubles, exceeds every double. -/
def overflows (n : Nat) (e : Int) : Bool :=
  n != 0 && decide (0 ≤ e)
    && (decide (308 < e)
      || decide (infinityThreshold ≤ toDoublePrecision n * toDoublePrecision (Nat.pow 10 e.toNat)))

/-- The greatest exponent that is computed with. -/
def exponentBound : Nat := 0x80000000

/-- Whether a number is too large for a double. -/
def Numeral.tooLarge (x : Numeral) : Bool :=
  let (n, dropped) := absorb 0 x.whole
  let (m, ignored) := absorb n (x.fraction.getD [])
  let e : Int := dropped - ((x.fraction.getD []).length - ignored : Nat)
  match x.exponent with
  | none => overflows m e
  | some (negative, ds) =>
    let size := ds.foldl (fun n d => n * 10 + d) 0
    if exponentBound ≤ size then m != 0 && !negative
    else overflows m (if negative then e - size else e + size)

/-- The 64-bit word that a number without sign, fraction and exponent denotes. -/
def Numeral.toWord? (x : Numeral) : Option Nat :=
  let n := x.whole.foldl (fun n d => n * 10 + d) 0
  if x.fraction.isNone ∧ x.exponent.isNone ∧ n < wordBound then some n else none

/-! ## Strings -/

/-- The value of a hexadecimal digit. -/
def hexValue? (b : UInt8) : Option Nat :=
  let n := b.toNat
  if 48 ≤ n ∧ n ≤ 57 then some (n - 48)
  else if 65 ≤ n ∧ n ≤ 70 then some (n - 55)
  else if 97 ≤ n ∧ n ≤ 102 then some (n - 87)
  else none

/-- Four hexadecimal digits.  That four bytes are left is checked before what they are. -/
def hexCode : JsonScan Nat := fun bytes =>
  match bytes with
  | a :: b :: c :: d :: rest =>
    match hexValue? a, hexValue? b, hexValue? c, hexValue? d with
    | some a, some b, some c, some d => .ok (((a * 16 + b) * 16 + c) * 16 + d, rest)
    | _, _, _, _ => .error .malformed
  | _ => .error .endOfText

/-- The character of a `\u` escape, its first code being `n`. -/
def escapedChar (n : Nat) : JsonScan Char := do
  require (¬ (0xDC00 ≤ n ∧ n ≤ 0xDFFF)) .malformed
  if 0xD800 ≤ n ∧ n ≤ 0xDBFF then
    expect '\\'
    expect 'u'
    let m ← hexCode
    require (0xDC00 ≤ m ∧ m ≤ 0xDFFF) .malformed
    return Char.ofNat (0x10000 + (n - 0xD800) * 0x400 + (m - 0xDC00))
  else return Char.ofNat n

/-- What follows a backslash.  Skipped text yields nothing for a `\u` escape. -/
def escape (strict : Bool) : JsonScan Bytes := do
  let b ← next .endOfText
  if b = ascii '"' ∨ b = ascii '\\' ∨ b = ascii '/' then return [b]
  else if b = ascii 'b' then return [0x08]
  else if b = ascii 'f' then return [0x0C]
  else if b = ascii 'n' then return [0x0A]
  else if b = ascii 'r' then return [0x0D]
  else if b = ascii 't' then return [0x09]
  else if b = ascii 'u' then
    let n ← hexCode
    if strict then
      let c ← escapedChar n
      return Utf8.encodeChar c
    else return []
  else throw .malformed

/-- The rest of a string, its closing quote included. -/
def stringRest (strict : Bool) : Nat → JsonScan Bytes
  | 0 => throw .endOfText
  | steps + 1 => do
    let b ← next .endOfText
    if b = ascii '"' then return []
    else if b = ascii '\\' then
      let bytes ← escape strict
      let rest ← stringRest strict steps
      return bytes ++ rest
    else
      require (0x20 ≤ b) .malformed
      let rest ← stringRest strict steps
      return b :: rest

/-- What follows the opening quote of a string. -/
def string (strict : Bool) : JsonScan Bytes := do
  let bytes ← get
  stringRest strict (bytes.length + 1)

/-! ## Values nobody asked for -/

mutual

/-- Skips a value. -/
def skipValueIn : Nat → JsonScan Unit
  | 0 => throw .endOfText
  | steps + 1 => do
    let b ← peek
    if isDigit b then
      let _ ← numeral .malformed
      return ()
    else
      advance
      if b = ascii 'n' then word ['u', 'l', 'l']
      else if b = ascii 't' then word ['r', 'u', 'e']
      else if b = ascii 'f' then word ['a', 'l', 's', 'e']
      else if b = ascii '-' then
        let _ ← numeral .malformed
        return ()
      else if b = ascii '"' then
        let _ ← string false
        return ()
      else if b = ascii '[' then
        let b ← peek
        if b = ascii ']' then advance else skipItems steps
      else if b = ascii '\x7b' then
        let b ← peek
        if b = ascii '\x7d' then advance else skipMembers steps
      else throw .malformed

/-- Skips the elements of an array and its end. -/
def skipItems : Nat → JsonScan Unit
  | 0 => throw .endOfText
  | steps + 1 => do
    skipValueIn steps
    let b ← peek
    advance
    if b = ascii ',' then skipItems steps
    else require (b = ascii ']') .malformed

/-- Skips the members of an object and its end. -/
def skipMembers : Nat → JsonScan Unit
  | 0 => throw .endOfText
  | steps + 1 => do
    let b ← peek
    require (b = ascii '"') .malformed
    advance
    let _ ← string false
    let b ← peek
    require (b = ascii ':') .malformed
    advance
    skipValueIn steps
    let b ← peek
    advance
    if b = ascii ',' then skipMembers steps
    else require (b = ascii '\x7d') .malformed

end

/-- Skips a value. -/
def skipValue : JsonScan Unit := do
  let bytes ← get
  skipValueIn (2 * bytes.length + 2)

/-! ## Values that are asked for -/

section Refusal

variable {α : Type}

/-- Refuses a number: one too large for a double is no number, any other is of the wrong kind. -/
def refuseNumeral (x : Numeral) : JsonScan α :=
  if x.tooLarge then throw .malformed else throw .mismatch

/-- Refuses the value that starts with `b`: a scalar is read to its end first. -/
def refuseValue (b : UInt8) : JsonScan α := do
  if isDigit b then
    let x ← numeral .endOfText
    refuseNumeral x
  else
    advance
    if b = ascii 'n' then word ['u', 'l', 'l']; throw .mismatch
    else if b = ascii 't' then word ['r', 'u', 'e']; throw .mismatch
    else if b = ascii 'f' then word ['a', 'l', 's', 'e']; throw .mismatch
    else if b = ascii '-' then
      let x ← numeral .endOfText
      refuseNumeral x
    else if b = ascii '"' then
      let _ ← string true
      throw .mismatch
    else if b = ascii '[' ∨ b = ascii '\x7b' then throw .mismatch
    else throw .malformed

end Refusal

/-- An unsigned 64-bit word. -/
def wordValue : JsonScan Nat := do
  let b ← peek
  if isDigit b then
    let x ← numeral .endOfText
    match x.toWord? with
    | some n => return n
    | none => refuseNumeral x
  else refuseValue b

end JsonScan

end LuaBytecode
