/-
  UTF-8: characters to bytes, and bytes to characters with replacement.

  The names and sources of a chunk are stored as bytes that should be UTF-8 but need not be.  Reading
  them never fails: every maximal ill-formed subpart becomes one U+FFFD.  A subpart is maximal when it
  is the longest front of some well-formed character, or one byte if there is none, so the decoder looks
  at a lead byte, checks the second byte against the range that the lead byte allows, and then wants
  plain continuation bytes; the first byte that does not fit ends the subpart and is looked at again.

  `decode` walks the bytes once.  It carries the number of bytes that belong to the character already
  emitted and drops them as they come, so the recursion is on the list itself.
-/

namespace LuaBytecode.Utf8

/-! ## Encoding -/

/-- The bytes of one character. -/
def encodeChar (c : Char) : List UInt8 :=
  let n := c.toNat
  if n < 0x80 then [UInt8.ofNat n]
  else if n < 0x800 then [UInt8.ofNat (0xC0 + n / 0x40), UInt8.ofNat (0x80 + n % 0x40)]
  else if n < 0x10000 then
    [UInt8.ofNat (0xE0 + n / 0x1000), UInt8.ofNat (0x80 + n / 0x40 % 0x40),
      UInt8.ofNat (0x80 + n % 0x40)]
  else
    [UInt8.ofNat (0xF0 + n / 0x40000), UInt8.ofNat (0x80 + n / 0x1000 % 0x40),
      UInt8.ofNat (0x80 + n / 0x40 % 0x40), UInt8.ofNat (0x80 + n % 0x40)]

/-- The bytes of a text. -/
def encode (s : String) : List UInt8 := s.toList.flatMap encodeChar

/-! ## Decoding -/

/-- What a lead byte announces. -/
structure Lead where
  /-- The bits of the character that the lead byte itself holds. -/
  payload : Nat
  /-- The least second byte. -/
  low : Nat
  /-- The greatest second byte. -/
  high : Nat
  /-- How many continuation bytes follow the second byte. -/
  more : Nat

/-- The announcement of a byte that can start a character of two bytes or more.  The tighter ranges of
    the second byte rule out overlong forms, surrogates and code points above U+10FFFF. -/
def lead? (a : Nat) : Option Lead :=
  if 0xC2 ≤ a ∧ a ≤ 0xDF then some ⟨a - 0xC0, 0x80, 0xBF, 0⟩
  else if a = 0xE0 then some ⟨0, 0xA0, 0xBF, 1⟩
  else if a = 0xED then some ⟨0xD, 0x80, 0x9F, 1⟩
  else if 0xE1 ≤ a ∧ a ≤ 0xEF then some ⟨a - 0xE0, 0x80, 0xBF, 1⟩
  else if a = 0xF0 then some ⟨0, 0x90, 0xBF, 2⟩
  else if 0xF1 ≤ a ∧ a ≤ 0xF3 then some ⟨a - 0xF0, 0x80, 0xBF, 2⟩
  else if a = 0xF4 then some ⟨4, 0x80, 0x8F, 2⟩
  else none

/-- What stands for an ill-formed subpart. -/
def replacement : Char := '�'

/-- Reads `more` continuation bytes onto the code point `code`, `taken` bytes after the lead byte having
    been read.  Answers with the character and the number of bytes after the lead byte that it, or the
    subpart that stands for it, covers. -/
def continuation : Nat → Nat → Nat → List UInt8 → Char × Nat
  | 0, code, taken, _ => (Char.ofNat code, taken)
  | _ + 1, _, taken, [] => (replacement, taken)
  | more + 1, code, taken, b :: rest =>
    if 0x80 ≤ b.toNat ∧ b.toNat ≤ 0xBF then
      continuation more (code * 0x40 + (b.toNat - 0x80)) (taken + 1) rest
    else (replacement, taken)

/-- The character at the front of `a :: rest`, and how many bytes of `rest` it covers. -/
def front (a : UInt8) (rest : List UInt8) : Char × Nat :=
  if a.toNat < 0x80 then (Char.ofNat a.toNat, 0)
  else match lead? a.toNat, rest with
    | some l, b :: rest =>
      if l.low ≤ b.toNat ∧ b.toNat ≤ l.high then
        continuation l.more (l.payload * 0x40 + (b.toNat - 0x80)) 1 rest
      else (replacement, 0)
    | _, _ => (replacement, 0)

/-- The characters of a byte list, its first `covered` bytes being part of a character already
    emitted. -/
def decodeFrom : Nat → List UInt8 → List Char
  | _, [] => []
  | covered + 1, _ :: rest => decodeFrom covered rest
  | 0, a :: rest => (front a rest).1 :: decodeFrom (front a rest).2 rest

/-- The text of a byte list, each maximal ill-formed subpart replaced. -/
def decode (bytes : List UInt8) : String := String.ofList (decodeFrom 0 bytes)

/-- The text of a byte list that is well-formed throughout.  Decoding always yields well-formed text, so
    encoding it again gives back the bytes exactly when nothing was replaced. -/
def decode? (bytes : List UInt8) : Option String :=
  let s := decode bytes
  if encode s = bytes then some s else none

example : decodeFrom 0 [0x61, 0xCE, 0xBB] = ['a', 'λ'] := by decide
example : decodeFrom 0 [0xF0, 0x9F, 0x98, 0x41] = ['�', 'A'] := by decide
example : decodeFrom 0 [0xED, 0xA0, 0x80] = ['�', '�', '�'] := by decide

end LuaBytecode.Utf8
