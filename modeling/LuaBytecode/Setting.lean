/-
  The two settings: how deep functions may nest, and how many slots a new stack has.

  Both are unsigned 64-bit words with a default, and both can be given in two ways.  As JSON: an object
  whose field of the setting's name holds the value, other fields being skipped and a second field of the
  name refused, or an array that holds the value alone; an empty object or array leaves the default.  As
  an override: decimal digits, with blanks around them and a plus sign before them allowed; anything else
  leaves the default.  A nesting limit of zero makes no sense and is not accepted as an override.
-/
import LuaBytecode.Chunk.Loader
import LuaBytecode.Json.Scan
import LuaBytecode.Text.Blank

namespace LuaBytecode

/-- A numeric setting. -/
structure Setting where
  /-- The name of its field. -/
  field : String
  default : Nat
  /-- The least value accepted as an override. -/
  least : Nat

namespace Setting

/-- How deep functions may nest in a chunk. -/
def nestingLimit : Setting := ⟨"max_depth", defaultNestingLimit, 1⟩

/-- How many slots a new stack has. -/
def stackSize : Setting := ⟨"initial_stack_size", 20, 0⟩

/-! ## As JSON -/

/-- The members of an object and its end, `found` being the value read so far. -/
def members (field : Bytes) : (steps : Nat) → (first : Bool) → (found : Option Nat) →
    JsonScan (Option Nat)
  | 0, _, _ => throw .endOfText
  | steps + 1, first, found => do
    let b ← JsonScan.peek
    if b = JsonScan.ascii '\x7d' then
      JsonScan.advance
      return found
    else
      if !first then
        JsonScan.require (b = JsonScan.ascii ',') .malformed
        JsonScan.advance
      let b ← JsonScan.peek
      JsonScan.require (b = JsonScan.ascii '"') .malformed
      JsonScan.advance
      let key ← JsonScan.string true
      JsonScan.require (key = field → found.isNone) .mismatch
      let b ← JsonScan.peek
      JsonScan.require (b = JsonScan.ascii ':') .malformed
      JsonScan.advance
      if key = field then
        let n ← JsonScan.wordValue
        members field steps false (some n)
      else
        JsonScan.skipValue
        members field steps false found

/-- The element of an array, if it has one, and its end. -/
def element : JsonScan (Option Nat) := do
  let b ← JsonScan.peek
  if b = JsonScan.ascii ']' then
    JsonScan.advance
    return none
  else
    let n ← JsonScan.wordValue
    let b ← JsonScan.peek
    JsonScan.require (b = JsonScan.ascii ']') .malformed
    JsonScan.advance
    return some n

/-- A whole document. -/
def document (s : Setting) : JsonScan Nat := do
  let b ← JsonScan.peek
  let found ←
    if b = JsonScan.ascii '\x7b' then
      JsonScan.advance
      let bytes ← get
      members (Utf8.encode s.field) (bytes.length + 1) true none
    else if b = JsonScan.ascii '[' then
      JsonScan.advance
      element
    else JsonScan.refuseValue b
  JsonScan.skipBlanks
  let left ← get
  JsonScan.require (left = []) .malformed
  return found.getD s.default

/-- The value that a JSON text gives the setting. -/
def ofJson (s : Setting) (text : String) : Except JsonFault Nat :=
  (s.document.run (Utf8.encode text)).map Prod.fst

/-! ## As an override -/

/-- The digits of a decimal number. -/
def digitsValue? (cs : List Char) : Option Nat :=
  if cs ≠ [] ∧ cs.all Char.isDigit then some (cs.foldl (fun n c => n * 10 + (c.toNat - 48)) 0)
  else none

/-- An unsigned 64-bit word in decimal, a plus sign before it allowed. -/
def wordOf? (cs : List Char) : Option Nat :=
  let n := match cs with
    | '+' :: rest => digitsValue? rest
    | _ => digitsValue? cs
  n.filter (· < JsonScan.wordBound)

/-- The value under an override; bytes that are not UTF-8 are no override. -/
def ofOverride (s : Setting) (raw : Option Bytes) : Nat :=
  let n := do
    let bytes ← raw
    let text ← Utf8.decode? bytes
    wordOf? (trimBlank text.toList)
  (n.filter (s.least ≤ ·)).getD s.default

end Setting

end LuaBytecode
