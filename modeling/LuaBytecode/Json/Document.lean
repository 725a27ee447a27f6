/-
  JSON documents and their two texts.

  A document is a tree of the usual six kinds, with numbers kept as integers or doubles and the fields of
  an object kept in order.  `compact` writes it without blanks; `pretty` puts each element and each field
  on a line of its own, indented by two blanks a level, while an empty array or object stays `[]` or
  `{}`.  JSON has no text for NaN and the infinities: they are written `null`.
-/
import LuaBytecode.Number.Numeral

namespace LuaBytecode

/-- A JSON document. -/
inductive Json where
  | null
  | bool (b : Bool)
  | int (n : Int)
  | float (f : Binary64)
  | str (s : String)
  | array (items : List Json)
  | object (fields : List (String × Json))

namespace Json

/-! ## Leaves -/

/-- One hexadecimal digit, lower case. -/
def hexDigit (n : Nat) : Char := Nat.digitChar n

/-- One character of a string: the five short escapes, `\u00xx` for the other controls, and all else as
    it stands. -/
def escapeChar (c : Char) : List Char :=
  if c = '"' then ['\\', '"']
  else if c = '\\' then ['\\', '\\']
  else if c = '\x08' then ['\\', 'b']
  else if c = '\x0c' then ['\\', 'f']
  else if c = '\n' then ['\\', 'n']
  else if c = '\r' then ['\\', 'r']
  else if c = '\t' then ['\\', 't']
  else if c.toNat < 0x20 then
    ['\\', 'u', '0', '0', hexDigit (c.toNat / 16), hexDigit (c.toNat % 16)]
  else [c]

/-- A string in double quotes. -/
def quote (s : String) : String :=
  String.ofList ('"' :: (s.toList.flatMap escapeChar ++ ['"']))

/-- Doubles as in Lua texts, except that a positive exponent carries its sign. -/
def numeral : NumeralStyle where
  positional p := decide (-5 < p ∧ p ≤ 16)
  wholeSuffix := ".0"
  exponentPlus := "+"
  tie := .toEven
  nan := "null"
  infinity := "null"

/-- The text of a double. -/
def floatText (f : Binary64) : String := if f.isFinite then numeral.text f else "null"

/-! ## Without blanks -/

mutual

/-- The text without blanks. -/
def compact : Json → String
  | null => "null"
  | bool b => if b then "true" else "false"
  | int n => integerText n
  | float f => floatText f
  | str s => quote s
  | array items => "[" ++ compactItems items ++ "]"
  | object fields => "\x7b" ++ compactFields fields ++ "\x7d"

/-- The elements, separated by commas. -/
def compactItems : List Json → String
  | [] => ""
  | [x] => compact x
  | x :: rest => compact x ++ "," ++ compactItems rest

/-- The fields, separated by commas. -/
def compactFields : List (String × Json) → String
  | [] => ""
  | [(k, x)] => quote k ++ ":" ++ compact x
  | (k, x) :: rest => quote k ++ ":" ++ compact x ++ "," ++ compactFields rest

end

/-! ## One element a line -/

/-- A line end and the indentation of a level. -/
def newline (level : Nat) : String := String.ofList ('\n' :: List.replicate (2 * level) ' ')

mutual

/-- The text of a document that stands at an indentation level. -/
def prettyAt (level : Nat) : Json → String
  | null => "null"
  | bool b => if b then "true" else "false"
  | int n => integerText n
  | float f => floatText f
  | str s => quote s
  | array [] => "[]"
  | array (x :: rest) =>
    "[" ++ newline (level + 1) ++ prettyAt (level + 1) x ++ prettyItems (level + 1) rest
      ++ newline level ++ "]"
  | object [] => "\x7b\x7d"
  | object ((k, x) :: rest) =>
    "\x7b" ++ newline (level + 1) ++ quote k ++ ": " ++ prettyAt (level + 1) x
      ++ prettyFields (level + 1) rest ++ newline level ++ "\x7d"

/-- The elements after the first. -/
def prettyItems (level : Nat) : List Json → String
  | [] => ""
  | x :: rest => "," ++ newline level ++ prettyAt level x ++ prettyItems level rest

/-- The fields after the first. -/
def prettyFields (level : Nat) : List (String × Json) → String
  | [] => ""
  | (k, x) :: rest =>
    "," ++ newline level ++ quote k ++ ": " ++ prettyAt level x ++ prettyFields level rest

end

/-- The text with one element or field a line. -/
def pretty (doc : Json) : String := prettyAt 0 doc

end Json

end LuaBytecode
