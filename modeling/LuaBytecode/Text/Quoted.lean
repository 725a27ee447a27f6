/-
  Texts in double quotes, as listings show string constants.

  A quoted text is one line whatever the text holds: line ends, tabs, quotes and backslashes are written
  with a backslash, and every other character without a form of its own as `\u` and its code point in
  braces.  All else stands for itself.
-/
import LuaBytecode.Text.Formless

namespace LuaBytecode.Quoted

/-- Lower-case hexadecimal digits, no padding. -/
def hexDigits (n : Nat) : List Char := Nat.toDigits 16 n

/-- One character of a quoted text. -/
def encodeChar (c : Char) : List Char :=
  if c = '\x00' then ['\\', '0']
  else if c = '\t' then ['\\', 't']
  else if c = '\r' then ['\\', 'r']
  else if c = '\n' then ['\\', 'n']
  else if c = '"' then ['\\', '"']
  else if c = '\\' then ['\\', '\\']
  else if isFormless c then '\\' :: 'u' :: '\x7b' :: (hexDigits c.toNat ++ ['\x7d'])
  else [c]

/-- The text in double quotes. -/
def encode (s : String) : String :=
  String.ofList ('"' :: (s.toList.flatMap encodeChar ++ ['"']))

end LuaBytecode.Quoted
