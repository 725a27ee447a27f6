/-
  Why a chunk is refused, and how the refusal is worded.

  The causes fall in two groups: those that condemn the header, and those that show damage further in.
  Each cause carries what its message names, so the wording is one function of the cause.
-/
import LuaBytecode.Chunk.Format
import LuaBytecode.Number.Numeral

namespace LuaBytecode

/-- What was being read when the input ended. -/
inductive Item where
  | byte
  | word32
  | word64
  | bytes
  | string
  | signature
  | conversionCheck
  | segment (s : Segment)
  deriving DecidableEq

/-- The name of an item in messages. -/
def Item.name : Item → String
  | byte => "byte"
  | word32 => "u32"
  | word64 => "u64"
  | bytes => "bytes"
  | string => "string"
  | signature => "signature"
  | conversionCheck => "LUAC_DATA"
  | segment s => s.name

/-- Why a chunk is refused. -/
inductive LoadError where
  | notAChunk
  | versionMismatch (found : UInt8)
  | formatMismatch (found : UInt8)
  | corrupted
  | sizeMismatch (field : SizeField) (found : UInt8)
  | endiannessMismatch
  | floatFormatMismatch (found : Binary64)
  | unknownConstantTag (tag : UInt8) (offset : Nat)
  | unexpectedEnd (item : Item) (offset : Nat)
  | nestingTooDeep (limit : Nat)
  | lineInfoMismatch (code lineInfo : Nat)
  | trailingBytes (count : Nat)
  deriving DecidableEq

namespace LoadError

/-- Whether the header is at fault. -/
def isHeaderError : LoadError → Bool
  | notAChunk | versionMismatch _ | formatMismatch _ | corrupted | sizeMismatch _ _
  | endiannessMismatch | floatFormatMismatch _ => true
  | _ => false

/-- A byte as two hexadecimal digits. -/
def hexByte (b : UInt8) : String :=
  String.ofList ['0', 'x', Nat.digitChar (b.toNat / 16), Nat.digitChar (b.toNat % 16)]

/-- Doubles in messages are positional whatever their size, and whole numbers are bare. -/
def numeral : NumeralStyle where
  positional _ := true
  wholeSuffix := ""
  exponentPlus := ""
  tie := .up
  nan := "NaN"
  infinity := "inf"

/-- The message. -/
def message : LoadError → String
  | notAChunk => "not a precompiled chunk"
  | versionMismatch found =>
    "version mismatch (found " ++ hexByte found ++ ", expected " ++ hexByte Format.version ++ ")"
  | formatMismatch found =>
    "format mismatch (found " ++ naturalText found.toNat ++ ", expected "
      ++ naturalText Format.format.toNat ++ ")"
  | corrupted => "corrupted chunk"
  | sizeMismatch field found =>
    field.name ++ " size mismatch (found " ++ naturalText found.toNat ++ ", expected "
      ++ naturalText field.size.toNat ++ ")"
  | endiannessMismatch => "endianness mismatch"
  | floatFormatMismatch found => "float format mismatch (found " ++ numeral.text found ++ ")"
  | unknownConstantTag tag offset =>
    "corrupted chunk: unknown constant tag " ++ hexByte tag ++ " at offset " ++ naturalText offset
  | unexpectedEnd item offset =>
    "truncated chunk: unexpected end of input while reading " ++ item.name ++ " at offset "
      ++ naturalText offset
  | nestingTooDeep limit => "function prototypes nested deeper than " ++ naturalText limit
  | lineInfoMismatch code lineInfo =>
    "corrupted chunk: " ++ naturalText lineInfo ++ " line info entries for " ++ naturalText code
      ++ " instructions"
  | trailingBytes count => naturalText count ++ " unexpected trailing bytes after chunk"

example : (versionMismatch 0x52).message = "version mismatch (found 0x52, expected 0x53)" := by
  decide +kernel
example : numeral.text ⟨0x444b1ae4d6e2ef50⟩ = "1000000000000000000000" := by decide +kernel

end LoadError

end LuaBytecode
