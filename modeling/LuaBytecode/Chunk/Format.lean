/-
  The fixed parts of the binary chunk format.

  A chunk opens with a header of 33 bytes: a signature, a version and a format byte, six bytes that any
  text conversion would damage, the sizes of five machine types, and one integer and one double whose
  stored bytes give away byte order and float format.  After the header come the number of upvalues of the
  main function and the main function itself.  A function has seven counted segments; before the elements
  of a segment are read, its count is checked against a least width per element.
-/
import LuaBytecode.Bytes
import LuaBytecode.Number.Binary64

namespace LuaBytecode

/-! ## Header -/

/-- A machine type whose size the header states. -/
inductive SizeField where
  | int
  | sizeT
  | instruction
  | integer
  | number
  deriving DecidableEq

namespace SizeField

/-- The name of the type. -/
def name : SizeField → String
  | int => "int"
  | sizeT => "size_t"
  | instruction => "Instruction"
  | integer => "lua_Integer"
  | number => "lua_Number"

/-- The only size that is accepted. -/
def size : SizeField → UInt8
  | int => 4
  | sizeT => 8
  | instruction => 4
  | integer => 8
  | number => 8

/-- The types in the order of the header. -/
def all : List SizeField := [int, sizeT, instruction, integer, number]

end SizeField

/-- The double that the bytes store, least significant first. -/
def Binary64.ofBytes (bytes : Bytes) : Binary64 := ⟨UInt64.ofNat (ofLittleEndian bytes)⟩

namespace Format

/-- Escape, then `Lua`. -/
def signature : Bytes := [0x1B, 0x4C, 0x75, 0x61]

/-- Major version five, minor version three. -/
def version : UInt8 := 0x53

def format : UInt8 := 0

/-- Bytes that line-end and seven-bit conversions would change. -/
def conversionCheck : Bytes := [0x19, 0x93, 0x0D, 0x0A, 0x1A, 0x0A]

/-- The stored bytes of the integer `0x5678`. -/
def sampleInteger : Bytes := toLittleEndian 8 0x5678

/-- The double `370.5`. -/
def sampleDouble : Binary64 := ⟨0x4077280000000000⟩

/-- The stored bytes of the double `370.5`. -/
def sampleNumber : Bytes := toLittleEndian 8 0x4077280000000000

/-- The whole header. -/
def header : Bytes :=
  signature ++ [version, format] ++ conversionCheck ++ SizeField.all.map SizeField.size
    ++ sampleInteger ++ sampleNumber

theorem length_header : header.length = 33 := by decide

/-! ## Constants -/

def nilTag : UInt8 := 0x00
def booleanTag : UInt8 := 0x01
def numberTag : UInt8 := 0x03
def shortStringTag : UInt8 := 0x04
def integerTag : UInt8 := 0x13
def longStringTag : UInt8 := 0x14

/-- The greatest length of a string constant that is written with the short tag. -/
def shortStringLimit : Nat := 40

/-- The size byte that announces an eight-byte size. -/
def longSizeMark : UInt8 := 0xFF

end Format

/-! ## Segments of a function -/

/-- A counted segment of a function. -/
inductive Segment where
  | code
  | constants
  | upvalues
  | prototypes
  | lineInfo
  | localVariables
  | upvalueNames
  deriving DecidableEq

namespace Segment

/-- The name in messages. -/
def name : Segment → String
  | code => "code"
  | constants => "constants"
  | upvalues => "upvalues"
  | prototypes => "prototypes"
  | lineInfo => "line info"
  | localVariables => "local variables"
  | upvalueNames => "upvalue names"

/-- The number of bytes each element is taken to need at least.  For a function: an absent source, two
    line numbers, three bytes and six empty counts. -/
def elementWidth : Segment → Nat
  | code => 4
  | constants => 1
  | upvalues => 2
  | prototypes => 1 + 4 + 4 + 3 + 6 * 4
  | lineInfo => 4
  | localVariables => 1 + 4 + 4
  | upvalueNames => 1

end Segment

end LuaBytecode
