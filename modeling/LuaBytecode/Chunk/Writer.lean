/-
  Writing a chunk as bytes.

  A function is written in the order in which it is read.  Its source is left out where the function
  around it has the same one, since reading puts it back; a stripped function leaves out its source, its
  line numbers and its names.  Names and string constants are always written as present strings, also the
  empty ones, and a constant's tag tells short strings from long ones.  Counts are written modulo `2 ^ 32`,
  which no segment that fits in memory reaches.
-/
import LuaBytecode.Chunk.Format
import LuaBytecode.Chunk.Prototype

namespace LuaBytecode

namespace Encode

/-! ## Numbers and strings -/

def word32 (n : UInt32) : Bytes := toLittleEndian 4 n.toNat

def word64 (n : UInt64) : Bytes := toLittleEndian 8 n.toNat

/-- The count of a segment. -/
def count (n : Nat) : Bytes := toLittleEndian 4 n

/-- The absent string. -/
def absentString : Bytes := [0]

/-- The stored size of a string of `n` bytes: one byte if it fits below the mark. -/
def stringSize (n : Nat) : Bytes :=
  if n + 1 < Format.longSizeMark.toNat then [UInt8.ofNat (n + 1)]
  else Format.longSizeMark :: toLittleEndian 8 (n + 1)

/-- A present string. -/
def string (bytes : Bytes) : Bytes := stringSize bytes.length ++ bytes

/-- A text as a present string. -/
def name (s : String) : Bytes := string (Utf8.encode s)

/-! ## Parts of a function -/

section Elements

variable {α : Type}

/-- A counted segment. -/
def segment (element : α → Bytes) (xs : List α) : Bytes := count xs.length ++ xs.flatMap element

end Elements

def constant : Value → Bytes
  | .nil => [Format.nilTag]
  | .bool b => [Format.booleanTag, if b then 1 else 0]
  | .int n => Format.integerTag :: word64 n.toUInt64
  | .float f => Format.numberTag :: word64 f.bits
  | .str bytes =>
    (if bytes.length ≤ Format.shortStringLimit then Format.shortStringTag else Format.longStringTag)
      :: string bytes

def upvalue (u : Upvalue) : Bytes := [u.inStack, u.index]

def localVariable (v : LocalVariable) : Bytes := name v.name ++ word32 v.startPc ++ word32 v.endPc

/-- The source of a function inside a function with source `parent`. -/
def source (strip : Bool) (parent own : String) : Bytes :=
  if strip ∨ own = parent then absentString else name own

/-- The segments that stripping empties. -/
def debugSegments (strip : Bool) (f : FunctionBody) : Bytes :=
  if strip then count 0 ++ count 0 ++ count 0
  else segment word32 f.lineInfo ++ segment localVariable f.localVariables
    ++ segment name f.upvalueNames

/-- A function inside a function with source `parent`. -/
def prototype (strip : Bool) : Prototype → (parent : String) → Bytes :=
  Prototype.fold fun f children parent =>
    source strip parent f.source
      ++ word32 f.firstLine ++ word32 f.lastLine
      ++ [f.parameterCount, f.varargFlag, f.slotCount]
      ++ segment (fun i => word32 i.word) f.code
      ++ segment constant f.constants
      ++ segment upvalue f.upvalues
      ++ segment (fun child => child f.source) children
      ++ debugSegments strip f

end Encode

/-- The bytes of a chunk, without its debug data if `strip` is set. -/
def Chunk.dump (c : Chunk) (strip : Bool) : Bytes :=
  Format.header ++ c.upvalueCount :: Encode.prototype strip c.main ""

end LuaBytecode
