/-
  Loading a chunk from its bytes.

  The header is checked field by field, and the first field that differs decides the refusal.  A function
  is read in the order of its segments; a function with an absent source takes the source of the function
  around it, already resolved, and line numbers are refused unless there are none or one per instruction.

  Functions nest, and `prototype limit room` may still open `room` levels of the `limit` it started with.
  The step for one level, `prototypeBody`, takes the step for the next level as an argument, so the
  recursion is on the room alone, while the input it consumes bounds it as well: `prototypeBody` calls the
  inner step only after the fixed fields and the first three segments of its own function.
-/
import LuaBytecode.Chunk.Cursor
import LuaBytecode.Chunk.Prototype

namespace LuaBytecode

namespace ReadM

/-! ## Header -/

/-- The sizes of the machine types. -/
def sizeFields : List SizeField → ReadM Unit
  | [] => return ()
  | field :: rest => do
    let found ← byte
    require (found = field.size) (.sizeMismatch field found)
    sizeFields rest

/-- The double of the header, which is compared as a number.  If it would be right with its bytes in the
    other order, that is the reason given. -/
def sampleNumber : ReadM Unit := do
  let stored ← take 8 .word64
  if (Binary64.ofBytes stored).numEq Format.sampleDouble then return ()
  else if (Binary64.ofBytes stored.reverse).numEq Format.sampleDouble then throw .endiannessMismatch
  else throw (.floatFormatMismatch (Binary64.ofBytes stored))

/-- The whole header. -/
def header : ReadM Unit := do
  let signature ← take 4 .signature
  require (signature = Format.signature) .notAChunk
  let version ← byte
  require (version = Format.version) (.versionMismatch version)
  let format ← byte
  require (format = Format.format) (.formatMismatch format)
  let check ← take 6 .conversionCheck
  require (check = Format.conversionCheck) .corrupted
  sizeFields SizeField.all
  let integer ← take 8 .word64
  require (integer = Format.sampleInteger) .endiannessMismatch
  sampleNumber

/-! ## Functions -/

/-- A constant: a tag, then what the tag announces. -/
def constant : ReadM Value := do
  let start ← position
  let tag ← byte
  if tag = Format.nilTag then return .nil
  else if tag = Format.booleanTag then
    let b ← byte
    return .bool (b != 0)
  else if tag = Format.integerTag then
    let n ← integer
    return .int n
  else if tag = Format.numberTag then
    let f ← number
    return .float f
  else if tag = Format.shortStringTag ∨ tag = Format.longStringTag then
    let bytes ← string
    return .str bytes
  else throw (.unknownConstantTag tag start)

/-- An instruction word. -/
def instruction : ReadM Instruction := do
  let word ← word32
  return ⟨word⟩

def upvalue : ReadM Upvalue := do
  let inStack ← byte
  let index ← byte
  return ⟨inStack, index⟩

def localVariable : ReadM LocalVariable := do
  let name ← name
  let startPc ← word32
  let endPc ← word32
  return ⟨name, startPc, endPc⟩

/-- One function, `child` being the step that reads a nested one, given the source around it. -/
def prototypeBody (child : String → ReadM Prototype) (parent : String) : ReadM Prototype := do
  let ownSource ← name
  let source := if ownSource = "" then parent else ownSource
  let firstLine ← word32
  let lastLine ← word32
  let parameterCount ← byte
  let varargFlag ← byte
  let slotCount ← byte
  let code ← segment .code instruction
  let constants ← segment .constants constant
  let upvalues ← segment .upvalues upvalue
  let children ← segment .prototypes (child source)
  let lineInfo ← segment .lineInfo word32
  require (lineInfo = [] ∨ lineInfo.length = code.length)
    (.lineInfoMismatch code.length lineInfo.length)
  let localVariables ← segment .localVariables localVariable
  let upvalueNames ← segment .upvalueNames name
  return .node
    { source, firstLine, lastLine, parameterCount, varargFlag, slotCount, code, constants, upvalues,
      lineInfo, localVariables, upvalueNames }
    children

/-- A function with `room` more levels to open of `limit` in all. -/
def prototype (limit : Nat) : (room : Nat) → (parent : String) → ReadM Prototype
  | 0, _ => throw (.nestingTooDeep limit)
  | room + 1, parent => prototypeBody (prototype limit room) parent

/-- A whole chunk. -/
def chunk (limit : Nat) : ReadM Chunk := do
  header
  let upvalueCount ← byte
  let main ← prototype limit limit ""
  let left ← remaining
  require (left = 0) (.trailingBytes left)
  return ⟨upvalueCount, main⟩

end ReadM

/-! ## Entry points -/

/-- The nesting limit unless another is given. -/
def defaultNestingLimit : Nat := 200

/-- Loads a chunk that nests functions at most `limit` deep, the main function being the first
    level. -/
def Chunk.loadWithin (limit : Nat) (bytes : Bytes) : Except LoadError Chunk :=
  match ReadM.chunk limit (.ofBytes bytes) with
  | .ok c _ => .ok c
  | .error e _ => .error e

/-- Loads a chunk under the default nesting limit. -/
def Chunk.load (bytes : Bytes) : Except LoadError Chunk := Chunk.loadWithin defaultNestingLimit bytes

/-- Loads the main function of a chunk. -/
def Prototype.load (bytes : Bytes) : Except LoadError Prototype :=
  (Chunk.load bytes).map Chunk.main

/-- A refusal together with the name of the chunk that was refused. -/
structure NamedLoadError where
  chunkName : String
  cause : LoadError
  deriving DecidableEq

namespace NamedLoadError

/-- The message without the cause. -/
def message (e : NamedLoadError) : String := "failed to load chunk `" ++ e.chunkName ++ "`"

/-- The message followed by that of the cause. -/
def fullMessage (e : NamedLoadError) : String := e.message ++ ": " ++ e.cause.message

end NamedLoadError

/-- Loads the main function of a chunk, refusals naming the chunk. -/
def Prototype.loadNamed (bytes : Bytes) (chunkName : String) : Except NamedLoadError Prototype :=
  (Prototype.load bytes).mapError fun cause => ⟨chunkName, cause⟩

end LuaBytecode
