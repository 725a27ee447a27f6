/-
  Values, functions, chunks and the table of operations as JSON documents.

  Fields come in the order of the binary format.  Byte strings are exported as text, so bytes that are
  not UTF-8 are replaced.
-/
import LuaBytecode.Chunk.Prototype
import LuaBytecode.Json.Document

namespace LuaBytecode

def Kind.toJson (k : Kind) : Json := .str k.tag

def Value.toJson : Value → Json
  | nil => .null
  | bool b => .bool b
  | int n => .int n.toInt
  | float f => .float f
  | str bytes => .str (Utf8.decode bytes)

def Layout.toJson (l : Layout) : Json := .str l.tag

def OperandUse.toJson (u : OperandUse) : Json := .str u.tag

def Operation.toJson (op : Operation) : Json := .str op.tag

def OperationInfo.toJson (info : OperationInfo) : Json :=
  .object
    [("test_flag", .bool info.tests), ("set_a_flag", .bool info.setsA), ("b_mode", info.useB.toJson),
     ("c_mode", info.useC.toJson), ("mode", info.layout.toJson), ("name", .str info.mnemonic)]

def Instruction.toJson (i : Instruction) : Json := .int i.word.toNat

def Upvalue.toJson (u : Upvalue) : Json :=
  .object [("instack", .int u.inStack.toNat), ("idx", .int u.index.toNat)]

def LocalVariable.toJson (v : LocalVariable) : Json :=
  .object
    [("name", .str v.name), ("start_pc", .int v.startPc.toNat), ("end_pc", .int v.endPc.toNat)]

def Prototype.toJson : Prototype → Json :=
  Prototype.fold fun f children =>
    .object
      [("source", .str f.source), ("line_defined", .int f.firstLine.toNat),
       ("last_line_defined", .int f.lastLine.toNat), ("num_params", .int f.parameterCount.toNat),
       ("is_vararg", .int f.varargFlag.toNat), ("max_stack_size", .int f.slotCount.toNat),
       ("code", .array (f.code.map Instruction.toJson)),
       ("constants", .array (f.constants.map Value.toJson)),
       ("upvalues", .array (f.upvalues.map Upvalue.toJson)),
       ("protos", .array children),
       ("line_info", .array (f.lineInfo.map fun n => .int n.toNat)),
       ("loc_vars", .array (f.localVariables.map LocalVariable.toJson)),
       ("upvalue_names", .array (f.upvalueNames.map .str))]

def Chunk.toJson (c : Chunk) : Json :=
  .object [("upvalue_count", .int c.upvalueCount.toNat), ("main", c.main.toJson)]

end LuaBytecode
