/-
  Instruction words: building them from fields and taking them apart.

  A word has 32 bits.  From the low end they are the operation code (6 bits), A (8), C (9) and B (9); Bx is
  C and B together (18), and Ax is A, C and B together (26).  The signed operand sBx is Bx less 131071.  In
  numbers: `word = code + 2^6 · A + 2^14 · C + 2^23 · B`, so a field is a quotient and a remainder, and a
  builder is a sum of operands reduced to the width of their fields.

  An operand B or C whose bit 8 is set stands for a constant rather than a register; listings show the
  constant with index `i` as `-1 - i`.
-/
import LuaBytecode.Instruction.Operation
import LuaBytecode.Number.Numeral

namespace LuaBytecode

/-- An instruction, as the 32 bits that store it. -/
structure Instruction where
  word : UInt32
  deriving DecidableEq, Inhabited

/-! ## Registers and constants in one operand -/

namespace Operand

/-- The bit that marks a constant. -/
def constantBit : Nat := 256

/-- Whether the operand stands for a constant. -/
def isConstant (x : Nat) : Bool := x / constantBit % 2 == 1

/-- The operand without the mark. -/
def constantIndex (x : Nat) : Nat := if isConstant x then x - constantBit else x

/-- The operand with the mark. -/
def asConstant (x : Nat) : Nat := if isConstant x then x else x + constantBit

/-- What a listing shows: the register, or `-1 - i` for the constant with index `i`. -/
def shown (x : Nat) : Int := if isConstant x then -1 - (constantIndex x : Int) else x

end Operand

namespace Instruction

/-! ## Fields -/

/-- What is subtracted from Bx to give sBx. -/
def signedBias : Int := 131071

/-- The six bits of the operation code, which may name no operation. -/
def code (i : Instruction) : Nat := i.word.toNat % 0x40

/-- Operand A. -/
def a (i : Instruction) : Nat := i.word.toNat / 0x40 % 0x100

/-- Operand B, the topmost field. -/
def b (i : Instruction) : Nat := i.word.toNat / 0x800000

/-- Operand C. -/
def c (i : Instruction) : Nat := i.word.toNat / 0x4000 % 0x200

/-- Operand Bx. -/
def bx (i : Instruction) : Nat := i.word.toNat / 0x4000

/-- Operand sBx. -/
def sbx (i : Instruction) : Int := i.bx - signedBias

/-- Operand Ax. -/
def ax (i : Instruction) : Nat := i.word.toNat / 0x40

/-- The operation, if the code names one. -/
def operation? (i : Instruction) : Option Operation := Operation.ofCode? i.code

/-! ## Builders: operands are reduced to the width of their fields -/

def ofABC (op : Operation) (a b c : Nat) : Instruction :=
  ⟨UInt32.ofNat (op.code + 0x40 * (a % 0x100) + 0x4000 * (c % 0x200) + 0x800000 * (b % 0x200))⟩

def ofABx (op : Operation) (a bx : Nat) : Instruction :=
  ⟨UInt32.ofNat (op.code + 0x40 * (a % 0x100) + 0x4000 * (bx % 0x40000))⟩

def ofAsBx (op : Operation) (a : Nat) (sbx : Int) : Instruction :=
  ofABx op a ((sbx + signedBias) % 0x40000).toNat

def ofAx (op : Operation) (ax : Nat) : Instruction :=
  ⟨UInt32.ofNat (op.code + 0x40 * (ax % 0x4000000))⟩

/-! ## Text -/

/-- The operands an operation uses, in the form listings show. -/
def operandsOf (i : Instruction) (info : OperationInfo) : List Int :=
  match info.layout with
  | .abc =>
    (i.a : Int) :: ((if info.useB = .unused then [] else [Operand.shown i.b])
      ++ (if info.useC = .unused then [] else [Operand.shown i.c]))
  | .abx =>
    (i.a : Int) :: (match info.useB with
      | .constant => [-1 - (i.bx : Int)]
      | .used => [(i.bx : Int)]
      | _ => [])
  | .asbx => [(i.a : Int), i.sbx]
  | .ax => [-1 - (i.ax : Int)]

/-- The operands in the form listings show; none for an unknown code. -/
def operands (i : Instruction) : List Int :=
  match i.operation? with
  | some op => i.operandsOf op.info
  | none => []

/-- A mnemonic padded to nine columns. -/
def padMnemonic (s : String) : String :=
  s ++ String.ofList (List.replicate (9 - s.length) ' ')

/-- The operands after the first, each after a blank. -/
def furtherOperands (xs : List Int) : String := String.join (xs.map fun x => " " ++ integerText x)

/-- The operands, the first after a tab. -/
def operandsText : List Int → String
  | [] => ""
  | x :: rest => "\t" ++ integerText x ++ furtherOperands rest

/-- The text of an instruction. -/
def text (i : Instruction) : String :=
  match i.operation? with
  | some op => padMnemonic op.mnemonic ++ operandsText i.operands
  | none => "<bad opcode " ++ naturalText i.code ++ ">"

/-- The eight hexadecimal digits of the word. -/
def wordDigits (i : Instruction) : String :=
  let ds := Nat.toDigits 16 i.word.toNat
  String.ofList (List.replicate (8 - ds.length) '0' ++ ds)

/-- The text of an instruction together with its word, for diagnosis. -/
def detail (i : Instruction) : String := "Instruction(0x" ++ i.wordDigits ++ " " ++ i.text ++ ")"

example : (ofABC .call 0 2 1).text = "CALL     \t0 2 1" := by decide +kernel
example : (ofAsBx .jmp 0 (-5)).operands = [0, -5] := by decide +kernel
example : (⟨0x3F⟩ : Instruction).text = "<bad opcode 63>" := by decide +kernel

end Instruction

end LuaBytecode
