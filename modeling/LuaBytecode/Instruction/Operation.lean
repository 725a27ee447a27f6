/-
  The forty-seven operation codes of Lua 5.3 and what each does with the fields of its instruction.

  An instruction word has one of four layouts.  Operation code and, mostly, operand A are always there;
  the other bits are two operands B and C, one wide operand Bx, one signed operand sBx, or, with A
  added, one operand Ax.  The table says for each code which layout it uses and how it reads B and C, and
  whether it tests a value or sets register A.  A code is the position of its operation in the list `all`
  (`ofCode?_code`).
-/

namespace LuaBytecode

/-- How the bits above the operation code are divided. -/
inductive Layout where
  /-- Operands A, B and C. -/
  | abc
  /-- Operands A and Bx. -/
  | abx
  /-- Operands A and the signed sBx. -/
  | asbx
  /-- One operand Ax. -/
  | ax
  deriving DecidableEq

/-- The tag of a layout in exported data. -/
def Layout.tag : Layout → String
  | abc => "IABC"
  | abx => "IABx"
  | asbx => "IAsBx"
  | ax => "IAx"

/-- How an operation reads an operand. -/
inductive OperandUse where
  /-- Not at all. -/
  | unused
  /-- As a number with a meaning of its own. -/
  | used
  /-- As a register or a jump offset. -/
  | register
  /-- As a constant, or as a register or a constant. -/
  | constant
  deriving DecidableEq

/-- The tag of an operand use in exported data. -/
def OperandUse.tag : OperandUse → String
  | unused => "N"
  | used => "U"
  | register => "R"
  | constant => "K"

/-- What is known of an operation. -/
structure OperationInfo where
  /-- Whether it is a test, so that the next instruction is a jump. -/
  tests : Bool
  /-- Whether it sets register A. -/
  setsA : Bool
  useB : OperandUse
  useC : OperandUse
  layout : Layout
  mnemonic : String
  deriving DecidableEq

/-- An operation of the virtual machine. -/
inductive Operation where
  | move
  | loadK
  | loadKx
  | loadBool
  | loadNil
  | getUpval
  | getTabUp
  | getTable
  | setTabUp
  | setUpval
  | setTable
  | newTable
  | self
  | add
  | sub
  | mul
  | mod
  | pow
  | div
  | idiv
  | band
  | bor
  | bxor
  | shl
  | shr
  | unm
  | bnot
  | not
  | len
  | concat
  | jmp
  | eq
  | lt
  | le
  | test
  | testSet
  | call
  | tailCall
  | ret
  | forLoop
  | forPrep
  | tforCall
  | tforLoop
  | setList
  | closure
  | varArg
  | extraArg
  deriving DecidableEq

namespace Operation

/-- All operations; each stands at the position of its code. -/
def all : List Operation :=
  [.move, .loadK, .loadKx, .loadBool, .loadNil, .getUpval, .getTabUp, .getTable, .setTabUp,
   .setUpval, .setTable, .newTable, .self, .add, .sub, .mul, .mod, .pow, .div, .idiv, .band, .bor,
   .bxor, .shl, .shr, .unm, .bnot, .not, .len, .concat, .jmp, .eq, .lt, .le, .test, .testSet,
   .call, .tailCall, .ret, .forLoop, .forPrep, .tforCall, .tforLoop, .setList, .closure, .varArg,
   .extraArg]

/-- The numeric code. -/
def code : Operation → Nat
  | move => 0
  | loadK => 1
  | loadKx => 2
  | loadBool => 3
  | loadNil => 4
  | getUpval => 5
  | getTabUp => 6
  | getTable => 7
  | setTabUp => 8
  | setUpval => 9
  | setTable => 10
  | newTable => 11
  | self => 12
  | add => 13
  | sub => 14
  | mul => 15
  | mod => 16
  | pow => 17
  | div => 18
  | idiv => 19
  | band => 20
  | bor => 21
  | bxor => 22
  | shl => 23
  | shr => 24
  | unm => 25
  | bnot => 26
  | not => 27
  | len => 28
  | concat => 29
  | jmp => 30
  | eq => 31
  | lt => 32
  | le => 33
  | test => 34
  | testSet => 35
  | call => 36
  | tailCall => 37
  | ret => 38
  | forLoop => 39
  | forPrep => 40
  | tforCall => 41
  | tforLoop => 42
  | setList => 43
  | closure => 44
  | varArg => 45
  | extraArg => 46

/-- The operation with a given code. -/
def ofCode? (n : Nat) : Option Operation := all[n]?

/-- The table of operations: test, sets A, uses of B and C, layout, mnemonic. -/
def info : Operation → OperationInfo
  | move => ⟨false, true, .register, .unused, .abc, "MOVE"⟩
  | loadK => ⟨false, true, .constant, .unused, .abx, "LOADK"⟩
  | loadKx => ⟨false, true, .unused, .unused, .abx, "LOADKX"⟩
  | loadBool => ⟨false, true, .used, .used, .abc, "LOADBOOL"⟩
  | loadNil => ⟨false, true, .used, .unused, .abc, "LOADNIL"⟩
  | getUpval => ⟨false, true, .used, .unused, .abc, "GETUPVAL"⟩
  | getTabUp => ⟨false, true, .used, .constant, .abc, "GETTABUP"⟩
  | getTable => ⟨false, true, .register, .constant, .abc, "GETTABLE"⟩
  | setTabUp => ⟨false, false, .constant, .constant, .abc, "SETTABUP"⟩
  | setUpval => ⟨false, false, .used, .unused, .abc, "SETUPVAL"⟩
  | setTable => ⟨false, false, .constant, .constant, .abc, "SETTABLE"⟩
  | newTable => ⟨false, true, .used, .used, .abc, "NEWTABLE"⟩
  | self => ⟨false, true, .register, .constant, .abc, "SELF"⟩
  | add => ⟨false, true, .constant, .constant, .abc, "ADD"⟩
  | sub => ⟨false, true, .constant, .constant, .abc, "SUB"⟩
  | mul => ⟨false, true, .constant, .constant, .abc, "MUL"⟩
  | mod => ⟨false, true, .constant, .constant, .abc, "MOD"⟩
  | pow => ⟨false, true, .constant, .constant, .abc, "POW"⟩
  | div => ⟨false, true, .constant, .constant, .abc, "DIV"⟩
  | idiv => ⟨false, true, .constant, .constant, .abc, "IDIV"⟩
  | band => ⟨false, true, .constant, .constant, .abc, "BAND"⟩
  | bor => ⟨false, true, .constant, .constant, .abc, "BOR"⟩
  | bxor => ⟨false, true, .constant, .constant, .abc, "BXOR"⟩
  | shl => ⟨false, true, .constant, .constant, .abc, "SHL"⟩
  | shr => ⟨false, true, .constant, .constant, .abc, "SHR"⟩
  | unm => ⟨false, true, .register, .unused, .abc, "UNM"⟩
  | bnot => ⟨false, true, .register, .unused, .abc, "BNOT"⟩
  | not => ⟨false, true, .register, .unused, .abc, "NOT"⟩
  | len => ⟨false, true, .register, .unused, .abc, "LEN"⟩
  | concat => ⟨false, true, .register, .register, .abc, "CONCAT"⟩
  | jmp => ⟨false, false, .register, .unused, .asbx, "JMP"⟩
  | eq => ⟨true, false, .constant, .constant, .abc, "EQ"⟩
  | lt => ⟨true, false, .constant, .constant, .abc, "LT"⟩
  | le => ⟨true, false, .constant, .constant, .abc, "LE"⟩
  | test => ⟨true, false, .unused, .used, .abc, "TEST"⟩
  | testSet => ⟨true, true, .register, .used, .abc, "TESTSET"⟩
  | call => ⟨false, true, .used, .used, .abc, "CALL"⟩
  | tailCall => ⟨false, true, .used, .used, .abc, "TAILCALL"⟩
  | ret => ⟨false, false, .used, .unused, .abc, "RETURN"⟩
  | forLoop => ⟨false, true, .register, .unused, .asbx, "FORLOOP"⟩
  | forPrep => ⟨false, true, .register, .unused, .asbx, "FORPREP"⟩
  | tforCall => ⟨false, false, .unused, .used, .abc, "TFORCALL"⟩
  | tforLoop => ⟨false, true, .register, .unused, .asbx, "TFORLOOP"⟩
  | setList => ⟨false, false, .used, .used, .abc, "SETLIST"⟩
  | closure => ⟨false, true, .used, .unused, .abx, "CLOSURE"⟩
  | varArg => ⟨false, true, .used, .unused, .abc, "VARARG"⟩
  | extraArg => ⟨false, false, .used, .used, .ax, "EXTRAARG"⟩

/-- The name in listings. -/
def mnemonic (op : Operation) : String := op.info.mnemonic

/-- The tag of an operation in exported data. -/
def tag : Operation → String
  | move => "Move"
  | loadK => "LoadK"
  | loadKx => "LoadKx"
  | loadBool => "LoadBool"
  | loadNil => "LoadNil"
  | getUpval => "GetUpval"
  | getTabUp => "GetTabUp"
  | getTable => "GetTable"
  | setTabUp => "SetTabUp"
  | setUpval => "SetUpval"
  | setTable => "SetTable"
  | newTable => "NewTable"
  | self => "SelfOp"
  | add => "Add"
  | sub => "Sub"
  | mul => "Mul"
  | mod => "Mod"
  | pow => "Pow"
  | div => "Div"
  | idiv => "IDiv"
  | band => "BAnd"
  | bor => "BOr"
  | bxor => "BXor"
  | shl => "Shl"
  | shr => "Shr"
  | unm => "Unm"
  | bnot => "BNot"
  | not => "Not"
  | len => "Len"
  | concat => "Concat"
  | jmp => "Jmp"
  | eq => "Eq"
  | lt => "Lt"
  | le => "Le"
  | test => "Test"
  | testSet => "TestSet"
  | call => "Call"
  | tailCall => "TailCall"
  | ret => "Return"
  | forLoop => "ForLoop"
  | forPrep => "ForPrep"
  | tforCall => "TForCall"
  | tforLoop => "TForLoop"
  | setList => "SetList"
  | closure => "Closure"
  | varArg => "VarArg"
  | extraArg => "ExtraArg"

theorem length_all : all.length = 47 := rfl

@[simp] theorem ofCode?_code (op : Operation) : ofCode? op.code = some op := by
  cases op <;> rfl

theorem code_lt (op : Operation) : op.code < 47 := by
  cases op <;> decide

end Operation

end LuaBytecode
