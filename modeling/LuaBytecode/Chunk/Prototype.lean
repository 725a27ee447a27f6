/-
  Function prototypes and chunks.

  A compiled function owns its code, constants, upvalue descriptors, debug data and, nested in it, the
  functions it defines.  What a function holds of its own is a `FunctionBody`; a `Prototype` is the tree of
  bodies.  Recursion over the tree goes through `fold`, which gives each body the results of its
  children, so that an operation on trees is one non-recursive step and one equation, and through
  `induction_on`, which gives each body the property of its children.
-/
import LuaBytecode.Instruction.Word
import LuaBytecode.Value.Basic

namespace LuaBytecode

/-- Where a closure finds a captured variable: in a register of the enclosing function if `inStack` is
    not zero, among that function's own upvalues otherwise. -/
structure Upvalue where
  inStack : UInt8
  index : UInt8
  deriving DecidableEq

/-- Whether the variable is a register of the enclosing function. -/
def Upvalue.isStackLocal (u : Upvalue) : Bool := u.inStack != 0

/-- A local variable and the instructions between which it is alive. -/
structure LocalVariable where
  name : String
  startPc : UInt32
  endPc : UInt32
  deriving DecidableEq

/-- What a function holds apart from the functions nested in it. -/
structure FunctionBody where
  /-- The name of the source; empty when unknown. -/
  source : String
  firstLine : UInt32
  lastLine : UInt32
  parameterCount : UInt8
  /-- Not zero for a function with variable arguments. -/
  varargFlag : UInt8
  /-- The number of registers. -/
  slotCount : UInt8
  code : List Instruction
  constants : List Value
  upvalues : List Upvalue
  /-- The source line of each instruction; empty when stripped. -/
  lineInfo : List UInt32
  localVariables : List LocalVariable
  upvalueNames : List String
  deriving DecidableEq

namespace FunctionBody

/-- The main function of a chunk has no first line. -/
def isMain (f : FunctionBody) : Bool := f.firstLine == 0

def hasVarargs (f : FunctionBody) : Bool := f.varargFlag != 0

/-- The instruction at a position, counted from zero. -/
def instruction? (f : FunctionBody) (pc : Nat) : Option Instruction := f.code[pc]?

/-- The source line of the instruction at a position. -/
def lineAt? (f : FunctionBody) (pc : Nat) : Option UInt32 := f.lineInfo[pc]?

/-- Equality with constants compared as programs compare them. -/
def alike (f g : FunctionBody) : Bool :=
  f.constants.length == g.constants.length
    && (f.constants.zip g.constants).all (fun p => p.1.alike p.2)
    && decide ({ f with constants := [] } = { g with constants := [] })

end FunctionBody

/-- A function with the functions nested in it. -/
inductive Prototype where
  | node (body : FunctionBody) (children : List Prototype)

namespace Prototype

def body : Prototype → FunctionBody
  | node body _ => body

def children : Prototype → List Prototype
  | node _ children => children

/-! ## Recursion and induction -/

section Fold

variable {β : Type}

mutual

/-- Replaces every function, from the leaves up, by `f` of its body and of what replaced its
    children. -/
def fold (f : FunctionBody → List β → β) : Prototype → β
  | node body children => f body (foldEach f children)

/-- Folds every tree of a list. -/
def foldEach (f : FunctionBody → List β → β) : List Prototype → List β
  | [] => []
  | p :: rest => fold f p :: foldEach f rest

end

theorem foldEach_eq_map (f : FunctionBody → List β → β) (ps : List Prototype) :
    foldEach f ps = ps.map (fold f) := by
  induction ps with
  | nil => rfl
  | cons p rest ih => simp [foldEach, ih]

@[simp] theorem fold_node (f : FunctionBody → List β → β) (b : FunctionBody) (cs : List Prototype) :
    fold f (node b cs) = f b (cs.map (fold f)) := by
  rw [fold, foldEach_eq_map]

end Fold

/-- A property holds of every tree if it passes from the children to the tree. -/
theorem induction_on {P : Prototype → Prop}
    (step : ∀ b cs, (∀ c ∈ cs, P c) → P (node b cs)) (p : Prototype) : P p := by
  refine @Prototype.rec P (fun cs => ∀ c ∈ cs, P c) ?_ ?_ ?_ p
  · exact fun b cs h => step b cs h
  · exact fun c hc => by simp at hc
  · intro c cs hc hcs d hd
    rcases List.mem_cons.1 hd with h | h
    · exact h ▸ hc
    · exact hcs d h

/-! ## Equality -/

mutual

/-- Equality of trees, decided function by function. -/
def decEq : (p q : Prototype) → Decidable (p = q)
  | .node f ps, .node g qs =>
    match instDecidableEqFunctionBody f g, decEqEach ps qs with
    | isTrue hbody, isTrue hchildren => isTrue (by rw [hbody, hchildren])
    | isFalse hbody, _ => isFalse (by intro h; cases h; exact hbody rfl)
    | _, isFalse hchildren => isFalse (by intro h; cases h; exact hchildren rfl)

/-- Equality of lists of trees. -/
def decEqEach : (ps qs : List Prototype) → Decidable (ps = qs)
  | [], [] => isTrue rfl
  | [], _ :: _ => isFalse (by intro h; cases h)
  | _ :: _, [] => isFalse (by intro h; cases h)
  | p :: ps, q :: qs =>
    match decEq p q, decEqEach ps qs with
    | isTrue hhead, isTrue htail => isTrue (by rw [hhead, htail])
    | isFalse hhead, _ => isFalse (by intro h; cases h; exact hhead rfl)
    | _, isFalse htail => isFalse (by intro h; cases h; exact htail rfl)

end

instance : DecidableEq Prototype := decEq

/-! ## Queries -/

/-- The number of functions in the tree. -/
def count : Prototype → Nat := fold fun _ counts => 1 + counts.foldr (· + ·) 0

/-- The number of levels of the tree; a function without children has one. -/
def depth : Prototype → Nat := fold fun _ depths => 1 + depths.foldr max 0

mutual

/-- The function, then each child with all that is nested in it. -/
def preorder : Prototype → List Prototype
  | node body children => node body children :: preorderEach children

/-- The trees of a list one after another. -/
def preorderEach : List Prototype → List Prototype
  | [] => []
  | p :: rest => preorder p ++ preorderEach rest

end

theorem preorderEach_eq_flatMap (ps : List Prototype) : preorderEach ps = ps.flatMap preorder := by
  induction ps with
  | nil => rfl
  | cons p rest ih => simp [preorderEach, ih]

@[simp] theorem preorder_node (b : FunctionBody) (cs : List Prototype) :
    preorder (node b cs) = node b cs :: cs.flatMap preorder := by
  rw [preorder, preorderEach_eq_flatMap]

/-- Whether trees and tests agree one to one. -/
def allAlike : List (Prototype → Bool) → List Prototype → Bool
  | [], [] => true
  | test :: tests, p :: ps => test p && allAlike tests ps
  | _, _ => false

/-- Equality with constants compared as programs compare them. -/
def alike : Prototype → Prototype → Bool :=
  fold fun body tests q => body.alike q.body && allAlike tests q.children

end Prototype

/-- A loaded program: the main function, and the number of upvalues that its closure is given. -/
structure Chunk where
  upvalueCount : UInt8
  main : Prototype
  deriving DecidableEq

/-- Equality with constants compared as programs compare them. -/
def Chunk.alike (c d : Chunk) : Bool :=
  c.upvalueCount == d.upvalueCount && c.main.alike d.main

end LuaBytecode
