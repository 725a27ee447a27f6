/-
  The value stack and its slots.

  A stack is a row of slots of which the first `top` hold live values.  Values are addressed by index: from
  the bottom as `1, …, top`, from the top as `-1, …, -top`; every other index is invalid.  Pushing never
  grows the row; room is made beforehand with `check`.

  Slots are counted in words of 64 bits, and an index has 32 bits with a sign.  A row that is to have more
  slots than a word can count is refused (`arithmeticOverflow`).  The number of live values is turned into
  an index by keeping its low bits (`topIndex`): below `2 ^ 31` it stays what it is, and a negative index
  counted from it is an index again; from there on it does not, and indices that count from the top go
  astray.

  An operation is a step that yields a value or fails, and says in both cases what the stack is afterwards.
  Every access to the row goes through `slotAt`, `setSlot` and `swap`, which fail with `slotOutOfRange`
  beyond its end; so that "no operation reaches outside the row" is the statement that this failure never
  arises.

  `reverse lo hi` turns around the closed range of slots from `lo` to `hi`, counted from zero, by swapping
  its ends and moving inward.  It looks at slots and not at live values: a range that reaches above `top`
  moves live values up and nil down.
-/
import LuaBytecode.Value.Basic

namespace LuaBytecode

/-- Why a stack operation fails. -/
inductive StackError where
  | overflow
  | underflow
  | invalidIndex (index : Int)
  | slotOutOfRange
  | arithmeticOverflow
  deriving DecidableEq

/-- The message of a failure. -/
def StackError.message : StackError → String
  | overflow => "stack overflow"
  | underflow => "stack underflow"
  | invalidIndex index => "invalid index " ++ integerText index
  | slotOutOfRange => "slot out of range"
  | arithmeticOverflow => "arithmetic overflow"

/-- A row of slots, the first `top` of them live. -/
structure Stack where
  slots : Array Value
  top : Nat
  deriving DecidableEq

namespace Stack

/-- One more than the greatest number of slots that can be counted, `2 ^ 64`. -/
def wordBound : Nat := 0x10000000000000000

/-- One more than the greatest index, `2 ^ 31`. -/
def indexBound : Nat := 0x80000000

/-- An empty stack with room for `size` values. -/
def ofSize (size : Nat) : Stack := ⟨Array.replicate size .nil, 0⟩

/-- The number of slots. -/
def capacity (s : Stack) : Nat := s.slots.size

/-- The live values, bottom first. -/
def live (s : Stack) : List Value := s.slots.toList.take s.top

/-! ## Indices -/

/-- The number of live values as an index: its low 32 bits, read with a sign. -/
def topIndex (s : Stack) : Int := Int.bmod s.top (2 * indexBound)

/-- A negative index counted from the bottom; other indices as they are. -/
def absIndex (s : Stack) (index : Int) : Int := if index < 0 then index + 1 + s.topIndex else index

/-- Whether an index addresses a live value. -/
def isValid (s : Stack) (index : Int) : Bool :=
  decide (0 < s.absIndex index ∧ s.absIndex index ≤ s.top)

/-- The slot of a live value, counted from zero. -/
def slotOf? (s : Stack) (index : Int) : Option Nat :=
  if s.isValid index then some (s.absIndex index - 1).toNat else none

/-- The live value at an index. -/
def get? (s : Stack) (index : Int) : Option Value := (s.slotOf? index).bind (s.slots[·]?)

/-- The live value at an index, nil where there is none. -/
def get (s : Stack) (index : Int) : Value := (s.get? index).getD .nil

end Stack

/-- A stack operation: a value or a failure, and the stack after it either way. -/
abbrev StackM := EStateM StackError Stack

namespace StackM

/-! ## Slots -/

/-- What a slot holds. -/
def slotAt (i : Nat) : StackM Value := fun s =>
  match s.slots[i]? with
  | some v => .ok v s
  | none => .error .slotOutOfRange s

/-- Puts a value into a slot. -/
def setSlot (i : Nat) (v : Value) : StackM Unit := fun s =>
  if h : i < s.slots.size then .ok () { s with slots := s.slots.set i v }
  else .error .slotOutOfRange s

/-- Exchanges two slots. -/
def swap (i j : Nat) : StackM Unit := fun s =>
  if h : i < s.slots.size ∧ j < s.slots.size then
    .ok () { s with slots := s.slots.swap i j h.1 h.2 }
  else .error .slotOutOfRange s

/-! ## Values -/

/-- Goes on only if `p` holds. -/
def require (p : Prop) [Decidable p] (e : StackError) : StackM Unit :=
  if p then return () else throw e

/-- Makes room for `n` more values, if that many slots can be counted; the row never shrinks. -/
def check (n : Nat) : StackM Unit := do
  let s ← get
  if s.slots.size - s.top < n then
    require (s.top + n < Stack.wordBound) .arithmeticOverflow
    modify fun s => { s with slots := s.slots ++ Array.replicate (s.top + n - s.slots.size) .nil }
  else return ()

/-- Puts a value on top. -/
def push (v : Value) : StackM Unit := do
  let s ← get
  require (s.top ≠ s.slots.size) .overflow
  setSlot s.top v
  modify fun s => { s with top := s.top + 1 }

/-- Takes the top value off and clears its slot. -/
def pop : StackM Value := do
  let s ← get
  require (s.top ≠ 0) .underflow
  let v ← slotAt (s.top - 1)
  setSlot (s.top - 1) .nil
  modify fun s => { s with top := s.top - 1 }
  return v

/-- The live value at an index. -/
def load? (index : Int) : StackM (Option Value) := do
  let s ← get
  match s.slotOf? index with
  | some i => some <$> slotAt i
  | none => return none

/-- The live value at an index, nil where there is none. -/
def load (index : Int) : StackM Value := do
  let v ← load? index
  return v.getD .nil

/-- Replaces the live value at an index. -/
def store (index : Int) (v : Value) : StackM Unit := do
  let s ← get
  match s.slotOf? index with
  | some i => setSlot i v
  | none => throw (.invalidIndex index)

/-! ## Ranges -/

/-- Swaps the ends of the range from `lo` to `hi` and moves inward, `n` times. -/
def swapInward : (n lo hi : Nat) → StackM Unit
  | 0, _, _ => return ()
  | n + 1, lo, hi => do
    swap lo hi
    swapInward n (lo + 1) (hi - 1)

/-- Turns around the slots from `lo` to `hi`. -/
def reverse (lo hi : Nat) : StackM Unit := swapInward ((hi + 1 - lo) / 2) lo hi

end StackM

end LuaBytecode
