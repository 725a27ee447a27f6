/-
  Moving values within the stack, and changing its height.

  Rotation moves the values from an index to the top around by `n` places, up for positive `n`.  Cutting
  those values in two and exchanging the parts is the same thing, and three reversals exchange two parts
  in place: each part by itself, then both together.
-/
import LuaBytecode.Stack.Basic

namespace LuaBytecode.StackM

/-- Pushes a copy of the value at an index, nil where there is none. -/
def pushValue (index : Int) : StackM Unit := do
  let v ← load index
  push v

/-- Copies the value at one index over the value at another. -/
def copy (source target : Int) : StackM Unit := do
  let v ← load source
  store target v

/-- Moves the top value over the value at an index. -/
def replace (index : Int) : StackM Unit := do
  let s ← get
  require (s.top ≠ 0) .underflow
  let v ← load (-1)
  store index v
  let _ ← pop
  return ()

/-- Rotates the values from an index to the top by `n` places, toward the top for positive `n`. -/
def rotate (index n : Int) : StackM Unit := do
  let s ← get
  match s.slotOf? index with
  | none => throw (.invalidIndex index)
  | some p =>
    let size := s.top - p
    require (n.natAbs ≤ size) (.invalidIndex index)
    let cut := if 0 ≤ n then size - n.natAbs else n.natAbs
    reverse p (p + cut - 1)
    reverse (p + cut) (s.top - 1)
    reverse p (s.top - 1)

/-! ## Height -/

/-- Pushes nil `n` times. -/
def pushNils : Nat → StackM Unit
  | 0 => return ()
  | n + 1 => do
    push .nil
    pushNils n

/-- Pops `n` values. -/
def drop : Nat → StackM Unit
  | 0 => return ()
  | n + 1 => do
    let _ ← pop
    drop n

/-- Makes an index the top: values above it are popped, missing ones are filled with nil.  How many there
    are of either is found by comparing indices. -/
def setTop (index : Int) : StackM Unit := do
  let s ← get
  let height := s.absIndex index
  require (0 ≤ height) .underflow
  if s.topIndex < height then
    check (height - s.topIndex).toNat
    pushNils (height - s.topIndex).toNat
  else drop (s.topIndex - height).toNat

/-- Pops `n` values.  The least index is refused, as its negative is no index. -/
def popMany (n : Int) : StackM Unit := do
  require (-n < Stack.indexBound) .arithmeticOverflow
  setTop (-n - 1)

/-- Moves the top value down to an index. -/
def insert (index : Int) : StackM Unit := rotate index 1

/-- Erases the value at an index. -/
def remove (index : Int) : StackM Unit := do
  rotate index (-1)
  popMany 1

end LuaBytecode.StackM
