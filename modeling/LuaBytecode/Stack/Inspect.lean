/-
  Looking at the values of a stack, and turning numbers into strings in place.
-/
import LuaBytecode.Stack.Basic

namespace LuaBytecode

namespace Stack

/-- The kind of the value at an index. -/
def kindAt (s : Stack) (index : Int) : Kind := ((s.get? index).map Value.kind).getD .none

/-- No value, or nil. -/
def isNoneOrNil (s : Stack) (index : Int) : Bool := decide ((s.kindAt index).code ≤ Kind.nil.code)

/-- A string, or a number, which reads as a string. -/
def isString (s : Stack) (index : Int) : Bool :=
  s.kindAt index == .string || s.kindAt index == .number

/-- The value at an index as a double. -/
def toNumber? (s : Stack) (index : Int) : Option Binary64 := (s.get? index).bind Value.toNumber?

/-- The value at an index as an integer. -/
def toInteger? (s : Stack) (index : Int) : Option Int64 := (s.get? index).bind Value.toInteger?

def isNumber (s : Stack) (index : Int) : Bool := (s.toNumber? index).isSome

/-- Whether the value at an index is stored as an integer. -/
def isInteger (s : Stack) (index : Int) : Bool :=
  match s.get? index with
  | some (.int _) => true
  | _ => false

/-- Whether there is a value at an index and it is truthy. -/
def truthyAt (s : Stack) (index : Int) : Bool := ((s.get? index).map Value.truthy).getD false

end Stack

namespace StackM

/-- The string at an index.  A number is first replaced by its text. -/
def toString? (index : Int) : StackM (Option Bytes) := do
  let v ← load? index
  match v with
  | some (.str bytes) => return some bytes
  | some v =>
    match v.numberText? with
    | some text =>
      let bytes := Utf8.encode text
      store index (.str bytes)
      return some bytes
    | none => return none
  | none => return none

/-- The string at an index, empty where there is none. -/
def toStringD (index : Int) : StackM Bytes := do
  let bytes ← toString? index
  return bytes.getD []

end StackM

end LuaBytecode
