/-
  Runs of stack operations.

  Two interfaces drive a stack.  A `StackCommand` works on values by index and keeps the slots above the
  top clear.  A `SlotCommand` works on the bare row, reversal of slots included.  A run carries out a list
  of commands, each on the stack that the one before it left, whether that one succeeded or failed.
-/
import LuaBytecode.Stack.Inspect
import LuaBytecode.Stack.Rearrange

namespace LuaBytecode

/-! ## Values by index -/

/-- An operation on values by index. -/
inductive StackCommand where
  | pushNil
  | pushBoolean (b : Bool)
  | pushInteger (n : Int64)
  | pushNumber (f : Binary64)
  | pushString (bytes : Bytes)
  | pushValue (index : Int)
  | pop (n : Int)
  | copy (source target : Int)
  | replace (index : Int)
  | insert (index : Int)
  | remove (index : Int)
  | rotate (index n : Int)
  | setTop (index : Int)
  | checkStack (n : Nat)
  | getTop
  | absIndex (index : Int)
  | toString? (index : Int)
  | toStringD (index : Int)
  /-- Everything there is to see at an index. -/
  | inspect (index : Int)
  deriving DecidableEq

/-- What an operation yields. -/
inductive StackResult where
  | done
  | bool (b : Bool)
  | index (i : Int)
  | string? (bytes : Option Bytes)
  | string (bytes : Bytes)
  /-- The index that was looked at; the stack itself says what is there. -/
  | view (index : Int)
  deriving DecidableEq

/-- Carries out an operation. -/
def StackCommand.run : StackCommand → StackM StackResult
  | pushNil => do StackM.push .nil; return .done
  | pushBoolean b => do StackM.push (.bool b); return .done
  | pushInteger n => do StackM.push (.int n); return .done
  | pushNumber f => do StackM.push (.float f); return .done
  | pushString bytes => do StackM.push (.str bytes); return .done
  | pushValue index => do StackM.pushValue index; return .done
  | pop n => do StackM.popMany n; return .done
  | copy source target => do StackM.copy source target; return .done
  | replace index => do StackM.replace index; return .done
  | insert index => do StackM.insert index; return .done
  | remove index => do StackM.remove index; return .done
  | rotate index n => do StackM.rotate index n; return .done
  | setTop index => do StackM.setTop index; return .done
  | checkStack n => do StackM.check n; return .bool true
  | getTop => do let s ← get; return .index s.topIndex
  | absIndex index => do let s ← get; return .index (s.absIndex index)
  | toString? index => do let bytes ← StackM.toString? index; return .string? bytes
  | toStringD index => do let bytes ← StackM.toStringD index; return .string bytes
  | inspect index => return .view index

/-! ## Bare slots -/

/-- An operation on the bare row. -/
inductive SlotCommand where
  | push (v : Value)
  | pop
  | check (n : Nat)
  | absIndex (index : Int)
  | isValid (index : Int)
  | get (index : Int)
  | get? (index : Int)
  | set (index : Int) (v : Value)
  | reverse (lo hi : Nat)
  deriving DecidableEq

/-- What an operation on the bare row yields. -/
inductive SlotResult where
  | done
  | bool (b : Bool)
  | index (i : Int)
  | value (v : Value)
  | value? (v : Option Value)
  deriving DecidableEq

/-- Carries out an operation on the bare row. -/
def SlotCommand.run : SlotCommand → StackM SlotResult
  | push v => do StackM.push v; return .done
  | pop => do let v ← StackM.pop; return .value v
  | check n => do StackM.check n; return .done
  | absIndex index => do let s ← MonadState.get; return .index (s.absIndex index)
  | isValid index => do let s ← MonadState.get; return .bool (s.isValid index)
  | get index => do let v ← StackM.load index; return .value v
  | get? index => do let v ← StackM.load? index; return .value? v
  | set index v => do StackM.store index v; return .done
  | reverse lo hi => do StackM.reverse lo hi; return .done

/-! ## Runs -/

/-- The stack after a step, however the step ended. -/
def stackAfter {α : Type} : EStateM.Result StackError Stack α → Stack
  | .ok _ s => s
  | .error _ s => s

/-- The outcome of every step of a run. -/
def stackRun {γ α : Type} (step : γ → StackM α) :
    Stack → List γ → List (EStateM.Result StackError Stack α)
  | _, [] => []
  | s, c :: rest =>
    let outcome := step c s
    outcome :: stackRun step (stackAfter outcome) rest

end LuaBytecode
