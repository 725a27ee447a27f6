/-
  Rounding a quotient of naturals to the nearest natural.

  Two places round: widening an integer to a double drops low bits, and choosing the decimal digits
  of a double picks the nearer of two neighbours on a decimal grid.  They differ only in where an
  exact half goes, so that choice is a parameter.  `roundDiv tie n d` is within half of `n / d`; the
  parameter matters only when `2 * (n % d) = d`.
-/

namespace LuaBytecode

/-- Where an exact half goes. -/
inductive Tie where
  /-- To the even neighbour. -/
  | toEven
  /-- To the larger neighbour. -/
  | up
  deriving DecidableEq

/-- The natural nearest to `n / d`, an exact half going as `tie` says.  With `d = 0` the quotient and
    the remainder are those of `Nat`, so the result is `1` or `0` and never used. -/
def roundDiv (tie : Tie) (n d : Nat) : Nat :=
  let q := n / d
  let r := n % d
  if 2 * r < d then q
  else if d < 2 * r then q + 1
  else match tie with
    | .toEven => q + q % 2
    | .up => q + 1

/-- A rounded quotient is the floor or the one above it. -/
theorem roundDiv_eq_or (tie : Tie) (n d : Nat) :
    roundDiv tie n d = n / d ∨ roundDiv tie n d = n / d + 1 := by
  unfold roundDiv
  dsimp only
  split
  · exact Or.inl rfl
  · split
    · exact Or.inr rfl
    · cases tie
      · have : n / d % 2 = 0 ∨ n / d % 2 = 1 := by omega
        rcases this with h | h <;> simp [h]
      · exact Or.inr rfl

example : roundDiv .toEven 5 2 = 2 := by decide
example : roundDiv .up 5 2 = 3 := by decide
example : roundDiv .toEven 7 2 = 4 := by decide

end LuaBytecode
