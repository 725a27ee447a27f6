/-
  One step after another, for steps that carry a state and may fail.

  Reading a chunk, reading it with a counter and working on the stack are all such steps, with a state and
  errors of their own.  A sequence goes on from where its first step ended, or ends with it where that
  failed; so it succeeds exactly if both steps do (`bind_eq_ok_iff`), and fails exactly if one of them does
  (`bind_eq_error_iff`).
-/

namespace LuaBytecode

variable {ε σ α β : Type} {m n : EStateM ε σ α} {f : α → EStateM ε σ β} {s t : σ}

/-- If the first step succeeds, the second decides. -/
theorem bind_of_ok {x : α} (h : m s = .ok x t) : (m >>= f) s = f x t := by
  show EStateM.bind m f s = f x t
  rw [EStateM.bind, h]

/-- If the first step fails, both do. -/
theorem bind_of_error {e : ε} (h : m s = .error e t) : (m >>= f) s = .error e t := by
  show EStateM.bind m f s = .error e t
  rw [EStateM.bind, h]

/-- Steps that do the same here can stand for each other here. -/
theorem bind_of_eq (h : m s = n s) : (m >>= f) s = (n >>= f) s := by
  show EStateM.bind m f s = EStateM.bind n f s
  rw [EStateM.bind, EStateM.bind, h]

/-- Two steps in a row succeed exactly if both do. -/
theorem bind_eq_ok_iff {y : β} :
    (m >>= f) s = .ok y t ↔ ∃ x u, m s = .ok x u ∧ f x u = .ok y t := by
  constructor
  · intro h
    cases hm : m s with
    | ok x u => exact ⟨x, u, rfl, (bind_of_ok hm).symm.trans h⟩
    | error e u => cases (bind_of_error hm).symm.trans h
  · rintro ⟨x, u, hm, hf⟩
    exact (bind_of_ok hm).trans hf

/-- Two steps in a row fail exactly if the first does, or the second after the first. -/
theorem bind_eq_error_iff {e : ε} :
    (m >>= f) s = .error e t ↔ m s = .error e t ∨ ∃ x u, m s = .ok x u ∧ f x u = .error e t := by
  constructor
  · intro h
    cases hm : m s with
    | ok x u => exact .inr ⟨x, u, rfl, (bind_of_ok hm).symm.trans h⟩
    | error e' u =>
      cases (bind_of_error hm).symm.trans h
      exact .inl rfl
  · rintro (hm | ⟨x, u, hm, hf⟩)
    · exact bind_of_error hm
    · exact (bind_of_ok hm).trans hf

end LuaBytecode
