/-
  How many bytes the elements of a segment take at least, against the width their count is checked for.

  A step that accepts a form consumes just that form, so a bound on the lengths of forms is a bound on what
  the step consumes.  It is a least one if some run attains it, and for every kind of element zeros do: the
  zero instruction, the constant nil, the absent name, the function with nothing in it.

  For six of the seven segments the least number of bytes is the width of the check.  For nested functions
  it is four more: there are seven counts in a function, and the width has room for six.  So the check lets
  some counts pass although the functions cannot all be there; it never refuses one for which they are.
-/
import Mathlib.Order.Bounds.Basic
import LuaBytecode.Proofs.Chunk.Grammar

namespace LuaBytecode

/-! ## Elements of segments -/

namespace Segment

/-- What the elements of a segment are read as. -/
def Element : Segment → Type
  | code => Instruction
  | constants => Value
  | upvalues => Upvalue
  | prototypes => Prototype
  | lineInfo => UInt32
  | localVariables => LocalVariable
  | upvalueNames => String

/-- The fewest bytes that an element takes. -/
def leastWidth : Segment → Nat
  | prototypes => 40
  | s => s.elementWidth

theorem leastWidth_eq_elementWidth_iff (s : Segment) : s.leastWidth = s.elementWidth ↔ s ≠ prototypes := by
  cases s <;> decide

end Segment

namespace ReadM

variable {α : Type} {m : ReadM α} {G : Form α}

/-- The step that reads an element, `nested` being the step for the functions nested in this one. -/
def element (nested : ReadM Prototype) : (s : Segment) → ReadM s.Element
  | .code => instruction
  | .constants => constant
  | .upvalues => upvalue
  | .prototypes => nested
  | .lineInfo => word32
  | .localVariables => localVariable
  | .upvalueNames => name

/-- A function is read with these steps, each behind the count of its own segment. -/
theorem prototypeBody_eq_elements (child : String → ReadM Prototype) (parent : String) :
    prototypeBody child parent = (do
      let ownSource ← name
      let source := if ownSource = "" then parent else ownSource
      let elements (s : Segment) : ReadM (List s.Element) := segment s (element (child source) s)
      let firstLine ← word32
      let lastLine ← word32
      let parameterCount ← byte
      let varargFlag ← byte
      let slotCount ← byte
      let code : List Instruction ← elements .code
      let constants ← elements .constants
      let upvalues ← elements .upvalues
      let children ← elements .prototypes
      let lineInfo : List UInt32 ← elements .lineInfo
      require (lineInfo = [] ∨ lineInfo.length = code.length)
        (.lineInfoMismatch code.length lineInfo.length)
      let localVariables ← elements .localVariables
      let upvalueNames ← elements .upvalueNames
      return .node
        { source, firstLine, lastLine, parameterCount, varargFlag, slotCount, code, constants, upvalues,
          lineInfo, localVariables, upvalueNames }
        children) := rfl

/-! ## Least widths -/

/-- The numbers of bytes that the step consumes, over all its successful runs. -/
def consumed (m : ReadM α) : Set Nat :=
  {n | ∃ c x d, m c = .ok x d ∧ c.unread.length = d.unread.length + n}

/-- No run consumes less than the shortest form. -/
theorem Accepts.mem_lowerBounds_consumed (hm : Accepts m G) {width : Nat}
    (hwidth : ∀ form x, G form x → width ≤ form.length) : width ∈ lowerBounds (consumed m) := by
  rintro n ⟨c, x, d, hread, hlength⟩
  obtain ⟨form, hform, hu, _⟩ := (hm c x d).1 hread
  have hle := hwidth form x hform
  rw [hu, List.length_append] at hlength
  omega

/-- **A bound that zeros attain is the least width.** -/
theorem Accepts.isLeast_consumed (hm : Accepts m G) {width : Nat} {x : α}
    (hwidth : ∀ form x, G form x → width ≤ form.length)
    (hzeros : m (.ofBytes (List.replicate width 0)) = .ok x ⟨[], width⟩) : IsLeast (consumed m) width := by
  refine ⟨⟨_, x, _, hzeros, ?_⟩, hm.mem_lowerBounds_consumed hwidth⟩
  show (List.replicate width 0).length = 0 + width
  rw [List.length_replicate, Nat.zero_add]

/-- Nested functions are read at any depth, with any number of levels left below it. -/
theorem isLeast_consumed_element (s : Segment) (depth room : Nat) (source : String) :
    IsLeast (consumed (element (prototype (depth + room) (room + 1) source) s)) s.leastWidth := by
  cases s with
  | code => exact accepts_instruction.isLeast_consumed (fun _ _ => InstructionForm.width_le) rfl
  | constants => exact accepts_constant.isLeast_consumed (fun _ _ => ConstantForm.width_le) rfl
  | upvalues => exact accepts_upvalue.isLeast_consumed (fun _ _ => UpvalueForm.width_le) rfl
  | prototypes =>
    have haccepts : Accepts (prototype (depth + room) (room + 1) source)
        (PrototypeForm (depth + room) depth source) := accepts_prototype (by omega) source
    exact haccepts.isLeast_consumed (fun _ _ => PrototypeForm.forty_le_length) rfl
  | lineInfo => exact accepts_word32.isLeast_consumed (fun _ _ => Word32Form.width_le) rfl
  | localVariables =>
    exact accepts_localVariable.isLeast_consumed (fun _ _ => LocalVariableForm.width_le) rfl
  | upvalueNames => exact accepts_name.isLeast_consumed (fun _ _ => NameForm.one_le_length) rfl

/-- **Least widths.**  For every segment, the width that its count is checked for is the least number of
    bytes that an element takes exactly if the elements are not functions.  A function takes forty bytes at
    least, at every depth and with any number of levels left below it. -/
theorem elementWidth_isLeast_iff (s : Segment) (depth room : Nat) (source : String) :
    IsLeast (consumed (element (prototype (depth + room) (room + 1) source) s)) s.leastWidth
      ∧ (IsLeast (consumed (element (prototype (depth + room) (room + 1) source) s)) s.elementWidth
        ↔ s ≠ .prototypes) := by
  have hleast := isLeast_consumed_element s depth room source
  refine ⟨hleast, ?_⟩
  rw [← s.leastWidth_eq_elementWidth_iff]
  constructor
  · intro hwidth
    exact hleast.unique hwidth
  · intro heq
    rw [← heq]
    exact hleast

/-- As many zeros as the width of nested functions end where the seventh count should stand, and no run
    consumes so few bytes. -/
theorem prototype_wider_than_elementWidth :
    prototype 200 200 "" (.ofBytes (List.replicate Segment.prototypes.elementWidth 0))
        = .error (.unexpectedEnd .word32 36) ⟨[], 36⟩
      ∧ ¬ IsLeast (consumed (prototype 200 200 "")) Segment.prototypes.elementWidth := by
  refine ⟨rfl, fun hwidth => ?_⟩
  have heq := (isLeast_consumed_element .prototypes 1 199 "").unique hwidth
  exact absurd heq (by decide)

end ReadM

end LuaBytecode
