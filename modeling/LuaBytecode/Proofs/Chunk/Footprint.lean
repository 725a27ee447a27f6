/-
  What is loaded is bounded by the input, whatever counts the input states.

  A function has a footprint: forty bytes that every function takes, and for each element of each of its
  segments the least number of bytes that such an element takes.  The footprint of a tree is that of all its
  functions together.

  The crux is that no byte is charged twice.  The form of a function is its parts one after another, and the
  functions nested in it are one of these parts, so that the footprint of the whole is at most the sum of
  the lengths of the parts (`PrototypeForm.footprint_le`, by induction on the tree).  Counts do not come
  into it: the elements that a count announces are there, or the function is not derived.
-/
import Mathlib.Algebra.BigOperators.Ring.List
import Mathlib.Algebra.Order.BigOperators.Group.List
import Mathlib.Algebra.Order.Ring.Nat
import LuaBytecode.Proofs.Chunk.RoundTrip

namespace LuaBytecode

/-! ## Footprints -/

/-- The fewest bytes that a constant takes: its tag, and what the tag announces. -/
def Value.footprint : Value → Nat
  | .nil => 1
  | .bool _ => 2
  | .int _ | .float _ => 9
  | .str bytes => 2 + bytes.length

/-- The fewest bytes that a function takes, apart from the functions nested in it.  Names count as if they
    were absent. -/
def FunctionBody.footprint (f : FunctionBody) : Nat :=
  40 + 4 * f.code.length + (f.constants.map Value.footprint).sum + 2 * f.upvalues.length
    + 4 * f.lineInfo.length + 9 * f.localVariables.length + f.upvalueNames.length

namespace Prototype

/-- The fewest bytes that all functions of the tree take together. -/
def footprint (p : Prototype) : Nat := (p.preorder.map fun q => q.body.footprint).sum

/-- A function and the functions nested in it, each once. -/
theorem footprint_node (f : FunctionBody) (cs : List Prototype) :
    (node f cs).footprint = f.footprint + (cs.map footprint).sum := by
  have hchildren : ((cs.flatMap preorder).map fun q => q.body.footprint).sum
      = (cs.map footprint).sum := by
    induction cs with
    | nil => rfl
    | cons c cs ih =>
      rw [List.flatMap_cons, List.map_append, List.sum_append, ih, List.map_cons, List.sum_cons]
      rfl
  rw [← hchildren, footprint, preorder_node, List.map_cons, List.sum_cons]
  rfl

theorem count_node (f : FunctionBody) (cs : List Prototype) :
    (node f cs).count = 1 + (cs.map count).sum := by
  rw [List.sum_eq_foldr]
  exact fold_node _ f cs

/-- Every function of a tree takes forty bytes. -/
theorem forty_mul_count_le_footprint (p : Prototype) : 40 * p.count ≤ p.footprint := by
  induction p using induction_on with
  | step f cs ih =>
    have hroot : 40 ≤ f.footprint := by
      unfold FunctionBody.footprint
      omega
    have hchildren : 40 * (cs.map count).sum ≤ (cs.map footprint).sum := by
      rw [← List.sum_map_mul_left]
      exact List.sum_le_sum ih
    rw [count_node, footprint_node]
    omega

end Prototype

/-! ## What forms take -/

section Elements

variable {α : Type} {G : Form α} {size : α → Nat} {form : Bytes} {xs : List α}

/-- Forms one after another take as much as their elements together. -/
theorem RepeatedForm.sum_le (h : RepeatedForm G form xs)
    (hsize : ∀ part, ∀ x ∈ xs, G part x → size x ≤ part.length) : (xs.map size).sum ≤ form.length := by
  induction h with
  | nil => exact Nat.le_refl 0
  | cons hx _ ih =>
    have hfirst := hsize _ _ (List.mem_cons_self ..) hx
    have hrest := ih fun part y hy => hsize part y (List.mem_cons_of_mem _ hy)
    rw [List.map_cons, List.sum_cons, List.length_append]
    omega

/-- A segment takes its count and its elements. -/
theorem SegmentForm.sum_le (h : SegmentForm G form xs)
    (hsize : ∀ part x, G part x → size x ≤ part.length) : 4 + (xs.map size).sum ≤ form.length := by
  obtain ⟨elements, _, rfl, helements⟩ := h
  have hsum := helements.sum_le fun part x _ => hsize part x
  rw [List.length_append, length_toLittleEndian]
  omega

/-- A segment of elements of a least width. -/
theorem SegmentForm.width_le {width : Nat} (h : SegmentForm G form xs)
    (hwidth : ∀ part x, G part x → width ≤ part.length) : 4 + width * xs.length ≤ form.length := by
  obtain ⟨elements, _, rfl, helements⟩ := h
  have hmul := helements.width_le hwidth
  rw [List.length_append, length_toLittleEndian, Nat.mul_comm]
  omega

end Elements

/-- Tag and contents, constructor by constructor. -/
theorem ConstantForm.footprint_le {form : Bytes} {v : Value} (h : ConstantForm form v) :
    v.footprint ≤ form.length := by
  cases h with
  | nil => exact Nat.le_refl 1
  | bool b => exact Nat.le_refl 2
  | int n | float f =>
    rw [List.length_cons, length_toLittleEndian]
    exact Nat.le_refl 9
  | shortString hstring | longString hstring =>
    have := hstring.length_lt
    rw [List.length_cons, Value.footprint]
    omega

/-- **A derived tree takes no more than the bytes it is derived from.** -/
theorem PrototypeForm.footprint_le {limit depth : Nat} {parent : String} {form : Bytes}
    {p : Prototype} (h : PrototypeForm limit depth parent form p) : p.footprint ≤ form.length := by
  induction p using Prototype.induction_on generalizing depth parent form with
  | step f cs ih =>
    cases h with
    | node _ hsource _ hcode hconstants hupvalues _ hnested hlineInfo _ hlocals hnames =>
      have h1 := hsource.one_le_length
      have h2 := hcode.width_le fun _ _ => InstructionForm.width_le
      have h3 := hconstants.sum_le fun _ _ => ConstantForm.footprint_le
      have h4 := hupvalues.width_le fun _ _ => UpvalueForm.width_le
      have h5 := (siblingForms_iff.1 hnested).sum_le fun part c hc hpart => ih c hc hpart
      have h6 := hlineInfo.width_le fun _ _ => Word32Form.width_le
      have h7 := hlocals.width_le fun _ _ => LocalVariableForm.width_le
      have h8 := hnames.width_le fun _ _ => NameForm.one_le_length
      simp only [Segment.elementWidth] at h2 h4 h6 h7
      rw [Prototype.footprint_node, FunctionBody.footprint]
      simp only [List.length_append, length_toLittleEndian, List.length_cons, List.length_nil]
      omega

/-! ## Loading -/

/-- **Output is bounded by input.**  The footprint of all functions of a loaded chunk, with the header and
    one byte, is at most the length of the input; so there is at most one function for every forty bytes
    behind them. -/
theorem Chunk.loadWithin_footprint_le {limit : Nat} {bytes : Bytes} {c : Chunk}
    (h : Chunk.loadWithin limit bytes = .ok c) :
    34 + (c.main.preorder.map fun p => p.body.footprint).sum ≤ bytes.length
      ∧ c.main.count ≤ (bytes.length - 34) / 40 := by
  obtain ⟨form, hform, rfl⟩ := ReadM.chunk_eq_ok_iff.1 (Chunk.loadWithin_eq_ok.1 h)
  have hlength : (Format.header ++ [c.upvalueCount] ++ form).length = 34 + form.length := by
    rw [List.length_append, List.length_append, Format.length_header]
    rfl
  have hfootprint : c.main.footprint ≤ form.length := hform.footprint_le
  have hcount := c.main.forty_mul_count_le_footprint
  rw [hlength]
  constructor
  · exact Nat.add_le_add_left hfootprint 34
  · rw [Nat.le_div_iff_mul_le (by decide)]
    omega

/-- Two functions with a footprint of 97 bytes together, in an input of 145. -/
theorem Chunk.loadWithin_footprint_le_sample :
    Chunk.loadWithin 2 unwrittenSample = .ok unwrittenSampleChunk
      ∧ (unwrittenSampleChunk.main.preorder.map fun p => p.body.footprint) = [57, 40]
      ∧ 34 + (unwrittenSampleChunk.main.preorder.map fun p => p.body.footprint).sum
        ≤ unwrittenSample.length
      ∧ unwrittenSampleChunk.main.count ≤ (unwrittenSample.length - 34) / 40 := by
  have hload : Chunk.loadWithin 2 unwrittenSample = .ok unwrittenSampleChunk :=
    eq_ok_of_toOption (by decide +kernel)
  have hbound := Chunk.loadWithin_footprint_le hload
  exact ⟨hload, by decide +kernel, hbound.1, hbound.2⟩

end LuaBytecode
