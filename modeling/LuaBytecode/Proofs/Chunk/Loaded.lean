/-
  What holds of every tree that the grammar derives, hence of every tree that is loaded.

  The grammar has one rule for functions, so a derivation of a tree is taken apart along the tree: the root
  by the rule, each child by a derivation one level deeper, under the root's source, of a part of the bytes
  (`PrototypeForm.child`).  Each fact here is an induction on the tree with that one step.
-/
import LuaBytecode.Proofs.Chunk.Grammar
import LuaBytecode.Proofs.Chunk.Tree

namespace LuaBytecode

/-- Every element of a sequence has a form among those of the sequence. -/
theorem RepeatedForm.exists_form {α : Type} {G : Form α} {forms : Bytes} {xs : List α} {x : α}
    (h : RepeatedForm G forms xs) (hx : x ∈ xs) : ∃ form, G form x ∧ form.length ≤ forms.length := by
  induction h with
  | nil => cases hx
  | @cons form forms y ys hy _ ih =>
    rcases List.mem_cons.1 hx with rfl | hx
    · exact ⟨form, hy, by simp⟩
    · obtain ⟨form', hform', hle⟩ := ih hx
      refine ⟨form', hform', ?_⟩
      rw [List.length_append]
      omega

/-- An element of a segment has a form within that of the segment. -/
theorem SegmentForm.exists_form {α : Type} {G : Form α} {bytes : Bytes} {xs : List α} {x : α}
    (h : SegmentForm G bytes xs) (hx : x ∈ xs) : ∃ form, G form x ∧ form.length ≤ bytes.length := by
  obtain ⟨elements, _, rfl, helements⟩ := h
  obtain ⟨form, hform, hle⟩ := helements.exists_form hx
  refine ⟨form, hform, ?_⟩
  rw [List.length_append]
  omega

/-- A segment has no more elements than its count can state. -/
theorem SegmentForm.length_lt {α : Type} {G : Form α} {bytes : Bytes} {xs : List α}
    (h : SegmentForm G bytes xs) : xs.length < countBound := by
  obtain ⟨_, hcount, _⟩ := h
  exact hcount

namespace PrototypeForm

variable {limit depth : Nat} {parent : String} {form : Bytes} {f : FunctionBody}
  {cs : List Prototype} {p : Prototype}

/-- A child is derived one level deeper, under the source of the function, from a part of the bytes. -/
theorem child {c : Prototype} (h : PrototypeForm limit depth parent form (.node f cs)) (hc : c ∈ cs) :
    ∃ part, PrototypeForm limit (depth + 1) f.source part c ∧ part.length ≤ form.length := by
  cases h with
  | node _ _ _ _ _ _ _ hnested =>
    obtain ⟨part, hpart, hle⟩ := (siblingForms_iff.1 hnested).exists_form hc
    refine ⟨part, hpart, ?_⟩
    simp only [List.length_append]
    omega

/-- A derived tree stays within the limit. -/
theorem depth_le (h : PrototypeForm limit depth parent form p) : p.depth + depth ≤ limit + 1 := by
  induction p using Prototype.induction_on generalizing depth parent form with
  | step f cs ih =>
    have hdepth : depth ≤ limit := by cases h; assumption
    have hchildren : ∀ c ∈ cs, c.depth ≤ limit - depth := by
      intro c hc
      obtain ⟨part, hpart, _⟩ := h.child hc
      have := ih c hc hpart
      omega
    have := Prototype.depth_node_le_iff (f := f) |>.2 hchildren
    omega

/-- In a derived tree line numbers agree with the code. -/
theorem linesAgree (h : PrototypeForm limit depth parent form p) : p.LinesAgree := by
  induction p using Prototype.induction_on generalizing depth parent form with
  | step f cs ih =>
    refine Prototype.linesAgree_node.2 ⟨by cases h; assumption, fun c hc => ?_⟩
    obtain ⟨part, hpart, _⟩ := h.child hc
    exact ih c hc hpart

/-- The root of a derived tree has no source only if there is none around it. -/
theorem source_eq_empty (h : PrototypeForm limit depth parent form p) :
    p.body.source = "" → parent = "" := by
  cases h with
  | node _ _ hsource =>
    intro hempty
    split at hsource
    · exact hsource.symm.trans hempty
    · rename_i hne
      exact absurd (hsource.symm.trans hempty) hne

/-- **In a derived tree every source is resolved**, so resolving changes nothing. -/
theorem resolveSources_eq (h : PrototypeForm limit depth parent form p) :
    p.resolveSources parent = p := by
  induction p using Prototype.induction_on generalizing depth parent form with
  | step f cs ih =>
    have hroot : f.sourceWithin parent = f.source :=
      (f.sourceWithin_eq_source_iff parent).2 h.source_eq_empty
    have hchildren : cs.map (fun c => c.resolveSources f.source) = cs := by
      refine (List.map_congr_left fun c hc => ?_).trans (List.map_id cs)
      obtain ⟨part, hpart, _⟩ := h.child hc
      exact ih c hc hpart
    rw [Prototype.resolveSources_node, hroot, hchildren]

end PrototypeForm

/-- A loaded chunk is within the limit. -/
theorem Chunk.depth_le_of_loadWithin {limit : Nat} {bytes : Bytes} {c : Chunk}
    (h : Chunk.loadWithin limit bytes = .ok c) : c.main.depth ≤ limit := by
  obtain ⟨form, hform, _⟩ := ReadM.chunk_eq_ok_iff.1 (Chunk.loadWithin_eq_ok.1 h)
  have := hform.depth_le
  omega

end LuaBytecode
