/-
  Facts on function trees: what holds of every function, how deep a tree is, and where sources come from.

  A property of all functions of a tree is stated over `preorder`, and passes to the root and the children
  by `forall_mem_preorder_node`.  A tree has at most `n + 1` levels exactly if its children have at most
  `n` each (`depth_node_le_iff`).

  Resolving sources leaves a tree alone exactly if no function without a source stands directly inside one
  that has a source.  Indirect containment need not be asked for: on a path from a function with a source
  down to one without, some step goes from one with to one without.
-/
import LuaBytecode.Chunk.DebugData

namespace LuaBytecode

/-- The line numbers are stripped, or there is one for every instruction. -/
def FunctionBody.LinesAgree (f : FunctionBody) : Prop :=
  f.lineInfo = [] ∨ f.lineInfo.length = f.code.length

instance (f : FunctionBody) : Decidable f.LinesAgree :=
  inferInstanceAs (Decidable (f.lineInfo = [] ∨ f.lineInfo.length = f.code.length))

/-- The source of a function that has one is its own. -/
theorem FunctionBody.sourceWithin_eq_source_iff (f : FunctionBody) (parent : String) :
    f.sourceWithin parent = f.source ↔ (f.source = "" → parent = "") := by
  unfold FunctionBody.sourceWithin
  split
  · rename_i h
    simp [h]
  · rename_i h
    simp [h]

namespace Prototype

/-! ## All functions of a tree -/

/-- What holds of all functions of a tree holds of its root and all over its children, and the other way
    round. -/
theorem forall_mem_preorder_node {P : Prototype → Prop} {f : FunctionBody} {cs : List Prototype} :
    (∀ q ∈ (node f cs).preorder, P q) ↔ P (node f cs) ∧ ∀ c ∈ cs, ∀ q ∈ c.preorder, P q := by
  rw [preorder_node]
  constructor
  · intro h
    refine ⟨h _ (List.mem_cons_self ..), fun c hc q hq => h q ?_⟩
    exact List.mem_cons_of_mem _ (List.mem_flatMap.2 ⟨c, hc, hq⟩)
  · rintro ⟨hroot, hchildren⟩ q hq
    rcases List.mem_cons.1 hq with rfl | hq
    · exact hroot
    · obtain ⟨c, hc, hq⟩ := List.mem_flatMap.1 hq
      exact hchildren c hc q hq

/-- A function of a child is a function of the tree. -/
theorem mem_preorder_of_mem_child {f : FunctionBody} {cs : List Prototype} {c q : Prototype}
    (hc : c ∈ cs) (hq : q ∈ c.preorder) : q ∈ (node f cs).preorder := by
  rw [preorder_node]
  exact List.mem_cons_of_mem _ (List.mem_flatMap.2 ⟨c, hc, hq⟩)

/-- Every function of the tree has no line numbers or one for every instruction. -/
def LinesAgree (p : Prototype) : Prop := ∀ q ∈ p.preorder, q.body.LinesAgree

instance (p : Prototype) : Decidable p.LinesAgree :=
  inferInstanceAs (Decidable (∀ q ∈ p.preorder, q.body.LinesAgree))

/-- So it is with line numbers. -/
theorem linesAgree_node {f : FunctionBody} {cs : List Prototype} :
    (node f cs).LinesAgree ↔ f.LinesAgree ∧ ∀ c ∈ cs, c.LinesAgree :=
  forall_mem_preorder_node

/-! ## Depth -/

theorem foldr_max_le_iff {n : Nat} (xs : List Nat) : xs.foldr max 0 ≤ n ↔ ∀ x ∈ xs, x ≤ n := by
  induction xs with
  | nil => simp
  | cons x xs ih => rw [List.foldr_cons, Nat.max_le, ih, List.forall_mem_cons]

/-- A tree is one level deeper than the deepest of its children. -/
theorem depth_node (f : FunctionBody) (cs : List Prototype) :
    (node f cs).depth = 1 + (cs.map depth).foldr max 0 :=
  fold_node _ f cs

/-- **A tree has at most `n + 1` levels exactly if its children have at most `n` each.** -/
theorem depth_node_le_iff {f : FunctionBody} {cs : List Prototype} {n : Nat} :
    (node f cs).depth ≤ n + 1 ↔ ∀ c ∈ cs, c.depth ≤ n := by
  rw [depth_node, Nat.add_comm 1, Nat.succ_le_succ_iff, foldr_max_le_iff, List.forall_mem_map]

/-- A child is less deep than the tree. -/
theorem depth_lt_of_mem {f : FunctionBody} {cs : List Prototype} {c : Prototype} (hc : c ∈ cs) :
    c.depth < (node f cs).depth := by
  have hle := (foldr_max_le_iff (cs.map depth)).1 (Nat.le_refl _) c.depth (List.mem_map_of_mem hc)
  rw [depth_node]
  omega

/-- No tree is without levels. -/
theorem one_le_depth (p : Prototype) : 1 ≤ p.depth := by
  obtain ⟨f, cs⟩ := p
  rw [depth_node]
  omega

/-! ## Sources -/

/-- No function without a source stands directly inside a function that has one. -/
def SourcesResolved (p : Prototype) : Prop :=
  ∀ q ∈ p.preorder, q.body.source ≠ "" → ∀ c ∈ q.children, c.body.source ≠ ""

/-- Only a function and those directly in it are compared. -/
theorem sourcesResolved_node {f : FunctionBody} {cs : List Prototype} :
    (node f cs).SourcesResolved ↔
      (f.source ≠ "" → ∀ c ∈ cs, c.body.source ≠ "") ∧ ∀ c ∈ cs, c.SourcesResolved :=
  forall_mem_preorder_node

/-- Resolving changes nothing exactly if the root takes nothing from around it and every source is
    resolved already. -/
theorem resolveSources_eq_self_iff (p : Prototype) (parent : String) :
    p.resolveSources parent = p ↔ (p.body.source = "" → parent = "") ∧ p.SourcesResolved := by
  induction p using induction_on generalizing parent with
  | step f cs ih =>
    have hroot : { f with source := f.sourceWithin parent } = f ↔ (f.source = "" → parent = "") := by
      rw [← f.sourceWithin_eq_source_iff parent]
      constructor
      · intro h
        exact congrArg FunctionBody.source h
      · intro h
        rw [h]
    rw [resolveSources_node, node.injEq, hroot, sourcesResolved_node]
    refine and_congr_right fun hsource => ?_
    rw [(f.sourceWithin_eq_source_iff parent).2 hsource]
    -- with the root unchanged, every child is resolved under the root's own source
    have hchildren : cs.map (fun c => c.resolveSources f.source) = cs ↔
        ∀ c ∈ cs, (c.body.source = "" → f.source = "") ∧ c.SourcesResolved := by
      constructor
      · intro h c hc
        rw [← ih c hc]
        exact List.map_inj_left.1 (h.trans (List.map_id cs).symm) c hc
      · intro h
        exact (List.map_congr_left fun c hc => (ih c hc f.source).2 (h c hc)).trans (List.map_id cs)
    rw [hchildren]
    constructor
    · intro h
      exact ⟨fun hf c hc hempty => hf ((h c hc).1 hempty), fun c hc => (h c hc).2⟩
    · rintro ⟨hdirect, hrest⟩ c hc
      refine ⟨fun hempty => ?_, hrest c hc⟩
      by_cases hf : f.source = ""
      · exact hf
      · exact absurd hempty (hdirect hf c hc)

end Prototype

end LuaBytecode
