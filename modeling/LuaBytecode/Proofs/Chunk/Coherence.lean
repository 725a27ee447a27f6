/-
  Every tree that is loaded is coherent.

  A function of a tree is `Coherent` if its line numbers are stripped or stand one to one beside its
  instructions, if no function directly in it has lost a source that it has itself, and if all its lists are
  of a length that a count can state.  Whoever asks such a function for the line of an instruction is
  answered for all of its instructions or for none, and never for a position behind the code.

  The facts on one function are read off the one rule of the grammar, and a derivation of a tree holds
  derivations of its children, under the source that the function has been given and not under the one that
  was stored for it; so the facts hold all over the tree by induction on it (`PrototypeForm.coherent`).
-/
import LuaBytecode.Proofs.Chunk.RoundTrip

namespace LuaBytecode

/-! ## Coherent functions -/

namespace FunctionBody

variable {f : FunctionBody}

theorem lineAt?_eq_none (h : f.lineInfo = []) (pc : Nat) : f.lineAt? pc = none := by
  rw [lineAt?, h]
  rfl

/-- With as many line numbers as instructions, both are there at the same positions. -/
theorem isSome_lineAt?_iff (h : f.lineInfo.length = f.code.length) (pc : Nat) :
    (f.lineAt? pc).isSome ↔ (f.instruction? pc).isSome := by
  rw [lineAt?, instruction?, isSome_getElem?, isSome_getElem?, h]

/-- Stripped line numbers answer for no position, and others for exactly the positions of instructions. -/
theorem LinesAgree.lineAt? (h : f.LinesAgree) :
    (f.lineInfo = [] ∧ ∀ pc, f.lineAt? pc = none)
      ∨ (f.lineInfo.length = f.code.length ∧ ∀ pc, (f.lineAt? pc).isSome ↔ (f.instruction? pc).isSome) := by
  rcases h with hnone | hsame
  · exact .inl ⟨hnone, lineAt?_eq_none hnone⟩
  · exact .inr ⟨hsame, isSome_lineAt?_iff hsame⟩

end FunctionBody

namespace Prototype

/-- What holds of every function of a loaded tree. -/
structure Coherent (p : Prototype) : Prop where
  lines : (p.body.lineInfo = [] ∧ ∀ pc, p.body.lineAt? pc = none)
    ∨ (p.body.lineInfo.length = p.body.code.length
      ∧ ∀ pc, (p.body.lineAt? pc).isSome ↔ (p.body.instruction? pc).isSome)
  sources : ∀ c ∈ p.children, c.body.source = "" → p.body.source = ""
  code : p.body.code.length < countBound
  constants : p.body.constants.length < countBound
  upvalues : p.body.upvalues.length < countBound
  children : p.children.length < countBound
  lineInfo : p.body.lineInfo.length < countBound
  localVariables : p.body.localVariables.length < countBound
  upvalueNames : p.body.upvalueNames.length < countBound

end Prototype

/-! ## Derived trees -/

namespace PrototypeForm

variable {limit depth : Nat} {parent : String} {form : Bytes} {p : Prototype}

/-- The root of a derived tree is coherent. -/
theorem coherent_root (h : PrototypeForm limit depth parent form p) : p.Coherent := by
  obtain ⟨f, cs⟩ := p
  have hsources : ∀ c ∈ cs, c.body.source = "" → f.source = "" := by
    intro c hc
    obtain ⟨part, hpart, _⟩ := h.child hc
    exact hpart.source_eq_empty
  cases h with
  | node _ _ _ hcode hconstants hupvalues hcount _ hlineInfo hlines hlocals hnames =>
    exact
      { lines := FunctionBody.LinesAgree.lineAt? hlines
        sources := hsources
        code := hcode.length_lt
        constants := hconstants.length_lt
        upvalues := hupvalues.length_lt
        children := hcount
        lineInfo := hlineInfo.length_lt
        localVariables := hlocals.length_lt
        upvalueNames := hnames.length_lt }

/-- **Every function of a derived tree is coherent.** -/
theorem coherent (h : PrototypeForm limit depth parent form p) : ∀ q ∈ p.preorder, q.Coherent := by
  induction p using Prototype.induction_on generalizing depth parent form with
  | step f cs ih =>
    refine Prototype.forall_mem_preorder_node.2 ⟨h.coherent_root, fun c hc => ?_⟩
    obtain ⟨part, hpart, _⟩ := h.child hc
    exact ih c hc hpart

end PrototypeForm

/-! ## Loading -/

/-- **Every loaded tree is coherent**, function by function, and as a whole within the limit. -/
theorem Chunk.loadWithin_coherent {limit : Nat} {bytes : Bytes} {c : Chunk}
    (h : Chunk.loadWithin limit bytes = .ok c) :
    (∀ p ∈ c.main.preorder, p.Coherent) ∧ c.main.depth ≤ limit := by
  obtain ⟨form, hform, _⟩ := ReadM.chunk_eq_ok_iff.1 (Chunk.loadWithin_eq_ok.1 h)
  exact ⟨hform.coherent, Chunk.depth_le_of_loadWithin h⟩

/-- A main function that knows the line of its one instruction and of no other, and in it a function without
    code, to which the source of the main function has passed. -/
theorem Chunk.loadWithin_coherent_nestedSample :
    Chunk.loadWithin 2 (nestedSample.dump false) = .ok nestedSample.resolveSources
      ∧ (nestedSample.resolveSources.main.preorder.map fun p =>
          (p.body.source, p.body.lineAt? 0, p.body.lineAt? 1))
        = [("@m", some 7, none), ("@m", none, none)]
      ∧ (∀ p ∈ nestedSample.resolveSources.main.preorder, p.Coherent)
      ∧ nestedSample.resolveSources.main.depth ≤ 2 := by
  have hload : Chunk.loadWithin 2 (nestedSample.dump false) = .ok nestedSample.resolveSources :=
    Chunk.loadWithin_dump_of_fits (by decide +kernel) (by decide +kernel) (by decide +kernel)
  have hcoherent := Chunk.loadWithin_coherent hload
  exact ⟨hload, by decide +kernel, hcoherent.1, hcoherent.2⟩

end LuaBytecode
