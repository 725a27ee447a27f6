/-
  Writing without debug data is writing what is left after debug data is erased.

  1. **Agreement** — `AgreesOutsideDebugData` relates trees of one shape whose functions may differ in
     source, line numbers and names and in nothing else.  It is said field by field and does not mention
     stripping; that stripping sends related trees to one tree is `stripDebugData_eq`.

  2. **The stripped tree** — its functions are the stripped functions of the tree, in the same order
     (`preorder_stripDebugData`).  So it is as deep, it has no line numbers to disagree with its code, and
     it has no source that a function inside it could fail to take over.

  3. **The bytes** — with the flag set, writing takes a path of its own at every level: no source, and
     three zero counts in place of the last three segments, while the source of the function around is
     still handed down.  `prototype_true_eq` shows that the path ends in the same bytes as the plain one
     does on the stripped tree, whatever source is handed down.
-/
import LuaBytecode.Proofs.Chunk.RoundTrip

namespace LuaBytecode

/-! ## Agreement outside debug data -/

/-- The functions agree in all but source, line numbers and names. -/
structure FunctionBody.AgreesOutsideDebugData (f g : FunctionBody) : Prop where
  firstLine : f.firstLine = g.firstLine
  lastLine : f.lastLine = g.lastLine
  parameterCount : f.parameterCount = g.parameterCount
  varargFlag : f.varargFlag = g.varargFlag
  slotCount : f.slotCount = g.slotCount
  code : f.code = g.code
  constants : f.constants = g.constants
  upvalues : f.upvalues = g.upvalues

/-- Stripping forgets just what agreement does not ask for. -/
theorem FunctionBody.AgreesOutsideDebugData.stripDebugData_eq {f g : FunctionBody}
    (h : f.AgreesOutsideDebugData g) : f.stripDebugData = g.stripDebugData := by
  obtain ⟨h1, h2, h3, h4, h5, h6, h7, h8⟩ := h
  unfold FunctionBody.stripDebugData
  rw [h1, h2, h3, h4, h5, h6, h7, h8]

namespace Prototype

mutual

/-- The trees have one shape, and functions at the same place agree outside their debug data. -/
inductive AgreesOutsideDebugData : Prototype → Prototype → Prop
  | node {f g : FunctionBody} {cs ds : List Prototype} :
    f.AgreesOutsideDebugData g → EachAgreesOutsideDebugData cs ds →
    AgreesOutsideDebugData (node f cs) (node g ds)

/-- The lists have one length, and trees at the same place agree. -/
inductive EachAgreesOutsideDebugData : List Prototype → List Prototype → Prop
  | nil : EachAgreesOutsideDebugData [] []
  | cons {c d : Prototype} {cs ds : List Prototype} :
    AgreesOutsideDebugData c d → EachAgreesOutsideDebugData cs ds →
    EachAgreesOutsideDebugData (c :: cs) (d :: ds)

end

/-- Trees that agree outside their debug data are the same without it. -/
theorem AgreesOutsideDebugData.stripDebugData_eq {p q : Prototype} (h : p.AgreesOutsideDebugData q) :
    p.stripDebugData = q.stripDebugData := by
  induction p using induction_on generalizing q with
  | step f cs ih =>
    cases h with
    | @node _ g _ ds hbody hchildren =>
      have heach : cs.map stripDebugData = ds.map stripDebugData := by
        clear hbody
        induction cs generalizing ds with
        | nil =>
          cases hchildren
          rfl
        | cons c cs ihcs =>
          cases hchildren with
          | cons hc hcs =>
            have htail := ihcs (fun c' hc' => ih c' (List.mem_cons_of_mem c hc')) hcs
            rw [List.map_cons, List.map_cons, ih c (List.mem_cons_self ..) hc, htail]
      rw [stripDebugData_node, stripDebugData_node, hbody.stripDebugData_eq, heach]

/-! ## The stripped tree -/

@[simp] theorem body_stripDebugData (p : Prototype) : p.stripDebugData.body = p.body.stripDebugData := by
  obtain ⟨f, cs⟩ := p
  rw [stripDebugData_node]
  rfl

@[simp] theorem children_stripDebugData (p : Prototype) :
    p.stripDebugData.children = p.children.map stripDebugData := by
  obtain ⟨f, cs⟩ := p
  rw [stripDebugData_node]
  rfl

/-- The functions of the stripped tree are those of the tree, stripped. -/
theorem preorder_stripDebugData (p : Prototype) :
    p.stripDebugData.preorder = p.preorder.map stripDebugData := by
  induction p using induction_on with
  | step f cs ih =>
    have hchildren : (cs.map stripDebugData).flatMap preorder = (cs.flatMap preorder).map stripDebugData := by
      rw [List.flatMap_map, List.map_flatMap]
      rw [List.flatMap_def, List.flatMap_def, List.map_congr_left ih]
    rw [stripDebugData_node, preorder_node, preorder_node, hchildren, List.map_cons, stripDebugData_node]

/-- What holds of every stripped function holds of every function of the stripped tree. -/
theorem forall_mem_preorder_stripDebugData {P : Prototype → Prop} {p : Prototype} :
    (∀ q ∈ p.stripDebugData.preorder, P q) ↔ ∀ q ∈ p.preorder, P q.stripDebugData := by
  rw [preorder_stripDebugData, List.forall_mem_map]

/-- Stripping keeps the shape of the tree. -/
theorem depth_stripDebugData (p : Prototype) : p.stripDebugData.depth = p.depth := by
  induction p using induction_on with
  | step f cs ih =>
    have hchildren : (cs.map stripDebugData).map depth = cs.map depth := by
      rw [List.map_map]
      exact List.map_congr_left ih
    rw [stripDebugData_node, depth_node, depth_node, hchildren]

/-- Whatever the line numbers of a tree are, those of the stripped tree agree with the code. -/
theorem linesAgree_stripDebugData (p : Prototype) : p.stripDebugData.LinesAgree := by
  refine forall_mem_preorder_stripDebugData.2 fun q _ => ?_
  rw [body_stripDebugData]
  exact Or.inl rfl

/-- Without any source there is none to pass on. -/
theorem sourcesResolved_stripDebugData (p : Prototype) : p.stripDebugData.SourcesResolved := by
  refine forall_mem_preorder_stripDebugData.2 fun q _ hsource => ?_
  rw [body_stripDebugData] at hsource
  exact absurd rfl hsource

/-- Every list that stripping keeps has fewer than `2 ^ 32` elements, and the size of every string
    constant can be stated in eight bytes, as that of any string in memory can.  Debug data may be of any
    size. -/
def ProgramStorable (p : Prototype) : Prop :=
  ∀ q ∈ p.preorder, q.body.code.length < countBound ∧ q.body.constants.length < countBound
    ∧ q.body.upvalues.length < countBound ∧ q.children.length < countBound
    ∧ ∀ v ∈ q.body.constants, v.Storable

instance (p : Prototype) : Decidable p.ProgramStorable :=
  inferInstanceAs (Decidable (∀ q ∈ p.preorder, _ ∧ _ ∧ _ ∧ _ ∧ ∀ v ∈ q.body.constants, v.Storable))

/-- What is stripped need not be storable: empty texts and lists are. -/
theorem ProgramStorable.storable_stripDebugData {p : Prototype} (h : p.ProgramStorable) :
    p.stripDebugData.Storable := by
  refine forall_mem_preorder_stripDebugData.2 fun q hq => ?_
  obtain ⟨hcode, hconstants, hupvalues, hchildren, hvalues⟩ := h q hq
  have hempty : 0 < countBound := by decide
  rw [body_stripDebugData, children_stripDebugData, List.length_map]
  refine ⟨?_, hchildren⟩
  exact
    { source := (by decide : StorableBytes (Utf8.encode ""))
      code := hcode
      constants := hconstants
      upvalues := hupvalues
      lineInfo := hempty
      localVariables := hempty
      upvalueNames := hempty
      values := hvalues
      localNames := fun v hv => absurd hv List.not_mem_nil
      names := fun s hs => absurd hs List.not_mem_nil }

end Prototype

/-! ## The bytes -/

namespace Encode

/-- **The stripping path and the plain path on the stripped tree write the same bytes.**  By induction
    on the tree: under the flag the source handed down never shows. -/
theorem prototype_true_eq (p : Prototype) (stored : String) :
    prototype true p stored = prototype false p.stripDebugData "" := by
  induction p using Prototype.induction_on generalizing stored with
  | step f cs ih =>
    have hsource : source true stored f.source = source false "" f.stripDebugData.source := rfl
    have hdebug : debugSegments true f = debugSegments false f.stripDebugData := rfl
    have hchildren : segment (fun c => prototype true c f.source) cs
        = segment (fun c => prototype false c "") (cs.map Prototype.stripDebugData) := by
      rw [segment, segment, List.length_map, List.flatMap_map]
      congr 1
      rw [List.flatMap_def, List.flatMap_def, List.map_congr_left fun c hc => ih c hc f.source]
    rw [Prototype.stripDebugData_node, prototype_node_parts, prototype_node_parts, hsource, hdebug, hchildren]
    rfl

end Encode

/-! ## Whole chunks -/

namespace Chunk

/-- The chunks agree in all but sources, line numbers and names. -/
def AgreesOutsideDebugData (c d : Chunk) : Prop :=
  c.upvalueCount = d.upvalueCount ∧ c.main.AgreesOutsideDebugData d.main

/-- Chunks that agree outside debug data are the same when stripped. -/
theorem AgreesOutsideDebugData.stripDebugData_eq {c d : Chunk} (h : c.AgreesOutsideDebugData d) :
    c.stripDebugData = d.stripDebugData := by
  rw [stripDebugData, stripDebugData, h.1, h.2.stripDebugData_eq]

/-- **Writing without debug data is stripping and writing.** -/
theorem dump_true_eq (c : Chunk) : c.dump true = c.stripDebugData.dump false := by
  rw [dump, dump, Encode.prototype_true_eq]
  rfl

/-- A stripped chunk has nothing to resolve. -/
theorem resolveSources_stripDebugData (c : Chunk) :
    c.stripDebugData.resolveSources = c.stripDebugData :=
  (resolveSources_eq_self_iff _).2 c.main.sourcesResolved_stripDebugData

/-- **Stripping is exactly the erasure of debug data.**  The stripped bytes of a chunk are the plain
    bytes of the chunk without its debug data, so they are the same for chunks that differ in debug data
    only; and they load as the chunk without its debug data, whatever that data was. -/
theorem dump_stripped (c : Chunk) :
    c.dump true = c.stripDebugData.dump false
      ∧ (∀ d : Chunk, c.AgreesOutsideDebugData d → c.dump true = d.dump true)
      ∧ ∀ limit, c.main.ProgramStorable → c.main.depth ≤ limit →
          loadWithin limit (c.dump true) = .ok c.stripDebugData := by
  refine ⟨dump_true_eq c, fun d hd => ?_, fun limit hstorable hdepth => ?_⟩
  · rw [dump_true_eq, dump_true_eq, hd.stripDebugData_eq]
  · have hfits : c.stripDebugData.main.depth ≤ limit := by
      rw [← c.main.depth_stripDebugData] at hdepth
      exact hdepth
    rw [dump_true_eq, loadWithin_dump_of_fits hstorable.storable_stripDebugData hfits
      c.main.linesAgree_stripDebugData, resolveSources_stripDebugData]

/-- A function of one instruction inside another, both with the given debug data. -/
def debugSample (source : String) (lineInfo : List UInt32) (names : List String) : Chunk :=
  let body : FunctionBody :=
    { source, firstLine := 0, lastLine := 9, parameterCount := 1, varargFlag := 0, slotCount := 2
      code := [⟨0x0080001E⟩], constants := [.str [0x6B], .float ⟨0x8000000000000000⟩], upvalues := [⟨1, 0⟩]
      lineInfo, localVariables := names.map (⟨·, 0, 1⟩), upvalueNames := names }
  { upvalueCount := 1, main := .node body [.node body []] }

/-- Two line numbers for one instruction would be refused, but stripping leaves no trace of them. -/
theorem dump_stripped_debugSample :
    ¬ (debugSample "@secret" [4, 5] ["key"]).main.LinesAgree
      ∧ (debugSample "@secret" [4, 5] ["key"]).dump true = (debugSample "" [] []).dump true
      ∧ loadWithin 2 ((debugSample "@secret" [4, 5] ["key"]).dump true) = .ok (debugSample "" [] []) := by
  have hagrees : (debugSample "@secret" [4, 5] ["key"]).AgreesOutsideDebugData (debugSample "" [] []) := by
    have hbody : (debugSample "@secret" [4, 5] ["key"]).main.body.AgreesOutsideDebugData
        (debugSample "" [] []).main.body := ⟨rfl, rfl, rfl, rfl, rfl, rfl, rfl, rfl⟩
    exact ⟨rfl, .node hbody (.cons (.node hbody .nil) .nil)⟩
  obtain ⟨-, hsame, hload⟩ := dump_stripped (debugSample "@secret" [4, 5] ["key"])
  exact ⟨by decide +kernel, hsame _ hagrees, hload 2 (by decide +kernel) (by decide +kernel)⟩

end Chunk

end LuaBytecode
