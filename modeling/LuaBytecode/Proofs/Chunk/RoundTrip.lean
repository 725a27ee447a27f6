/-
  Writing a chunk and loading it again.

  1. **What is written is derivable.**  If counts fit in four bytes and sizes in eight, the bytes of a
     function are a form of it in the grammar, with its sources resolved.  The writer leaves out a source
     that equals the source *as stored* of the function around it, while the reader fills in the source
     *as resolved*; the two agree because a stored source that is not empty is its own resolution.

  2. **What does not fit is refused for what is wrong with it.**  Where the tree is too deep or line
     numbers disagree with the code, every part up to the fault is read as written, and the fault itself
     decides the refusal.  In particular no count check ever refuses what was written.

  3. **What was loaded is written back the same.**  A loaded tree is within the limit, its line numbers
     agree, its sources are resolved, and it is storable since the input was not longer than the bounds
     allow; so writing and loading it once more changes nothing, whatever the first input looked like.
-/
import LuaBytecode.Chunk.Writer
import LuaBytecode.Proofs.Chunk.Loaded
import LuaBytecode.Proofs.Text.Utf8

namespace LuaBytecode

/-! ## Storable trees -/

/-- The bytes of a string are fewer than `2 ^ 64 - 1`, so that its size can be stated. -/
def StorableBytes (bytes : Bytes) : Prop := bytes.length + 1 < sizeBound

instance (bytes : Bytes) : Decidable (StorableBytes bytes) :=
  inferInstanceAs (Decidable (bytes.length + 1 < sizeBound))

/-- Only strings can be too big to store. -/
def Value.Storable : Value → Prop
  | .str bytes => StorableBytes bytes
  | _ => True

instance : (v : Value) → Decidable v.Storable
  | .str bytes => inferInstanceAs (Decidable (StorableBytes bytes))
  | .nil | .bool _ | .int _ | .float _ => isTrue trivial

/-- Every list of a function has fewer than `2 ^ 32` elements, and every string can be stated. -/
structure FunctionBody.Storable (f : FunctionBody) : Prop where
  source : StorableBytes (Utf8.encode f.source)
  code : f.code.length < countBound
  constants : f.constants.length < countBound
  upvalues : f.upvalues.length < countBound
  lineInfo : f.lineInfo.length < countBound
  localVariables : f.localVariables.length < countBound
  upvalueNames : f.upvalueNames.length < countBound
  values : ∀ v ∈ f.constants, v.Storable
  localNames : ∀ v ∈ f.localVariables, StorableBytes (Utf8.encode v.name)
  names : ∀ s ∈ f.upvalueNames, StorableBytes (Utf8.encode s)

instance (f : FunctionBody) : Decidable f.Storable :=
  decidable_of_iff
    ((StorableBytes (Utf8.encode f.source) ∧ f.code.length < countBound
        ∧ f.constants.length < countBound ∧ f.upvalues.length < countBound
        ∧ f.lineInfo.length < countBound ∧ f.localVariables.length < countBound
        ∧ f.upvalueNames.length < countBound)
      ∧ (∀ v ∈ f.constants, v.Storable)
      ∧ (∀ v ∈ f.localVariables, StorableBytes (Utf8.encode v.name))
      ∧ ∀ s ∈ f.upvalueNames, StorableBytes (Utf8.encode s))
    ⟨fun ⟨⟨h1, h2, h3, h4, h5, h6, h7⟩, h8, h9, h10⟩ => ⟨h1, h2, h3, h4, h5, h6, h7, h8, h9, h10⟩,
      fun ⟨h1, h2, h3, h4, h5, h6, h7, h8, h9, h10⟩ => ⟨⟨h1, h2, h3, h4, h5, h6, h7⟩, h8, h9, h10⟩⟩

/-- Every function of the tree is storable and has fewer than `2 ^ 32` functions directly in it. -/
def Prototype.Storable (p : Prototype) : Prop :=
  ∀ q ∈ p.preorder, q.body.Storable ∧ q.children.length < countBound

instance (p : Prototype) : Decidable p.Storable :=
  inferInstanceAs (Decidable (∀ q ∈ p.preorder, q.body.Storable ∧ q.children.length < countBound))

theorem Prototype.storable_node {f : FunctionBody} {cs : List Prototype} :
    (node f cs).Storable ↔ (f.Storable ∧ cs.length < countBound) ∧ ∀ c ∈ cs, c.Storable :=
  forall_mem_preorder_node

/-! ## Written forms -/

/-- A string is written in the short form exactly if its size fits one byte, and either form is one of the
    grammar. -/
theorem stringForm_string {bytes : Bytes} (h : StorableBytes bytes) :
    StringForm (Encode.string bytes) bytes := by
  unfold Encode.string Encode.stringSize
  split
  · rename_i hshort
    have hshort : bytes.length + 1 < 255 := hshort
    exact .short (by omega)
  · exact .long h

/-- A text is read back as it was, since decoding undoes encoding. -/
theorem nameForm_name {s : String} (h : StorableBytes (Utf8.encode s)) :
    NameForm (Encode.name s) s :=
  ⟨_, stringForm_string h, (Utf8.decode_encode s).symm⟩

/-- Short strings and long ones have different tags, and a boolean is written as zero or one. -/
theorem constantForm_constant {v : Value} (h : v.Storable) :
    ConstantForm (Encode.constant v) v := by
  cases v with
  | nil => exact .nil
  | bool b =>
    cases b with
    | true => exact .bool 1
    | false => exact .bool 0
  | int n => exact .int n
  | float f => exact .float f
  | str bytes =>
    have hform := stringForm_string (show StorableBytes bytes from h)
    rw [Encode.constant]
    split
    · exact .shortString hform
    · exact .longString hform

theorem localVariableForm_localVariable {v : LocalVariable} (h : StorableBytes (Utf8.encode v.name)) :
    LocalVariableForm (Encode.localVariable v) v :=
  ⟨_, nameForm_name h, rfl⟩

section Elements

variable {α β : Type} {G : Form β} {encode : α → Bytes} {value : α → β}

/-- Elements that are written one after another are forms one after another, by induction on them. -/
theorem repeatedForm_flatMap {xs : List α} (h : ∀ x ∈ xs, G (encode x) (value x)) :
    RepeatedForm G (xs.flatMap encode) (xs.map value) := by
  induction xs with
  | nil => exact .nil
  | cons x xs ih =>
    rw [List.flatMap_cons, List.map_cons]
    exact .cons (h x (List.mem_cons_self ..)) (ih fun y hy => h y (List.mem_cons_of_mem x hy))

/-- A written segment is a form of its elements if each element is written in a form of it. -/
theorem segmentForm_segment {G : Form α} {xs : List α} (hcount : xs.length < countBound)
    (h : ∀ x ∈ xs, G (encode x) x) : SegmentForm G (Encode.segment encode xs) xs := by
  have hforms : RepeatedForm G (xs.flatMap encode) (xs.map id) := repeatedForm_flatMap h
  rw [List.map_id] at hforms
  exact ⟨_, hcount, rfl, hforms⟩

end Elements

/-! ## Sources as stored and as resolved -/

/-- **The writer's elision is undone by the reader's filling in.**  `stored` is the source of the
    function around, as stored, and `parent` as resolved. -/
theorem nameForm_source {f : FunctionBody} {stored parent : String}
    (hparent : stored = "" ∨ stored = parent) (h : StorableBytes (Utf8.encode f.source)) :
    ∃ own, NameForm (Encode.source false stored f.source) own
      ∧ f.sourceWithin parent = if own = "" then parent else own := by
  unfold Encode.source
  split
  · -- left out: it is empty, or equal to a parent's source that is its own resolution
    rename_i heq
    have heq : f.source = stored := by simpa using heq
    refine ⟨"", ⟨[], .absent, rfl⟩, ?_⟩
    unfold FunctionBody.sourceWithin
    split
    · rfl
    · rename_i hne
      rcases hparent with hstored | hstored
      · exact absurd (heq.trans hstored) hne
      · exact heq.trans hstored
  · exact ⟨f.source, nameForm_name h, rfl⟩

/-- A stored source that is not empty is its own resolution. -/
theorem FunctionBody.source_eq_empty_or_sourceWithin (f : FunctionBody) (parent : String) :
    f.source = "" ∨ f.source = f.sourceWithin parent := by
  unfold FunctionBody.sourceWithin
  split
  · rename_i h
    exact Or.inl h
  · exact Or.inr rfl

/-! ## Functions -/

/-- The bytes of a function, part by part, with or without its debug data. -/
theorem Encode.prototype_node_parts (strip : Bool) (f : FunctionBody) (cs : List Prototype)
    (stored : String) :
    Encode.prototype strip (.node f cs) stored
      = Encode.source strip stored f.source
        ++ word32 f.firstLine ++ word32 f.lastLine
        ++ [f.parameterCount, f.varargFlag, f.slotCount]
        ++ segment (fun i => word32 i.word) f.code
        ++ segment constant f.constants
        ++ segment upvalue f.upvalues
        ++ segment (fun c => Encode.prototype strip c f.source) cs
        ++ debugSegments strip f := by
  have hchildren : segment (fun child => child f.source) (cs.map (Encode.prototype strip))
      = segment (fun c => Encode.prototype strip c f.source) cs := by
    rw [segment, segment, List.length_map, List.flatMap_map]
  rw [← hchildren]
  exact congrFun (Prototype.fold_node _ f cs) stored

/-- The bytes of a function with its debug data, down to the counts. -/
theorem Encode.prototype_node (f : FunctionBody) (cs : List Prototype) (stored : String) :
    Encode.prototype false (.node f cs) stored
      = Encode.source false stored f.source
        ++ toLittleEndian 4 f.firstLine.toNat ++ toLittleEndian 4 f.lastLine.toNat
        ++ [f.parameterCount, f.varargFlag, f.slotCount]
        ++ segment (fun i => word32 i.word) f.code
        ++ segment constant f.constants
        ++ segment upvalue f.upvalues
        ++ toLittleEndian 4 cs.length ++ cs.flatMap (fun c => Encode.prototype false c f.source)
        ++ segment word32 f.lineInfo
        ++ segment localVariable f.localVariables
        ++ segment name f.upvalueNames := by
  have hchildren : segment (fun c => Encode.prototype false c f.source) cs
      = toLittleEndian 4 cs.length ++ cs.flatMap (fun c => Encode.prototype false c f.source) := rfl
  rw [prototype_node_parts, hchildren]
  simp only [debugSegments, word32, List.append_assoc]
  rfl

/-- **What is written is derivable**, with its sources resolved, from the depth that leaves room for the
    whole tree. -/
theorem prototypeForm_prototype {limit : Nat} (p : Prototype) {depth : Nat} {stored parent : String}
    (hparent : stored = "" ∨ stored = parent) (hstorable : p.Storable)
    (hdepth : p.depth + depth ≤ limit + 1) (hlines : p.LinesAgree) :
    PrototypeForm limit depth parent (Encode.prototype false p stored) (p.resolveSources parent) := by
  induction p using Prototype.induction_on generalizing depth stored parent with
  | step f cs ih =>
    obtain ⟨⟨hf, hcount⟩, hcs⟩ := Prototype.storable_node.1 hstorable
    obtain ⟨hfl, hcsl⟩ := Prototype.linesAgree_node.1 hlines
    have hpos := Prototype.one_le_depth (.node f cs)
    have hdepths : ∀ c ∈ cs, c.depth + (depth + 1) ≤ limit + 1 := by
      intro c hc
      have := Prototype.depth_lt_of_mem (f := f) hc
      omega
    obtain ⟨own, hown, hsource⟩ := nameForm_source hparent hf.source
    -- children are written under the stored source and derived under the resolved one
    rw [Encode.prototype_node, Prototype.resolveSources_node]
    have hnested : RepeatedForm (PrototypeForm limit (depth + 1) (f.sourceWithin parent))
        (cs.flatMap fun c => Encode.prototype false c f.source)
        (cs.map fun c => c.resolveSources (f.sourceWithin parent)) :=
      repeatedForm_flatMap fun c hc => ih c hc (f.source_eq_empty_or_sourceWithin parent) (hcs c hc)
        (hdepths c hc) (hcsl c hc)
    have hnode := PrototypeForm.node (f := { f with source := f.sourceWithin parent })
      (by omega : depth ≤ limit) hown hsource
      (segmentForm_segment hf.code fun i _ => rfl)
      (segmentForm_segment hf.constants fun v hv => constantForm_constant (hf.values v hv))
      (segmentForm_segment hf.upvalues fun u _ => rfl)
      (by rw [List.length_map]; exact hcount) (siblingForms_iff.2 hnested)
      (segmentForm_segment hf.lineInfo fun n _ => rfl) hfl
      (segmentForm_segment hf.localVariables fun v hv =>
        localVariableForm_localVariable (hf.localNames v hv))
      (segmentForm_segment hf.upvalueNames fun s hs => nameForm_name (hf.names s hs))
    rw [List.length_map] at hnode
    exact hnode

/-! ## Trees that do not fit -/

/-- What is wrong with a tree that has `room` levels of `limit` to itself: it is deeper, or one of its
    functions has line numbers that do not match its code. -/
def Prototype.Fault (limit room : Nat) (p : Prototype) (e : LoadError) : Prop :=
  (room < p.depth ∧ e = .nestingTooDeep limit)
    ∨ ∃ q ∈ p.preorder, ¬ q.body.LinesAgree
      ∧ e = .lineInfoMismatch q.body.code.length q.body.lineInfo.length

/-- A fault of a child is a fault of the tree, one level further out. -/
theorem Prototype.Fault.of_child {limit room : Nat} {f : FunctionBody} {cs : List Prototype}
    {c : Prototype} {e : LoadError} (hc : c ∈ cs) (h : c.Fault limit room e) :
    (node f cs).Fault limit (room + 1) e := by
  rcases h with ⟨hdeep, he⟩ | ⟨q, hq, hlines, he⟩
  · have := depth_lt_of_mem (f := f) hc
    exact Or.inl ⟨by omega, he⟩
  · exact Or.inr ⟨q, mem_preorder_of_mem_child hc hq, hlines, he⟩

/-- A written function takes at least forty bytes, whether or not it can be loaded. -/
theorem Encode.forty_le_length_prototype (p : Prototype) (stored : String) :
    40 ≤ (Encode.prototype false p stored).length := by
  obtain ⟨f, cs⟩ := p
  have hsource : 1 ≤ (Encode.source false stored f.source).length := by
    unfold source
    split
    · exact Nat.le_refl 1
    · unfold name string stringSize
      split <;> simp
  rw [prototype_node]
  simp only [segment, count, List.length_append, length_toLittleEndian, List.length_cons,
    List.length_nil]
  omega

/-- What is written for nested functions is wide enough for the check of their count. -/
theorem Encode.width_le_prototypes (cs : List Prototype) (stored : String) :
    cs.length * Segment.prototypes.elementWidth
      ≤ (cs.flatMap fun c => Encode.prototype false c stored).length := by
  induction cs with
  | nil => simp
  | cons c cs ih =>
    have := forty_le_length_prototype c stored
    rw [List.flatMap_cons, List.length_append, List.length_cons, Nat.succ_mul]
    simp only [Segment.elementWidth] at ih ⊢
    omega

open ReadM in
/-- **What does not fit is refused for what is wrong with it.**  By induction on the tree: a function is
    at fault in one of its children, whose siblings before it are read as written, or in its own line
    numbers, after all its children are read as written. -/
theorem refuses_prototype {limit : Nat} (p : Prototype) {room depth : Nat} {stored parent : String}
    (hroom : room + depth = limit + 1) (hparent : stored = "" ∨ stored = parent)
    (hstorable : p.Storable) (hfault : ¬ (p.depth ≤ room ∧ p.LinesAgree)) :
    Refuses (prototype limit room parent) (Encode.prototype false p stored) (p.Fault limit room) := by
  induction p using Prototype.induction_on generalizing room depth stored parent with
  | step f cs ih =>
    cases room with
    | zero =>
      exact refuses_throw (Or.inl ⟨Prototype.one_le_depth (.node f cs), rfl⟩) _
    | succ room =>
      obtain ⟨⟨hf, hcount⟩, hcs⟩ := Prototype.storable_node.1 hstorable
      obtain ⟨own, hown, hsource⟩ := nameForm_source hparent hf.source
      have hkeep := f.source_eq_empty_or_sourceWithin parent
      have hchild : ∀ source, Accepts (prototype limit room source)
          (PrototypeForm limit (depth + 1) source) := fun source => accepts_prototype (by omega) source
      rw [Encode.prototype_node, prototype, prototypeBody]
      simp only [List.append_assoc]
      -- all that stands before the nested functions is read as written
      refine accepts_name.refuses_bind hown ?_
      refine accepts_word32.refuses_bind rfl ?_
      refine accepts_word32.refuses_bind rfl ?_
      refine accepts_byte.refuses_bind (a := [f.parameterCount]) rfl ?_
      refine accepts_byte.refuses_bind (a := [f.varargFlag]) rfl ?_
      refine accepts_byte.refuses_bind (a := [f.slotCount]) rfl ?_
      refine (accepts_segment .code accepts_instruction fun _ _ => InstructionForm.width_le).refuses_bind
        (segmentForm_segment hf.code fun i _ => rfl) ?_
      refine (accepts_segment .constants accepts_constant fun _ _ => ConstantForm.width_le).refuses_bind
        (segmentForm_segment hf.constants fun v hv => constantForm_constant (hf.values v hv)) ?_
      refine (accepts_segment .upvalues accepts_upvalue fun _ _ => UpvalueForm.width_le).refuses_bind
        (segmentForm_segment hf.upvalues fun u _ => rfl) ?_
      rw [← hsource, ← List.append_assoc]
      by_cases hall : ∀ c ∈ cs, c.depth ≤ room ∧ c.LinesAgree
      · -- all children fit, so the root's own line numbers are at fault
        have hlines : ¬ f.LinesAgree := fun h => hfault
          ⟨Prototype.depth_node_le_iff.2 fun c hc => (hall c hc).1,
            Prototype.linesAgree_node.2 ⟨h, fun c hc => (hall c hc).2⟩⟩
        have hnested : SegmentForm (PrototypeForm limit (depth + 1) (f.sourceWithin parent))
            (toLittleEndian 4 cs.length ++ cs.flatMap fun c => Encode.prototype false c f.source)
            (cs.map fun c => c.resolveSources (f.sourceWithin parent)) := by
          refine ⟨_, by rw [List.length_map]; exact hcount, by rw [List.length_map],
            repeatedForm_flatMap fun c hc => ?_⟩
          have := (hall c hc).1
          exact prototypeForm_prototype c hkeep (hcs c hc) (by omega) (hall c hc).2
        refine (accepts_segment .prototypes (hchild _) fun _ _ => PrototypeForm.width_le).refuses_bind
          hnested ?_
        refine (accepts_segment .lineInfo accepts_word32 fun _ _ => Word32Form.width_le).refuses_bind
          (segmentForm_segment hf.lineInfo fun n _ => rfl) ?_
        have hfaulty : (Prototype.node f cs).Fault limit (room + 1)
            (.lineInfoMismatch f.code.length f.lineInfo.length) :=
          Or.inr ⟨.node f cs, by rw [Prototype.preorder_node]; exact List.mem_cons_self .., hlines, rfl⟩
        exact (refuses_require hlines hfaulty _).bind
      · -- some child does not fit
        have helements : Refuses (times (prototype limit room (f.sourceWithin parent)) cs.length)
            (cs.flatMap fun c => Encode.prototype false c f.source)
            ((Prototype.node f cs).Fault limit (room + 1)) := by
          refine (hchild (f.sourceWithin parent)).refuses_times ?_ ?_ hall
          · intro c hc hfits
            exact ⟨_, prototypeForm_prototype c hkeep (hcs c hc) (by omega) hfits.2⟩
          · intro c hc hnot
            have hroom' : room + (depth + 1) = limit + 1 := by omega
            exact (ih c hc hroom' hkeep (hcs c hc) hnot).mono fun e he => he.of_child hc
        exact ((helements.segment hcount (Encode.width_le_prototypes cs f.source)).append _).bind

/-! ## Whole chunks -/

namespace Chunk

/-- The main function stands inside nothing, so only the sources within it matter. -/
theorem resolveSources_eq_self_iff (c : Chunk) : c.resolveSources = c ↔ c.main.SourcesResolved := by
  obtain ⟨upvalueCount, main⟩ := c
  rw [resolveSources, mk.injEq, Prototype.resolveSources_eq_self_iff]
  simp

/-- A written chunk that fits is loaded with its sources resolved. -/
theorem loadWithin_dump_of_fits {c : Chunk} {limit : Nat} (hc : c.main.Storable)
    (hdepth : c.main.depth ≤ limit) (hlines : c.main.LinesAgree) :
    loadWithin limit (c.dump false) = .ok c.resolveSources := by
  refine loadWithin_eq_ok.2 (ReadM.chunk_eq_ok_iff.2 ⟨Encode.prototype false c.main "", ?_, ?_⟩)
  · exact prototypeForm_prototype c.main (Or.inl rfl) hc (by omega) hlines
  · exact (List.append_assoc Format.header [c.upvalueCount] _).symm

open ReadM in
/-- A written chunk that does not fit is refused for what is wrong with its main function. -/
theorem loadWithin_dump_of_not_fits {c : Chunk} {limit : Nat} (hc : c.main.Storable)
    (hfault : ¬ (c.main.depth ≤ limit ∧ c.main.LinesAgree)) :
    ∃ e, loadWithin limit (c.dump false) = .error e ∧ c.main.Fault limit limit e := by
  have hmain : Refuses (prototype limit limit "") (Encode.prototype false c.main "")
      (c.main.Fault limit limit) := refuses_prototype c.main rfl (Or.inl rfl) hc hfault
  have hchunk : Refuses (chunk limit) (c.dump false) (c.main.Fault limit limit) :=
    accepts_header.refuses_bind (x := ()) rfl
      (accepts_byte.refuses_bind (a := [c.upvalueCount]) rfl hmain.bind)
  obtain ⟨e, d, hread, he⟩ := hchunk [] 0
  rw [List.append_nil] at hread
  refine ⟨e, ?_, he⟩
  rw [loadWithin, Cursor.ofBytes, hread]

/-- **The full round trip.**  A storable chunk is loaded from its bytes with its sources resolved if it
    is within the limit and its line numbers agree with its code, and then it comes back itself exactly if
    its sources were resolved before.  Otherwise it is refused as too deep, which it then is, or for the
    line numbers of one of its functions, and for no other reason. -/
theorem loadWithin_dump (c : Chunk) (limit : Nat) (hc : c.main.Storable) :
    (c.main.depth ≤ limit ∧ c.main.LinesAgree →
      loadWithin limit (c.dump false) = .ok c.resolveSources
        ∧ (loadWithin limit (c.dump false) = .ok c ↔
          ∀ p ∈ c.main.preorder, p.body.source ≠ "" → ∀ q ∈ p.children, q.body.source ≠ ""))
    ∧ (¬ (c.main.depth ≤ limit ∧ c.main.LinesAgree) →
      (limit < c.main.depth ∧ loadWithin limit (c.dump false) = .error (.nestingTooDeep limit))
        ∨ ∃ p ∈ c.main.preorder, ¬ p.body.LinesAgree
          ∧ loadWithin limit (c.dump false)
            = .error (.lineInfoMismatch p.body.code.length p.body.lineInfo.length)) := by
  constructor
  · rintro ⟨hdepth, hlines⟩
    have hload := loadWithin_dump_of_fits hc hdepth hlines
    refine ⟨hload, ?_⟩
    rw [hload, Except.ok.injEq, resolveSources_eq_self_iff]
    rfl
  · intro hfault
    obtain ⟨e, hload, hdeep | ⟨p, hp, hlines, he⟩⟩ := loadWithin_dump_of_not_fits hc hfault
    · exact Or.inl ⟨hdeep.1, hdeep.2 ▸ hload⟩
    · exact Or.inr ⟨p, hp, hlines, he ▸ hload⟩

/-- A function with a source, constants that equality of numbers would confuse and a string whose size
    needs eight bytes; in it a function without a source. -/
def nestedSample : Chunk where
  upvalueCount := 1
  main := .node
    { source := "@m", firstLine := 0, lastLine := 0, parameterCount := 0, varargFlag := 1, slotCount := 2
      code := [⟨0x0080001E⟩]
      constants := [.float ⟨0x7FF8000000000001⟩, .float ⟨0x8000000000000000⟩,
        .str (List.replicate 254 0x7A)]
      upvalues := [⟨1, 0⟩], lineInfo := [7]
      localVariables := [⟨"x", 0, 1⟩], upvalueNames := ["_ENV"] }
    [.node
      { source := "", firstLine := 3, lastLine := 5, parameterCount := 2, varargFlag := 0, slotCount := 2
        code := [], constants := [.nil, .bool true, .int (-1)], upvalues := [], lineInfo := []
        localVariables := [], upvalueNames := [] } []]

/-- With two levels the inner function comes back with the outer source; with one it is too deep. -/
theorem loadWithin_dump_nestedSample :
    nestedSample.main.Storable
      ∧ loadWithin 2 (nestedSample.dump false) = .ok nestedSample.resolveSources
      ∧ ¬ loadWithin 2 (nestedSample.dump false) = .ok nestedSample
      ∧ loadWithin 1 (nestedSample.dump false) = .error (.nestingTooDeep 1) := by
  have hstorable : nestedSample.main.Storable := by decide +kernel
  have hlines : nestedSample.main.LinesAgree := by decide +kernel
  have hdepth : nestedSample.main.depth = 2 := by decide +kernel
  have hfits := (loadWithin_dump nestedSample 2 hstorable).1 ⟨by omega, hlines⟩
  refine ⟨hstorable, hfits.1, ?_, ?_⟩
  · rw [hfits.2]
    decide +kernel
  · rcases (loadWithin_dump nestedSample 1 hstorable).2 (by omega) with ⟨_, h⟩ | ⟨p, hp, hbad, _⟩
    · exact h
    · exact absurd (hlines p hp) hbad

end Chunk

/-! ## Loaded chunks are written back the same -/

/-- A form is longer than the string, by its size at least. -/
theorem StringForm.length_lt {form bytes : Bytes} (h : StringForm form bytes) :
    bytes.length < form.length := by
  cases h with
  | absent => exact Nat.zero_lt_one
  | short => exact Nat.lt_succ_self _
  | long =>
    rw [List.length_append, List.length_cons]
    omega

/-- A name read from fewer than `2 ^ 62` bytes can be written, replaced characters included. -/
theorem NameForm.storable {form : Bytes} {s : String} (h : NameForm form s)
    (hlen : 4 * form.length < sizeBound) : StorableBytes (Utf8.encode s) := by
  obtain ⟨bytes, hbytes, rfl⟩ := h
  have h1 := hbytes.length_lt
  have h2 := Utf8.length_encode_decode_le bytes
  unfold StorableBytes
  omega

/-- A constant read from fewer than `2 ^ 62` bytes can be written. -/
theorem ConstantForm.storable {form : Bytes} {v : Value} (h : ConstantForm form v)
    (hlen : 4 * form.length < sizeBound) : v.Storable := by
  cases h with
  | nil | bool | int | float => trivial
  | shortString hs | longString hs =>
    have := hs.length_lt
    rw [List.length_cons] at hlen
    unfold Value.Storable StorableBytes
    omega

/-- **A tree derived from fewer than `2 ^ 62` bytes is storable**, if the source around it is. -/
theorem PrototypeForm.storable {limit depth : Nat} {parent : String} {form : Bytes} {p : Prototype}
    (h : PrototypeForm limit depth parent form p) (hlen : 4 * form.length < sizeBound)
    (hparent : StorableBytes (Utf8.encode parent)) : p.Storable := by
  induction p using Prototype.induction_on generalizing depth parent form with
  | step f cs ih =>
    have hroot : f.Storable ∧ cs.length < countBound := by
      cases h with
      | node _ hown hsource hcode hconstants hupvalues hcount _ hlineInfo _ hlocals hnames =>
        simp only [List.length_append] at hlen
        have hsourceBytes : StorableBytes (Utf8.encode f.source) := by
          rw [hsource]
          split
          · exact hparent
          · exact hown.storable (by omega)
        have hvalues : ∀ v ∈ f.constants, v.Storable := by
          intro v hv
          obtain ⟨part, hpart, hle⟩ := hconstants.exists_form hv
          exact hpart.storable (by omega)
        have hlocalNames : ∀ v ∈ f.localVariables, StorableBytes (Utf8.encode v.name) := by
          intro v hv
          obtain ⟨part, ⟨name, hname, rfl⟩, hle⟩ := hlocals.exists_form hv
          simp only [List.length_append] at hle
          exact hname.storable (by omega)
        have hupvalueNames : ∀ s ∈ f.upvalueNames, StorableBytes (Utf8.encode s) := by
          intro s hs
          obtain ⟨part, hpart, hle⟩ := hnames.exists_form hs
          exact hpart.storable (by omega)
        exact ⟨⟨hsourceBytes, hcode.length_lt, hconstants.length_lt, hupvalues.length_lt,
          hlineInfo.length_lt, hlocals.length_lt, hnames.length_lt, hvalues, hlocalNames,
          hupvalueNames⟩, hcount⟩
    refine Prototype.storable_node.2 ⟨hroot, fun c hc => ?_⟩
    obtain ⟨part, hpart, hle⟩ := h.child hc
    exact ih c hc hpart (by omega) hroot.1.source

/-- **Loading and writing normalises in one pass.**  A chunk loaded from fewer than `2 ^ 62` bytes is
    loaded again, the same in every bit, from the bytes written for it; so the bytes written for what was
    loaded again are the same too. -/
theorem Chunk.loadWithin_dump_of_loadWithin {limit : Nat} {bytes : Bytes} {c : Chunk}
    (hlen : bytes.length < 0x4000000000000000) (h : Chunk.loadWithin limit bytes = .ok c) :
    Chunk.loadWithin limit (c.dump false) = .ok c
      ∧ ∀ c', Chunk.loadWithin limit (c.dump false) = .ok c' → c'.dump false = c.dump false := by
  obtain ⟨form, hform, rfl⟩ := ReadM.chunk_eq_ok_iff.1 (Chunk.loadWithin_eq_ok.1 h)
  have hshort : 4 * form.length < sizeBound := by
    simp only [List.length_append] at hlen
    unfold sizeBound
    omega
  have hdepth := hform.depth_le
  have hagain : Chunk.loadWithin limit (c.dump false) = .ok c.resolveSources :=
    Chunk.loadWithin_dump_of_fits (hform.storable hshort (by decide)) (by omega) hform.linesAgree
  have hresolved : c.resolveSources = c := by
    rw [Chunk.resolveSources, hform.resolveSources_eq]
  rw [hresolved] at hagain
  refine ⟨hagain, fun c' hc' => ?_⟩
  rw [hagain] at hc'
  cases hc'
  rfl

/-- A successful outcome is decided by what it yields. -/
theorem eq_ok_of_toOption {ε α : Type} {x : Except ε α} {a : α} (h : x.toOption = some a) : x = .ok a := by
  cases x with
  | error e => cases h
  | ok b =>
    cases h
    rfl

/-- Bytes that no writer produces: a short source behind an eight-byte size and not UTF-8, a boolean
    byte of seven, string tags against the lengths, a constant that is not UTF-8, a nested source spelt out
    although it is the same, and absent names. -/
def unwrittenSample : Bytes :=
  Format.header ++ [0x01]
    ++ (0xFF :: toLittleEndian 8 3) ++ [0x40, 0xFF]
    ++ List.replicate 11 0 ++ toLittleEndian 4 0
    ++ toLittleEndian 4 3 ++ [0x01, 0x07, 0x14, 0x02, 0xC0, 0x04, 0x00]
    ++ toLittleEndian 4 0
    ++ toLittleEndian 4 1 ++ [0x05, 0x40, 0xEF, 0xBF, 0xBD] ++ List.replicate 39 0
    ++ toLittleEndian 4 0
    ++ toLittleEndian 4 1 ++ List.replicate 9 0
    ++ toLittleEndian 4 1 ++ [0x00]

/-- What `unwrittenSample` stands for. -/
def unwrittenSampleChunk : Chunk where
  upvalueCount := 1
  main := .node
    { source := "@�", firstLine := 0, lastLine := 0, parameterCount := 0, varargFlag := 0
      slotCount := 0, code := [], constants := [.bool true, .str [0xC0], .str []], upvalues := []
      lineInfo := [], localVariables := [⟨"", 0, 0⟩], upvalueNames := [""] }
    [.node
      { source := "@�", firstLine := 0, lastLine := 0, parameterCount := 0, varargFlag := 0
        slotCount := 0, code := [], constants := [], upvalues := [], lineInfo := []
        localVariables := [], upvalueNames := [] } []]

/-- A chunk that no writer produces: it is read, written back in other bytes, and read again as the same
    chunk. -/
theorem Chunk.loadWithin_dump_of_unwrittenSample :
    unwrittenSample.length < 0x4000000000000000
      ∧ Chunk.loadWithin 2 unwrittenSample = .ok unwrittenSampleChunk
      ∧ unwrittenSampleChunk.dump false ≠ unwrittenSample
      ∧ Chunk.loadWithin 2 (unwrittenSampleChunk.dump false) = .ok unwrittenSampleChunk := by
  have hlen : unwrittenSample.length < 0x4000000000000000 := by decide +kernel
  have hload : Chunk.loadWithin 2 unwrittenSample = .ok unwrittenSampleChunk :=
    eq_ok_of_toOption (by decide +kernel)
  exact ⟨hlen, hload, by decide +kernel, (Chunk.loadWithin_dump_of_loadWithin hlen hload).1⟩

end LuaBytecode
