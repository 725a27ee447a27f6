/-
  The grammar of chunks, and that loading accepts exactly it.

  1. **Grammar** — which bytes stand for which constants, upvalues, variables, functions.  A function is
     a derivation at a depth, under the resolved source of the function around it: its fields in order,
     seven counted segments, the functions of the fourth segment derived one level deeper under this
     function's own resolved source.  The grammar admits what no writer produces: sizes of short strings
     in eight bytes, absent names, any byte for a boolean, either tag for any string.

  2. **Elements** — every element reader accepts its form, and no form is shorter than the width that
     its segment is checked for.  A function takes at least forty bytes, four more than that width.

  3. **Functions** — `accepts_prototype`, by induction on the levels that may still be opened: one level
     accepts the rule for one function if the step below accepts the functions nested in it.

  4. **Chunks** — the header, one byte, the main function, and nothing after it.
-/
import LuaBytecode.Chunk.Loader
import LuaBytecode.Proofs.Chunk.Reading

namespace LuaBytecode

/-! ## Elements of segments -/

def InstructionForm : Form Instruction := fun form i => form = toLittleEndian 4 i.word.toNat

/-- A constant: a tag and what the tag announces.  Any byte but zero is true, and either string tag may
    stand before a string of any length. -/
inductive ConstantForm : Form Value
  | nil : ConstantForm [0x00] .nil
  | bool (b : UInt8) : ConstantForm [0x01, b] (.bool (b != 0))
  | int (n : Int64) : ConstantForm (0x13 :: toLittleEndian 8 n.toUInt64.toNat) (.int n)
  | float (f : Binary64) : ConstantForm (0x03 :: toLittleEndian 8 f.bits.toNat) (.float f)
  | shortString {form bytes : Bytes} : StringForm form bytes → ConstantForm (0x04 :: form) (.str bytes)
  | longString {form bytes : Bytes} : StringForm form bytes → ConstantForm (0x14 :: form) (.str bytes)

def UpvalueForm : Form Upvalue := fun form u => form = [u.inStack, u.index]

def LocalVariableForm : Form LocalVariable := fun form v =>
  ∃ name, NameForm name v.name
    ∧ form = name ++ toLittleEndian 4 v.startPc.toNat ++ toLittleEndian 4 v.endPc.toNat

/-! ## Functions -/

mutual

/-- A function at a depth, `parent` being the resolved source of the function around it.  `own` is the
    source as stored; where it is empty the function has the source of its parent. -/
inductive PrototypeForm (limit : Nat) : (depth : Nat) → (parent : String) → Form Prototype
  | node {depth : Nat} {parent own : String} {f : FunctionBody} {children : List Prototype}
      {source code constants upvalues nested lineInfo localVariables upvalueNames : Bytes} :
    depth ≤ limit →
    NameForm source own →
    f.source = (if own = "" then parent else own) →
    SegmentForm InstructionForm code f.code →
    SegmentForm ConstantForm constants f.constants →
    SegmentForm UpvalueForm upvalues f.upvalues →
    children.length < countBound →
    SiblingForms limit (depth + 1) f.source nested children →
    SegmentForm Word32Form lineInfo f.lineInfo →
    (f.lineInfo = [] ∨ f.lineInfo.length = f.code.length) →
    SegmentForm LocalVariableForm localVariables f.localVariables →
    SegmentForm NameForm upvalueNames f.upvalueNames →
    PrototypeForm limit depth parent
      (source ++ toLittleEndian 4 f.firstLine.toNat ++ toLittleEndian 4 f.lastLine.toNat
        ++ [f.parameterCount, f.varargFlag, f.slotCount]
        ++ code ++ constants ++ upvalues ++ toLittleEndian 4 children.length ++ nested
        ++ lineInfo ++ localVariables ++ upvalueNames)
      (.node f children)

/-- Functions one after another, at the same depth and under the same source. -/
inductive SiblingForms (limit : Nat) : (depth : Nat) → (parent : String) → Form (List Prototype)
  | nil {depth : Nat} {parent : String} : SiblingForms limit depth parent [] []
  | cons {depth : Nat} {parent : String} {form forms : Bytes} {p : Prototype} {ps : List Prototype} :
    PrototypeForm limit depth parent form p →
    SiblingForms limit depth parent forms ps →
    SiblingForms limit depth parent (form ++ forms) (p :: ps)

end

/-- The rule for siblings, which is part of the one mutual definition, is the general one for repetition. -/
theorem siblingForms_iff {limit depth : Nat} {parent : String} {forms : Bytes}
    {ps : List Prototype} :
    SiblingForms limit depth parent forms ps
      ↔ RepeatedForm (PrototypeForm limit depth parent) forms ps := by
  constructor
  · intro h
    induction ps generalizing forms with
    | nil => cases h; exact .nil
    | cons p ps ih =>
      cases h with
      | cons hp hps => exact .cons hp (ih hps)
  · intro h
    induction h with
    | nil => exact .nil
    | cons hp _ ih => exact .cons hp ih

/-! ## Least widths -/

theorem StringForm.one_le_length {form bytes : Bytes} (h : StringForm form bytes) :
    1 ≤ form.length := by
  cases h <;> simp

theorem NameForm.one_le_length {form : Bytes} {s : String} (h : NameForm form s) :
    1 ≤ form.length := by
  obtain ⟨bytes, hbytes, _⟩ := h
  exact hbytes.one_le_length

/-- An empty segment still has its count. -/
theorem SegmentForm.four_le_length {α : Type} {G : Form α} {form : Bytes} {xs : List α}
    (h : SegmentForm G form xs) : 4 ≤ form.length := by
  obtain ⟨elements, _, rfl, _⟩ := h
  simp

theorem InstructionForm.width_le {form : Bytes} {i : Instruction} (h : InstructionForm form i) :
    Segment.code.elementWidth ≤ form.length := by
  rw [h, length_toLittleEndian]
  decide

/-- The tag alone makes a constant, the nil one. -/
theorem ConstantForm.width_le {form : Bytes} {v : Value} (h : ConstantForm form v) :
    Segment.constants.elementWidth ≤ form.length := by
  cases h <;> simp [Segment.elementWidth]

theorem UpvalueForm.width_le {form : Bytes} {u : Upvalue} (h : UpvalueForm form u) :
    Segment.upvalues.elementWidth ≤ form.length := by
  rw [h]
  exact Nat.le_refl 2

theorem Word32Form.width_le {form : Bytes} {n : UInt32} (h : Word32Form form n) :
    Segment.lineInfo.elementWidth ≤ form.length := by
  rw [h, length_toLittleEndian]
  decide

/-- An absent name and two positions. -/
theorem LocalVariableForm.width_le {form : Bytes} {v : LocalVariable} (h : LocalVariableForm form v) :
    Segment.localVariables.elementWidth ≤ form.length := by
  obtain ⟨name, hname, rfl⟩ := h
  have := hname.one_le_length
  simp only [Segment.elementWidth, List.length_append, length_toLittleEndian]
  omega

/-- A function takes at least forty bytes: an absent source, two line numbers, three bytes and seven
    empty counts. -/
theorem PrototypeForm.forty_le_length {limit depth : Nat} {parent : String} {form : Bytes}
    {p : Prototype} (h : PrototypeForm limit depth parent form p) : 40 ≤ form.length := by
  cases h with
  | node _ hsource _ hcode hconstants hupvalues _ _ hlines _ hlocals hnames =>
    have h1 := hsource.one_le_length
    have h2 := hcode.four_le_length
    have h3 := hconstants.four_le_length
    have h4 := hupvalues.four_le_length
    have h5 := hlines.four_le_length
    have h6 := hlocals.four_le_length
    have h7 := hnames.four_le_length
    simp only [List.length_append, length_toLittleEndian, List.length_cons, List.length_nil]
    omega

/-- The width that is checked for is less than what a function takes, so the check loses nothing. -/
theorem PrototypeForm.width_le {limit depth : Nat} {parent : String} {form : Bytes}
    {p : Prototype} (h : PrototypeForm limit depth parent form p) :
    Segment.prototypes.elementWidth ≤ form.length :=
  Nat.le_trans (by decide) h.forty_le_length

/-! ## Element readers -/

namespace ReadM

theorem accepts_integer :
    Accepts integer (fun form n => form = toLittleEndian 8 n.toUInt64.toNat) :=
  accepts_wrap accepts_word64 (fun _ => rfl) (fun _ => rfl)

theorem accepts_number : Accepts number (fun form f => form = toLittleEndian 8 f.bits.toNat) :=
  accepts_wrap accepts_word64 (fun _ => rfl) (fun _ => rfl)

theorem accepts_instruction : Accepts instruction InstructionForm :=
  accepts_wrap accepts_word32 (fun _ => rfl) (fun _ => rfl)

/-- Two bytes, whatever they are. -/
theorem accepts_upvalue : Accepts upvalue UpvalueForm := by
  refine (accepts_bind accepts_byte fun inStack =>
    accepts_map accepts_byte (Upvalue.mk inStack)).of_iff fun form u => ?_
  constructor
  · rintro ⟨inStack, _, _, rfl, ⟨index, rfl, rfl⟩, rfl⟩
    rfl
  · intro h
    exact ⟨u.inStack, _, _, rfl, ⟨u.index, rfl, rfl⟩, h⟩

/-- A name and two words, in this order. -/
theorem accepts_localVariable : Accepts localVariable LocalVariableForm := by
  refine (accepts_bind accepts_name fun name => accepts_bind accepts_word32 fun startPc =>
    accepts_map accepts_word32 (LocalVariable.mk name startPc)).of_iff fun form v => ?_
  constructor
  · rintro ⟨name, a, _, hname, ⟨startPc, _, _, rfl, ⟨endPc, rfl, rfl⟩, rfl⟩, rfl⟩
    exact ⟨a, hname, (List.append_assoc _ _ _).symm⟩
  · rintro ⟨name, hname, rfl⟩
    exact ⟨v.name, name, _, hname, ⟨v.startPc, _, _, rfl, ⟨v.endPc, rfl, rfl⟩, rfl⟩,
      List.append_assoc _ _ _⟩

/-- What follows each tag. -/
theorem constantForm_cons_iff {tag : UInt8} {form : Bytes} {v : Value} :
    ConstantForm (tag :: form) v ↔
      (tag = Format.nilTag ∧ form = [] ∧ v = .nil)
      ∨ (tag = Format.booleanTag ∧ ∃ b, form = [b] ∧ v = .bool (b != 0))
      ∨ (tag = Format.integerTag ∧ ∃ n : Int64, form = toLittleEndian 8 n.toUInt64.toNat ∧ v = .int n)
      ∨ (tag = Format.numberTag ∧ ∃ f : Binary64, form = toLittleEndian 8 f.bits.toNat ∧ v = .float f)
      ∨ ((tag = Format.shortStringTag ∨ tag = Format.longStringTag)
        ∧ ∃ bytes, StringForm form bytes ∧ v = .str bytes) := by
  constructor
  · intro h
    cases h with
    | nil => exact .inl ⟨rfl, rfl, rfl⟩
    | bool b => exact .inr (.inl ⟨rfl, b, rfl, rfl⟩)
    | int n => exact .inr (.inr (.inl ⟨rfl, n, rfl, rfl⟩))
    | float f => exact .inr (.inr (.inr (.inl ⟨rfl, f, rfl, rfl⟩)))
    | shortString hform => exact .inr (.inr (.inr (.inr ⟨.inl rfl, _, hform, rfl⟩)))
    | longString hform => exact .inr (.inr (.inr (.inr ⟨.inr rfl, _, hform, rfl⟩)))
  · rintro (⟨rfl, rfl, rfl⟩ | ⟨rfl, b, rfl, rfl⟩ | ⟨rfl, n, rfl, rfl⟩ | ⟨rfl, f, rfl, rfl⟩
      | ⟨rfl | rfl, bytes, hform, rfl⟩)
    · exact .nil
    · exact .bool b
    · exact .int n
    · exact .float f
    · exact .shortString hform
    · exact .longString hform

/-- **Constants**, tag by tag: after each the step accepts what the grammar has there, and after a byte that
    is no tag there is nothing to accept. -/
theorem accepts_constant : Accepts constant ConstantForm := by
  refine accepts_position_bind fun start => accepts_dispatch (fun v h => by cases h) fun tag => ?_
  by_cases hnil : tag = Format.nilTag
  · subst hnil
    exact (accepts_pure Value.nil).of_iff fun form v => by simp +decide [constantForm_cons_iff]
  rw [if_neg hnil]
  by_cases hboolean : tag = Format.booleanTag
  · subst hboolean
    exact (accepts_map accepts_byte fun b => Value.bool (b != 0)).of_iff fun form v => by
      simp +decide [constantForm_cons_iff]
  rw [if_neg hboolean]
  by_cases hinteger : tag = Format.integerTag
  · subst hinteger
    exact (accepts_map accepts_integer Value.int).of_iff fun form v => by
      simp +decide [constantForm_cons_iff]
  rw [if_neg hinteger]
  by_cases hnumber : tag = Format.numberTag
  · subst hnumber
    exact (accepts_map accepts_number Value.float).of_iff fun form v => by
      simp +decide [constantForm_cons_iff]
  rw [if_neg hnumber]
  by_cases hstring : tag = Format.shortStringTag ∨ tag = Format.longStringTag
  · rw [if_pos hstring]
    exact (accepts_map accepts_string Value.str).of_iff fun form v => by
      simp [constantForm_cons_iff, hnil, hboolean, hinteger, hnumber, hstring]
  · rw [if_neg hstring]
    exact (accepts_throw (.unknownConstantTag tag start)).of_iff fun form v => by
      simp [constantForm_cons_iff, hnil, hboolean, hinteger, hnumber, hstring]

/-! ## The function readers -/

/-- **One level.**  Reading a function accepts the rule for one function if the step for the nested ones
    accepts functions one level deeper. -/
theorem accepts_prototypeBody {limit depth : Nat} (hdepth : depth ≤ limit)
    {child : String → ReadM Prototype}
    (hchild : ∀ source, Accepts (child source) (PrototypeForm limit (depth + 1) source))
    (parent : String) :
    Accepts (prototypeBody child parent) (PrototypeForm limit depth parent) := by
  refine (accepts_bind accepts_name fun own =>
    accepts_bind accepts_word32 fun firstLine =>
    accepts_bind accepts_word32 fun lastLine =>
    accepts_bind accepts_byte fun parameterCount =>
    accepts_bind accepts_byte fun varargFlag =>
    accepts_bind accepts_byte fun slotCount =>
    accepts_bind (accepts_segment .code accepts_instruction fun _ _ => InstructionForm.width_le)
      fun code =>
    accepts_bind (accepts_segment .constants accepts_constant fun _ _ => ConstantForm.width_le)
      fun constants =>
    accepts_bind (accepts_segment .upvalues accepts_upvalue fun _ _ => UpvalueForm.width_le)
      fun upvalues =>
    accepts_bind (accepts_segment .prototypes (hchild (if own = "" then parent else own))
      fun _ _ => PrototypeForm.width_le) fun children =>
    accepts_bind (accepts_segment .lineInfo accepts_word32 fun _ _ => Word32Form.width_le)
      fun lineInfo =>
    accepts_bind (accepts_require (lineInfo = [] ∨ lineInfo.length = code.length)
      (.lineInfoMismatch code.length lineInfo.length)) fun _ =>
    accepts_bind (accepts_segment .localVariables accepts_localVariable
      fun _ _ => LocalVariableForm.width_le) fun localVariables =>
    accepts_map (accepts_segment .upvalueNames accepts_name fun _ _ => NameForm.one_le_length)
      fun upvalueNames => Prototype.node
        { source := if own = "" then parent else own, firstLine, lastLine, parameterCount, varargFlag,
          slotCount, code, constants, upvalues, lineInfo, localVariables, upvalueNames }
        children).of_iff fun form p => ?_
  constructor
  · -- one field at a time, each leaving the form of all that follows it in `h`
    rintro ⟨own, source, _, hsource, h, rfl⟩
    obtain ⟨firstLine, _, _, rfl, h, rfl⟩ := h
    obtain ⟨lastLine, _, _, rfl, h, rfl⟩ := h
    obtain ⟨parameterCount, _, _, rfl, h, rfl⟩ := h
    obtain ⟨varargFlag, _, _, rfl, h, rfl⟩ := h
    obtain ⟨slotCount, _, _, rfl, h, rfl⟩ := h
    obtain ⟨code, _, _, hcode, h, rfl⟩ := h
    obtain ⟨constants, _, _, hconstants, h, rfl⟩ := h
    obtain ⟨upvalues, _, _, hupvalues, h, rfl⟩ := h
    obtain ⟨children, _, _, ⟨nested, hcount, rfl, hnested⟩, h, rfl⟩ := h
    obtain ⟨lineInfo, _, _, hlineInfo, h, rfl⟩ := h
    obtain ⟨_, _, _, ⟨rfl, hlines⟩, h, rfl⟩ := h
    obtain ⟨localVariables, _, _, hlocals, h, rfl⟩ := h
    obtain ⟨upvalueNames, hnames, rfl⟩ := h
    have hnode := PrototypeForm.node (f :=
        { source := if own = "" then parent else own, firstLine, lastLine, parameterCount, varargFlag,
          slotCount, code, constants, upvalues, lineInfo, localVariables, upvalueNames })
      hdepth hsource rfl hcode hconstants hupvalues hcount (siblingForms_iff.2 hnested) hlineInfo hlines
      hlocals hnames
    simpa only [List.append_assoc, List.cons_append, List.nil_append] using hnode
  · intro h
    cases h with
    | @node _ _ own f children source code constants upvalues nested lineInfo localVariables upvalueNames
        _ hsource hown hcode hconstants hupvalues hcount hnested hlineInfo hlines hlocals hnames =>
      refine ⟨own, source, _, hsource, ?_, by simp only [List.append_assoc]; rfl⟩
      refine ⟨f.firstLine, _, _, rfl, ?_, rfl⟩
      refine ⟨f.lastLine, _, _, rfl, ?_, rfl⟩
      refine ⟨f.parameterCount, _, _, rfl, ?_, rfl⟩
      refine ⟨f.varargFlag, _, _, rfl, ?_, rfl⟩
      refine ⟨f.slotCount, _, _, rfl, ?_, rfl⟩
      refine ⟨f.code, _, _, hcode, ?_, rfl⟩
      refine ⟨f.constants, _, _, hconstants, ?_, rfl⟩
      refine ⟨f.upvalues, _, _, hupvalues, ?_, rfl⟩
      refine ⟨children, _, _, ⟨nested, hcount, rfl, siblingForms_iff.1 (hown ▸ hnested)⟩, ?_, rfl⟩
      refine ⟨f.lineInfo, _, _, hlineInfo, ?_, rfl⟩
      refine ⟨(), [], _, ⟨rfl, hlines⟩, ?_, rfl⟩
      refine ⟨f.localVariables, _, _, hlocals, ?_, rfl⟩
      refine ⟨f.upvalueNames, hnames, ?_⟩
      rw [← hown]

/-- **All levels.**  With `room` levels left of `limit`, a function is read at the depth that leaves so
    many; at a depth below the limit there is none to read. -/
theorem accepts_prototype {limit room depth : Nat} (h : room + depth = limit + 1) (parent : String) :
    Accepts (prototype limit room parent) (PrototypeForm limit depth parent) := by
  induction room generalizing depth parent with
  | zero =>
    -- no level is left, and the rule for functions asks for one
    refine (accepts_throw (.nestingTooDeep limit)).of_iff fun form p => ⟨False.elim, fun hp => ?_⟩
    cases hp
    omega
  | succ room ih =>
    exact accepts_prototypeBody (by omega) (fun source => ih (by omega) source) parent

/-! ## Header and chunk -/

/-- By induction on the fields: each byte must be the size that is expected. -/
theorem accepts_sizeFields (fields : List SizeField) :
    Accepts (sizeFields fields) (fun form _ => form = fields.map SizeField.size) := by
  induction fields with
  | nil => exact (accepts_pure ()).of_iff fun form _ => by simp
  | cons field rest ih =>
    refine (accepts_bind accepts_byte fun found => accepts_bind
      (accepts_require (found = field.size) (.sizeMismatch field found)) fun _ => ih).of_iff
      fun form _ => ?_
    constructor
    · rintro ⟨_, _, _, rfl, ⟨_, _, _, ⟨rfl, rfl⟩, rfl, rfl⟩, rfl⟩
      rfl
    · rintro rfl
      exact ⟨field.size, _, _, rfl, ⟨(), [], _, ⟨rfl, rfl⟩, rfl, rfl⟩, rfl⟩

/-- Eight bytes store the double `370.5` exactly if they are its bytes: compared as numbers, no other
    pattern passes for it. -/
theorem numEq_sampleDouble_iff {stored : Bytes} (h : stored.length = 8) :
    (Binary64.ofBytes stored).numEq Format.sampleDouble = true ↔ stored = Format.sampleNumber := by
  have hlt := ofLittleEndian_lt stored
  rw [h] at hlt
  have hbits : (UInt64.ofNat (ofLittleEndian stored)).toNat = ofLittleEndian stored :=
    UInt64.toNat_ofNat_of_lt' hlt
  rw [Binary64.numEq_eq_true_iff (by decide) (by decide), Format.sampleNumber,
    eq_toLittleEndian_iff (by decide)]
  constructor
  · intro hsame
    have htoNat := congrArg (fun f => f.bits.toNat) hsame
    exact ⟨h, hbits.symm.trans htoNat⟩
  · rintro ⟨_, hvalue⟩
    rw [Binary64.ofBytes, hvalue]
    rfl

/-- The sample is accepted by its value, and only its own eight bytes have that value. -/
theorem accepts_sampleNumber : Accepts sampleNumber (fun form _ => form = Format.sampleNumber) := by
  refine (accepts_bind (accepts_take 8 .word64) fun stored =>
    accepts_ite (p := (Binary64.ofBytes stored).numEq Format.sampleDouble = true) (accepts_pure ())
      (accepts_ite (p := (Binary64.ofBytes stored.reverse).numEq Format.sampleDouble = true)
        (accepts_throw .endiannessMismatch)
        (accepts_throw (.floatFormatMismatch (Binary64.ofBytes stored))))).of_iff fun form _ => ?_
  constructor
  · rintro ⟨_, _, rest, ⟨rfl, hlength⟩, hcheck, rfl⟩
    split at hcheck
    · rename_i hsame
      obtain ⟨rfl, _⟩ := hcheck
      rw [List.append_nil]
      exact (numEq_sampleDouble_iff hlength).1 hsame
    · split at hcheck <;> exact hcheck.elim
  · rintro rfl
    refine ⟨Format.sampleNumber, _, [], ⟨rfl, rfl⟩, ?_, (List.append_nil _).symm⟩
    rw [if_pos ((numEq_sampleDouble_iff rfl).2 rfl)]
    exact ⟨rfl, rfl⟩

/-- The header reader accepts one byte string. -/
theorem accepts_header : Accepts header (fun form _ => form = Format.header) := by
  refine (accepts_bind (accepts_take 4 .signature) fun signature =>
    accepts_bind (accepts_require (signature = Format.signature) .notAChunk) fun _ =>
    accepts_bind accepts_byte fun version =>
    accepts_bind (accepts_require (version = Format.version) (.versionMismatch version)) fun _ =>
    accepts_bind accepts_byte fun format =>
    accepts_bind (accepts_require (format = Format.format) (.formatMismatch format)) fun _ =>
    accepts_bind (accepts_take 6 .conversionCheck) fun check =>
    accepts_bind (accepts_require (check = Format.conversionCheck) .corrupted) fun _ =>
    accepts_bind (accepts_sizeFields SizeField.all) fun _ =>
    accepts_bind (accepts_take 8 .word64) fun integer =>
    accepts_bind (accepts_require (integer = Format.sampleInteger) .endiannessMismatch) fun _ =>
    accepts_sampleNumber).of_iff fun form _ => ?_
  constructor
  · -- a field and the check on it fix the bytes of the field
    rintro ⟨_, _, _, ⟨rfl, _⟩, ⟨_, _, _, ⟨rfl, rfl⟩, h, rfl⟩, rfl⟩
    obtain ⟨_, _, _, rfl, ⟨_, _, _, ⟨rfl, rfl⟩, h, rfl⟩, rfl⟩ := h
    obtain ⟨_, _, _, rfl, ⟨_, _, _, ⟨rfl, rfl⟩, h, rfl⟩, rfl⟩ := h
    obtain ⟨_, _, _, ⟨rfl, _⟩, ⟨_, _, _, ⟨rfl, rfl⟩, h, rfl⟩, rfl⟩ := h
    obtain ⟨_, _, _, rfl, h, rfl⟩ := h
    obtain ⟨_, _, _, ⟨rfl, _⟩, ⟨_, _, _, ⟨rfl, rfl⟩, h, rfl⟩, rfl⟩ := h
    rw [h]
    rfl
  · rintro rfl
    refine ⟨Format.signature, _, _, ⟨rfl, rfl⟩, ⟨(), [], _, ⟨rfl, rfl⟩, ?_, rfl⟩, rfl⟩
    refine ⟨Format.version, _, _, rfl, ⟨(), [], _, ⟨rfl, rfl⟩, ?_, rfl⟩, rfl⟩
    refine ⟨Format.format, _, _, rfl, ⟨(), [], _, ⟨rfl, rfl⟩, ?_, rfl⟩, rfl⟩
    refine ⟨Format.conversionCheck, _, _, ⟨rfl, rfl⟩, ⟨(), [], _, ⟨rfl, rfl⟩, ?_, rfl⟩, rfl⟩
    refine ⟨(), _, _, rfl, ?_, rfl⟩
    exact ⟨Format.sampleInteger, _, _, ⟨rfl, rfl⟩, ⟨(), [], _, ⟨rfl, rfl⟩, rfl, rfl⟩, rfl⟩

/-- A chunk is read exactly if a header, a byte and a function are all there is. -/
theorem chunk_eq_ok_iff {limit : Nat} {bytes : Bytes} {c : Chunk} :
    (∃ d, chunk limit (.ofBytes bytes) = .ok c d) ↔
      ∃ form, PrototypeForm limit 1 "" form c.main
        ∧ bytes = Format.header ++ [c.upvalueCount] ++ form := by
  have hmain : Accepts (prototype limit limit "") (PrototypeForm limit 1 "") := accepts_prototype rfl ""
  constructor
  · rintro ⟨d, h⟩
    obtain ⟨_, c1, h1, h⟩ := bind_eq_ok_iff.1 h
    obtain ⟨upvalueCount, c2, h2, h⟩ := bind_eq_ok_iff.1 h
    obtain ⟨main, c3, h3, h⟩ := bind_eq_ok_iff.1 h
    obtain ⟨_, _, h4, h⟩ := bind_eq_ok_iff.1 h
    cases h4
    obtain ⟨_, _, h5, h⟩ := bind_eq_ok_iff.1 h
    cases h
    obtain ⟨_, rfl, hu1, _⟩ := (accepts_header _ _ _).1 h1
    obtain ⟨_, rfl, hu2, _⟩ := (accepts_byte _ _ _).1 h2
    obtain ⟨form, hform, hu3, _⟩ := (hmain _ _ _).1 h3
    -- the last check is that no byte is left
    obtain ⟨_, ⟨_, hleft⟩, _⟩ := (accepts_require _ _ _ _ _).1 h5
    have hend : c3.unread = [] := List.eq_nil_of_length_eq_zero hleft
    refine ⟨form, hform, ?_⟩
    rw [show bytes = (Cursor.ofBytes bytes).unread from rfl, hu1, hu2, hu3, hend, List.append_nil,
      List.append_assoc]
  · rintro ⟨form, hform, rfl⟩
    refine ⟨⟨[], 33 + 1 + form.length⟩, ?_⟩
    refine bind_eq_ok_iff.2 ⟨(), ⟨[c.upvalueCount] ++ form, 33⟩, ?_, ?_⟩
    · exact (accepts_header _ _ _).2 ⟨_, rfl, List.append_assoc _ _ _, rfl⟩
    refine bind_eq_ok_iff.2 ⟨c.upvalueCount, ⟨form, 33 + 1⟩, rfl, ?_⟩
    refine bind_eq_ok_iff.2 ⟨c.main, ⟨[], 33 + 1 + form.length⟩, ?_, rfl⟩
    exact (hmain _ _ _).2 ⟨form, hform, (List.append_nil form).symm, rfl⟩

end ReadM

/-- Loading succeeds if reading the chunk does; the cursor after it is of no interest. -/
theorem Chunk.loadWithin_eq_ok {limit : Nat} {bytes : Bytes} {c : Chunk} :
    Chunk.loadWithin limit bytes = .ok c ↔ ∃ d, ReadM.chunk limit (.ofBytes bytes) = .ok c d := by
  unfold Chunk.loadWithin
  cases ReadM.chunk limit (.ofBytes bytes) with
  | ok c' d =>
    constructor
    · intro h
      cases h
      exact ⟨d, rfl⟩
    · rintro ⟨_, h⟩
      cases h
      rfl
  | error e d =>
    constructor
    · intro h
      cases h
    · rintro ⟨_, h⟩
      cases h

/-- **Loading accepts exactly the chunk grammar**: it succeeds on the header, one byte and one derivation
    of the main function at depth one, and yields what they stand for. -/
theorem Chunk.loadWithin_eq_ok_iff_derives (limit : Nat) (bytes : Bytes) (c : Chunk) :
    Chunk.loadWithin limit bytes = .ok c ↔
      ∃ form, PrototypeForm limit 1 "" form c.main
        ∧ bytes = Format.header ++ [c.upvalueCount] ++ form :=
  Chunk.loadWithin_eq_ok.trans ReadM.chunk_eq_ok_iff

end LuaBytecode
