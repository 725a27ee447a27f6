/-
  Laws of reading steps.

  Every reader of the loader is put together, by sequencing, from a few basic steps: taking bytes, a
  string, a count, a constant, and refusals that point at no place of the input.  What holds of these and
  passes through sequencing holds of every reader.  `StepLaw` lists what has to be shown of a property,
  and the theorems under it walk through the readers once, for all such properties.  `FunctionLaw` leaves
  out the refusals of a header, which no function makes.

  Strings, counts and constants are basic steps of a law although they are sequences themselves: they
  remember where they started, and name that place when they refuse.  `Sequential` is the part of a law
  that knows nothing of refusals, and says what a string or a constant is once its start is fixed.

  A function is read in three parts: what stands before the functions nested in it (`opening`), these
  functions one after another, and what stands behind them (`closing`).  Only the middle part depends on
  how deep functions may nest.
-/
import LuaBytecode.Chunk.Loader

namespace LuaBytecode

/-- What is refused without pointing at a place: a header, a nesting beyond the limit, and line numbers
    that are there but are not one per instruction. -/
def LoadError.Placeless (limit : Nat) : LoadError → Prop
  | .nestingTooDeep l => l = limit
  | .lineInfoMismatch code lineInfo => lineInfo ≠ 0 ∧ lineInfo ≠ code
  | e => e.isHeaderError = true

/-- Errors of the header speak of no place. -/
theorem LoadError.placeless_of_isHeaderError {e : LoadError} (limit : Nat) (he : e.isHeaderError = true) :
    e.Placeless limit := by
  cases e with
  | nestingTooDeep | lineInfoMismatch => cases he
  | _ => exact he

/-- The tags that announce a constant. -/
def Format.constantTags : List UInt8 :=
  [nilTag, booleanTag, integerTag, numberTag, shortStringTag, longStringTag]

namespace ReadM

/-! ## Sequences of steps of fixed width -/

/-- A property of steps that holds of steps of fixed width and passes through sequencing. -/
structure Sequential (P : {α : Type} → ReadM α → Prop) : Prop where
  pure {α : Type} (x : α) : P (Pure.pure x : ReadM α)
  bind {α β : Type} {m : ReadM α} {f : α → ReadM β} : P m → (∀ x, P (f x)) → P (m >>= f)
  take (n : Nat) (item : Item) : P (take n item)
  byte : P byte

/-- A string that starts at the given place. -/
def stringFrom (start : Nat) : ReadM Bytes := do
  let size ← byte
  if size = 0 then
    return []
  else if size = Format.longSizeMark then
    let size ← word64
    require (size ≠ 0) (.unexpectedEnd .string start)
    stringOfSize size.toNat
  else stringOfSize size.toNat

/-- The place where a string starts is remembered for its error. -/
theorem string_eq : string = position >>= stringFrom := rfl

/-- What a tag announces, the tag standing at the given place. -/
def announced (start : Nat) (tag : UInt8) : ReadM Value :=
  if tag = Format.nilTag then return .nil
  else if tag = Format.booleanTag then do
    let b ← byte
    return .bool (b != 0)
  else if tag = Format.integerTag then do
    let n ← integer
    return .int n
  else if tag = Format.numberTag then do
    let f ← number
    return .float f
  else if tag = Format.shortStringTag ∨ tag = Format.longStringTag then do
    let bytes ← string
    return .str bytes
  else throw (.unknownConstantTag tag start)

/-- The place where a constant starts is remembered for its error. -/
theorem constant_eq : constant = position >>= fun start => byte >>= announced start := rfl

/-! ## A function around the functions nested in it -/

/-- What is known of a function when the functions nested in it are about to be read: all of it but its
    line numbers and names, and how many functions follow. -/
structure Opening where
  head : FunctionBody
  childCount : Nat

/-- A function up to the functions nested in it. -/
def opening (parent : String) : ReadM Opening := do
  let ownSource ← name
  let source := if ownSource = "" then parent else ownSource
  let firstLine ← word32
  let lastLine ← word32
  let parameterCount ← byte
  let varargFlag ← byte
  let slotCount ← byte
  let code ← segment .code instruction
  let constants ← segment .constants constant
  let upvalues ← segment .upvalues upvalue
  let childCount ← count .prototypes
  return ⟨{ source, firstLine, lastLine, parameterCount, varargFlag, slotCount, code, constants, upvalues,
            lineInfo := [], localVariables := [], upvalueNames := [] }, childCount⟩

/-- A function from behind the functions nested in it to its end. -/
def closing (o : Opening) (children : List Prototype) : ReadM Prototype := do
  let lineInfo ← segment .lineInfo word32
  require (lineInfo = [] ∨ lineInfo.length = o.head.code.length)
    (.lineInfoMismatch o.head.code.length lineInfo.length)
  let localVariables ← segment .localVariables localVariable
  let upvalueNames ← segment .upvalueNames name
  return .node { o.head with lineInfo, localVariables, upvalueNames } children

/-- **A function is what opens it, the functions nested in it, and what closes it.**  The recursion is in
    the middle and nowhere else. -/
theorem prototypeBody_eq (child : String → ReadM Prototype) (parent : String) :
    prototypeBody child parent = (do
      let o ← opening parent
      let children ← times (child o.head.source) o.childCount
      closing o children) := by
  simp only [prototypeBody, opening, closing, segment, bind_assoc, pure_bind]

namespace Sequential

variable {P : {α : Type} → ReadM α → Prop} {α β : Type} {m : ReadM α}

theorem map (seq : Sequential P) (hm : P m) (f : α → β) : P (m >>= fun x => Pure.pure (f x)) :=
  seq.bind hm fun x => seq.pure (f x)

theorem fmap (seq : Sequential P) (hm : P m) (f : α → β) : P (f <$> m) := by
  rw [map_eq_pure_bind]
  exact seq.map hm f

theorem word32 (seq : Sequential P) : P word32 := seq.map (seq.take 4 .word32) _

theorem word64 (seq : Sequential P) : P word64 := seq.map (seq.take 8 .word64) _

/-- A requirement is an error or nothing. -/
theorem require_of_throw (seq : Sequential P) {p : Prop} [Decidable p] {e : LoadError}
    (h : ¬ p → P (throw e : ReadM Unit)) : P (require p e) := by
  unfold ReadM.require
  split
  · exact seq.pure ()
  · rename_i hp
    exact h hp

/-- By induction on the number of repetitions. -/
theorem times (seq : Sequential P) (hm : P m) (n : Nat) : P (times m n) := by
  induction n with
  | zero => exact seq.pure []
  | succ n ih => exact seq.bind hm fun x => seq.map ih (x :: ·)

/-- A string is made of the two basic steps and of one error of its own. -/
theorem stringFrom (seq : Sequential P) {start : Nat}
    (h : P (throw (.unexpectedEnd .string start) : ReadM Unit)) : P (stringFrom start) := by
  refine seq.bind seq.byte fun size => ?_
  split
  · exact seq.pure []
  · split
    · exact seq.bind seq.word64 fun n => seq.bind (seq.require_of_throw fun _ => h) fun _ => seq.take _ _
    · exact seq.take _ _

/-- What a tag announces is made of the basic steps, unless the tag is unknown. -/
theorem announced (seq : Sequential P) {start : Nat} {tag : UInt8} (hstring : P string)
    (h : tag ∉ Format.constantTags → P (throw (.unknownConstantTag tag start) : ReadM Value)) :
    P (announced start tag) := by
  unfold ReadM.announced
  split
  · exact seq.pure Value.nil
  · split
    · exact seq.map seq.byte _
    · split
      · exact seq.map (seq.map seq.word64 _) _
      · split
        · exact seq.map (seq.map seq.word64 _) _
        · split
          · exact seq.map hstring _
          · -- the tag is none of those that were asked for
            rename_i hnil hboolean hinteger hnumber hstrings
            exact h (by simp [Format.constantTags, hnil, hboolean, hinteger, hnumber, hstrings])

end Sequential

/-! ## Laws -/

/-- A property of steps that holds of the basic steps of a function and passes through sequencing. -/
structure FunctionLaw (limit : Nat) (P : {α : Type} → ReadM α → Prop) : Prop extends Sequential P where
  refuse {α : Type} {e : LoadError} : e.Placeless limit → e.isHeaderError = false → P (throw e : ReadM α)
  string : P string
  count (s : Segment) : P (count s)
  constant : P constant

/-- A property of steps that holds of all basic steps and passes through sequencing. -/
structure StepLaw (limit : Nat) (P : {α : Type} → ReadM α → Prop) : Prop extends FunctionLaw limit P where
  refuseHeader {α : Type} {e : LoadError} : e.isHeaderError = true → P (throw e : ReadM α)

namespace FunctionLaw

variable {limit : Nat} {P : {α : Type} → ReadM α → Prop} {α : Type} {m : ReadM α}

theorem name (law : FunctionLaw limit P) : P name := law.map law.string _

/-- A segment is a count and repetition. -/
theorem segment (law : FunctionLaw limit P) (s : Segment) (hm : P m) : P (segment s m) :=
  law.bind (law.count s) fun n => law.times hm n

theorem instruction (law : FunctionLaw limit P) : P instruction := law.map law.word32 _

theorem upvalue (law : FunctionLaw limit P) : P upvalue :=
  law.bind law.byte fun inStack => law.map law.byte (Upvalue.mk inStack)

theorem localVariable (law : FunctionLaw limit P) : P localVariable :=
  law.bind law.name fun name => law.bind law.word32 fun startPc =>
    law.map law.word32 (LocalVariable.mk name startPc)

/-! ## Functions -/

/-- All that precedes the nested functions, step by step. -/
theorem opening (law : FunctionLaw limit P) (parent : String) : P (opening parent) := by
  refine law.bind law.name fun own => ?_
  refine law.bind law.word32 fun firstLine => law.bind law.word32 fun lastLine => ?_
  refine law.bind law.byte fun parameterCount => law.bind law.byte fun varargFlag =>
    law.bind law.byte fun slotCount => ?_
  refine law.bind (law.segment .code law.instruction) fun code => ?_
  refine law.bind (law.segment .constants law.constant) fun constants => ?_
  refine law.bind (law.segment .upvalues law.upvalue) fun upvalues => ?_
  exact law.map (law.count .prototypes) _

/-- All that follows them, with the one requirement that a function makes. -/
theorem closing (law : FunctionLaw limit P) (o : Opening) (children : List Prototype) :
    P (closing o children) := by
  refine law.bind (law.segment .lineInfo law.word32) fun lineInfo => ?_
  have hlines : ¬ (lineInfo = [] ∨ lineInfo.length = o.head.code.length) →
      (LoadError.lineInfoMismatch o.head.code.length lineInfo.length).Placeless limit := by
    intro h
    exact ⟨fun hzero => h (.inl (List.eq_nil_of_length_eq_zero hzero)), fun hsame => h (.inr hsame)⟩
  refine law.bind (law.require_of_throw fun h => law.refuse (hlines h) rfl) fun _ => ?_
  refine law.bind (law.segment .localVariables law.localVariable) fun localVariables => ?_
  exact law.map (law.segment .upvalueNames law.name) _

/-- One level, if the step for the next level has the property. -/
theorem prototypeBody (law : FunctionLaw limit P) {child : String → ReadM Prototype}
    (hchild : ∀ source, P (child source)) (parent : String) : P (prototypeBody child parent) := by
  rw [prototypeBody_eq]
  refine law.bind (law.opening parent) fun o => ?_
  exact law.bind (law.times (hchild _) o.childCount) fun children => law.closing o children

/-- All levels, by induction on those that may still be opened. -/
theorem prototype (law : FunctionLaw limit P) (room : Nat) (parent : String) :
    P (prototype limit room parent) := by
  induction room generalizing parent with
  | zero => exact law.refuse rfl rfl
  | succ room ih => exact law.prototypeBody ih parent

end FunctionLaw

/-! ## Header -/

namespace StepLaw

variable {limit : Nat} {P : {α : Type} → ReadM α → Prop}

/-- The requirements of the header fail with errors of the header. -/
theorem require (law : StepLaw limit P) {p : Prop} [Decidable p] {e : LoadError}
    (he : e.isHeaderError = true) : P (require p e) :=
  law.require_of_throw fun _ => law.refuseHeader he

/-- By induction on the fields. -/
theorem sizeFields (law : StepLaw limit P) (fields : List SizeField) : P (sizeFields fields) := by
  induction fields with
  | nil => exact law.pure ()
  | cons field rest ih =>
    exact law.bind law.byte fun found => law.bind (law.require rfl) fun _ => ih

/-- The sample may fail in two ways, and both are errors of the header. -/
theorem sampleNumber (law : StepLaw limit P) : P sampleNumber := by
  refine law.bind (law.take 8 .word64) fun stored => ?_
  split
  · exact law.pure ()
  · split
    · exact law.refuseHeader rfl
    · exact law.refuseHeader rfl

/-- All fields of the header, one after another. -/
theorem header (law : StepLaw limit P) : P header := by
  refine law.bind (law.take 4 .signature) fun _ => law.bind (law.require rfl) fun _ => ?_
  refine law.bind law.byte fun _ => law.bind (law.require rfl) fun _ => ?_
  refine law.bind law.byte fun _ => law.bind (law.require rfl) fun _ => ?_
  refine law.bind (law.take 6 .conversionCheck) fun _ => law.bind (law.require rfl) fun _ => ?_
  refine law.bind (law.sizeFields SizeField.all) fun _ => ?_
  refine law.bind (law.take 8 .word64) fun _ => law.bind (law.require rfl) fun _ => ?_
  exact law.sampleNumber

end StepLaw

end ReadM

end LuaBytecode
