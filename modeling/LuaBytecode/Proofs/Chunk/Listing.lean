/-
  The lines of a listing.

  A listing is read line by line, so what a chunk puts into it must not add lines of its own.  String constants
  are arbitrary bytes, but they are shown quoted, and a quoted text is of one line; numbers, booleans, nil and
  the text of an instruction, known or not, are of one line by what they are made of.  That leaves the texts that
  are shown as they stand: the source, the names of locals and the names of upvalues.

  If those are of one line, a listing falls into its lines again: a block for each function, the functions in
  preorder, and in each block one line for each instruction, constant, local and upvalue, each section behind an
  announcement of exactly as many lines as follow it.
-/
import LuaBytecode.Chunk.Listing
import LuaBytecode.Proofs.Chunk.Tree
import LuaBytecode.Proofs.Instruction.Text
import LuaBytecode.Proofs.Text.Lines

namespace LuaBytecode

/-- What is shown as it stands is of one line, and the position after either end of a local's life is a word. -/
structure FunctionBody.Listable (f : FunctionBody) : Prop where
  source : OneLine f.source
  locals : ∀ v ∈ f.localVariables, OneLine v.name ∧ v.startPc.toNat < 2 ^ 32 - 1 ∧ v.endPc.toNat < 2 ^ 32 - 1
  upvalueNames : ∀ name ∈ f.upvalueNames, OneLine name

instance (f : FunctionBody) : Decidable f.Listable :=
  decidable_of_iff
    (OneLine f.source ∧
      (∀ v ∈ f.localVariables, OneLine v.name ∧ v.startPc.toNat < 2 ^ 32 - 1 ∧ v.endPc.toNat < 2 ^ 32 - 1) ∧
      ∀ name ∈ f.upvalueNames, OneLine name)
    ⟨fun h => ⟨h.1, h.2.1, h.2.2⟩, fun h => ⟨h.source, h.locals, h.upvalueNames⟩⟩

/-- The number of lines that a function takes: the blank one, two headers, three announcements, and one for each
    thing listed. -/
def FunctionBody.lineCount (f : FunctionBody) : Nat :=
  6 + f.code.length + f.constants.length + f.localVariables.length + f.upvalues.length

namespace Instruction

/-- Operands are numbers parted by blanks, behind a tab. -/
theorem oneLine_operandsText (xs : List Int) : OneLine (operandsText xs) := by
  cases xs with
  | nil => decide
  | cons x rest =>
    have hrest : OneLine (furtherOperands rest) := by
      apply oneLine_join
      intro part hpart
      obtain ⟨y, -, rfl⟩ := List.mem_map.1 hpart
      exact oneLine_append.2 ⟨by decide, oneLine_integerText y⟩
    exact oneLine_append.2 ⟨oneLine_append.2 ⟨by decide, oneLine_integerText x⟩, hrest⟩

/-- The text of an instruction is of one line, also if the code is unknown. -/
theorem oneLine_instructionText (i : Instruction) : OneLine i.text := by
  unfold text
  split
  · rename_i op hop
    exact oneLine_append.2 ⟨not_mem_padMnemonic op (by decide) (by decide), oneLine_operandsText i.operands⟩
  · exact oneLine_append.2 ⟨oneLine_append.2 ⟨by decide, oneLine_naturalText i.code⟩, by decide⟩

end Instruction

namespace Listing

@[simp] theorem row_nil : row [] = "" := rfl

@[simp] theorem row_cons (c : String) (columns : List String) : row (c :: columns) = "\t" ++ c ++ row columns := by
  rw [row, List.map_cons, String.join_cons, row]

/-- The line number is a dash where there is none. -/
theorem instructionLine_eq (f : FunctionBody) (pc : Nat) (i : Instruction) :
    instructionLine f pc i =
      row [naturalText (pc + 1), "[" ++ (f.lineAt? pc).elim "-" (fun n => naturalText n.toNat) ++ "]", i.text] := by
  unfold instructionLine
  cases f.lineAt? pc with
  | none => rfl
  | some n => rfl

/-! ## Every line is of one line -/

section OneLine

variable {f : FunctionBody}

@[simp] theorem oneLine_plural (n : Nat) : OneLine (plural n) := by
  unfold plural
  split
  · decide
  · decide

@[simp] theorem oneLine_counted {n : Nat} {noun : String} : OneLine (counted n noun) ↔ OneLine noun := by
  simp +decide only [counted, oneLine_append, oneLine_naturalText, oneLine_plural, true_and, and_true]

/-- Of the source, all but the mark is shown, or a fixed text. -/
theorem oneLine_sourceText {source : String} (h : OneLine source) : OneLine (sourceText source) := by
  have hrest {mark : Char} {rest : List Char} (hsource : source.toList = mark :: rest) :
      OneLine (String.ofList rest) := by
    unfold OneLine at h ⊢
    rw [hsource, List.mem_cons, not_or] at h
    rw [String.toList_ofList]
    exact h.2
  unfold sourceText
  split
  · exact hrest ‹_›
  · exact hrest ‹_›
  · decide
  · decide

/-- Of the texts of a chunk only the source is in the title. -/
theorem oneLine_titleLine (h : f.Listable) : OneLine (titleLine f) := by
  have hkind : OneLine (if f.isMain then "main" else "function") := by
    split
    · decide
    · decide
  simp +decide only [titleLine, oneLine_append, oneLine_naturalText, oneLine_counted, hkind,
    oneLine_sourceText h.source]

/-- The summary holds none of the texts of a chunk. -/
theorem oneLine_summaryLine (f : FunctionBody) (childCount : Nat) : OneLine (summaryLine f childCount) := by
  have hmark : OneLine (if f.hasVarargs then "+" else "") := by
    split
    · decide
    · decide
  simp +decide only [summaryLine, oneLine_append, oneLine_naturalText, oneLine_plural, oneLine_counted, hmark]

/-- Neither does the line of an instruction, whose text is made of its word. -/
theorem oneLine_instructionLine (f : FunctionBody) (pc : Nat) (i : Instruction) :
    OneLine (instructionLine f pc i) := by
  have hline : OneLine ((f.lineAt? pc).elim "-" fun n => naturalText n.toNat) := by
    cases f.lineAt? pc with
    | none => decide
    | some n => exact oneLine_naturalText n.toNat
  simp +decide only [instructionLine_eq, row_cons, row_nil, oneLine_append, oneLine_naturalText, hline,
    i.oneLine_instructionText]

/-- A constant is of one line, whatever bytes it holds. -/
theorem oneLine_constantText (v : Value) : OneLine (constantText v) := by
  cases v with
  | nil => decide
  | bool b => cases b <;> decide
  | int n => exact oneLine_integerText n.toInt
  | float x => exact oneLine_text x
  | str bytes => exact oneLine_encode (Utf8.decode bytes)

theorem oneLine_constantLine (k : Nat) (v : Value) : OneLine (constantLine k v) := by
  simp +decide only [constantLine, row_cons, row_nil, oneLine_append, oneLine_naturalText, oneLine_constantText]

/-- A local is shown with its name as it stands. -/
theorem oneLine_localLine (k : Nat) {v : LocalVariable} (h : OneLine v.name) : OneLine (localLine k v) := by
  simp +decide only [localLine, row_cons, row_nil, oneLine_append, oneLine_naturalText, h]

/-- An upvalue without a name is shown with a dash. -/
theorem oneLine_upvalueLine (h : f.Listable) (k : Nat) (u : Upvalue) : OneLine (upvalueLine f k u) := by
  have hname : OneLine (f.upvalueNames[k]?.getD "-") := by
    cases hk : f.upvalueNames[k]? with
    | none => decide
    | some name => exact h.upvalueNames name (List.mem_of_getElem? hk)
  simp +decide only [upvalueLine, row_cons, row_nil, oneLine_append, oneLine_naturalText, hname]

theorem oneLine_announcement {title : String} (h : OneLine title) (n : Nat) : OneLine (announcement title n) := by
  simp +decide only [announcement, oneLine_append, oneLine_naturalText, h]

/-- A section is of one-line lines if each of its items is. -/
theorem oneLine_of_mem_mapIdx {α : Type} {items : List α} {line : Nat → α → String}
    (h : ∀ k, ∀ x ∈ items, OneLine (line k x)) : ∀ l ∈ items.mapIdx line, OneLine l := by
  intro l hl
  obtain ⟨k, hk, rfl⟩ := List.mem_mapIdx.1 hl
  exact h k _ (List.getElem_mem hk)

/-- **Every line of a function is of one line.** -/
theorem oneLine_of_mem_bodyLines (h : f.Listable) (childCount : Nat) : ∀ l ∈ bodyLines f childCount, OneLine l := by
  have hcode := oneLine_of_mem_mapIdx fun k (i : Instruction) (_ : i ∈ f.code) => oneLine_instructionLine f k i
  have hconstants := oneLine_of_mem_mapIdx fun k (v : Value) (_ : v ∈ f.constants) => oneLine_constantLine k v
  have hlocals := oneLine_of_mem_mapIdx fun k v (hv : v ∈ f.localVariables) => oneLine_localLine k (h.locals v hv).1
  have hupvalues := oneLine_of_mem_mapIdx fun k (u : Upvalue) (_ : u ∈ f.upvalues) => oneLine_upvalueLine h k u
  intro l hl
  simp only [bodyLines, List.mem_append, List.mem_cons, List.not_mem_nil, or_false] at hl
  -- blank line and headers, the code, and three sections behind their announcements
  rcases hl with ((((rfl | rfl | rfl) | hl) | rfl | hl) | rfl | hl) | rfl | hl
  · decide
  · exact oneLine_titleLine h
  · exact oneLine_summaryLine f childCount
  · exact hcode l hl
  · exact oneLine_announcement (by decide) _
  · exact hconstants l hl
  · exact oneLine_announcement (by decide) _
  · exact hlocals l hl
  · exact oneLine_announcement (by decide) _
  · exact hupvalues l hl

end OneLine

/-! ## The shape of a listing -/

/-- The listing of one function, by its sections. -/
structure Block where
  title : String
  summary : String
  instructions : List String
  constants : List String
  locals : List String
  upvalues : List String

/-- The lines of a block.  Every section after the code announces the number of lines that follow. -/
def Block.lines (b : Block) : List String :=
  "" :: b.title :: b.summary :: b.instructions
    ++ ("constants (" ++ naturalText b.constants.length ++ "):") :: b.constants
    ++ ("locals (" ++ naturalText b.locals.length ++ "):") :: b.locals
    ++ ("upvalues (" ++ naturalText b.upvalues.length ++ "):") :: b.upvalues

/-- One line for each item: a tab, its number counted from `first`, a tab, and what is shown of it. -/
structure Numbered {α : Type} (first : Nat) (content : Nat → α → String) (items : List α)
    (ls : List String) : Prop where
  length_eq : ls.length = items.length
  line : ∀ k x, items[k]? = some x → ls[k]? = some ("\t" ++ naturalText (first + k) ++ "\t" ++ content k x)

/-- A number of things: one of them, or so many in the plural. -/
def quantity (n : Nat) (noun : String) : String :=
  if n = 1 then "1 " ++ noun else naturalText n ++ " " ++ noun ++ "s"

/-- How a source is referred to: by what follows its mark, or by what it must be if it has none. -/
inductive SourceShown : String → String → Prop
  | file (name : String) : SourceShown ("@" ++ name) name
  | label (name : String) : SourceShown ("=" ++ name) name
  | binary (code : String) : SourceShown ("\x1b" ++ code) "binary string"
  | text {source : String} : (∀ mark ∈ source.toList.head?, mark ≠ '@' ∧ mark ≠ '=' ∧ mark ≠ '\x1b') →
    SourceShown source "string"

/-- What a block has to say of a function. -/
structure Block.Describes (b : Block) (q : Prototype) : Prop where
  title : ∃ shown, SourceShown q.body.source shown ∧
    b.title = (if q.body.firstLine = 0 then "main <" else "function <") ++ shown ++ ":"
      ++ naturalText q.body.firstLine.toNat ++ "," ++ naturalText q.body.lastLine.toNat ++ "> ("
      ++ quantity q.body.code.length "instruction" ++ ")"
  summary : b.summary = naturalText q.body.parameterCount.toNat ++ (if q.body.varargFlag = 0 then "" else "+")
    ++ (if q.body.parameterCount = 1 then " param, " else " params, ")
    ++ quantity q.body.slotCount.toNat "slot" ++ ", " ++ quantity q.body.upvalues.length "upvalue" ++ ", "
    ++ quantity q.body.localVariables.length "local" ++ ", "
    ++ quantity q.body.constants.length "constant" ++ ", " ++ quantity q.children.length "function"
  instructions : Numbered 1
    (fun k i => "[" ++ (q.body.lineAt? k).elim "-" (fun n => naturalText n.toNat) ++ "]\t" ++ i.text)
    q.body.code b.instructions
  constants : Numbered 1 (fun _ v => constantText v) q.body.constants b.constants
  locals : Numbered 0
    (fun _ v => v.name ++ "\t" ++ naturalText (v.startPc + 1).toNat ++ "\t" ++ naturalText (v.endPc + 1).toNat)
    q.body.localVariables b.locals
  upvalues : Numbered 0
    (fun k u => q.body.upvalueNames[k]?.getD "-" ++ "\t" ++ naturalText u.inStack.toNat ++ "\t"
      ++ naturalText u.index.toNat)
    q.body.upvalues b.upvalues

/-! ## The headers -/

/-- The plural ending is left out for one. -/
theorem counted_eq_quantity (n : Nat) (noun : String) : counted n noun = quantity n noun := by
  unfold counted quantity plural
  split
  · rename_i hone
    rw [hone, String.append_empty]
    rfl
  · rfl

/-- Case by case on the first character of the source. -/
theorem sourceShown_sourceText (source : String) : SourceShown source (sourceText source) := by
  have hmarked {mark : Char} {rest : List Char} (hsource : source.toList = mark :: rest) :
      source = String.singleton mark ++ String.ofList rest := by
    apply String.toList_injective
    simp [hsource]
  unfold sourceText
  split
  case h_1 rest hsource =>
    rw [hmarked hsource]
    exact .file (String.ofList rest)
  case h_2 rest hsource =>
    rw [hmarked hsource]
    exact .label (String.ofList rest)
  case h_3 rest hsource =>
    rw [hmarked hsource]
    exact .binary (String.ofList rest)
  case h_4 hfile hlabel hbinary =>
    refine .text fun mark hmark => ?_
    obtain ⟨rest, hsource⟩ := List.head?_eq_some_iff.1 hmark
    refine ⟨?_, ?_, ?_⟩
    · rintro rfl
      exact hfile rest hsource
    · rintro rfl
      exact hlabel rest hsource
    · rintro rfl
      exact hbinary rest hsource

/-- The title, spelt out. -/
theorem titleLine_eq (f : FunctionBody) :
    titleLine f = (if f.firstLine = 0 then "main <" else "function <") ++ sourceText f.source ++ ":"
      ++ naturalText f.firstLine.toNat ++ "," ++ naturalText f.lastLine.toNat ++ "> ("
      ++ quantity f.code.length "instruction" ++ ")" := by
  have hkind : (if f.isMain then "main" else "function") ++ " <"
      = if f.firstLine = 0 then "main <" else "function <" := by
    by_cases hmain : f.firstLine = 0
    · simp [FunctionBody.isMain, hmain]
    · simp [FunctionBody.isMain, hmain]
  rw [titleLine, hkind, counted_eq_quantity]

/-- The summary, spelt out.  The sign for variable arguments stands between the number of parameters and the
    word. -/
theorem summaryLine_eq (f : FunctionBody) (childCount : Nat) :
    summaryLine f childCount = naturalText f.parameterCount.toNat ++ (if f.varargFlag = 0 then "" else "+")
      ++ (if f.parameterCount = 1 then " param, " else " params, ")
      ++ quantity f.slotCount.toNat "slot" ++ ", " ++ quantity f.upvalues.length "upvalue" ++ ", "
      ++ quantity f.localVariables.length "local" ++ ", "
      ++ quantity f.constants.length "constant" ++ ", " ++ quantity childCount "function" := by
  have hmark : (if f.hasVarargs then "+" else "") = if f.varargFlag = 0 then "" else "+" := by
    by_cases hfixed : f.varargFlag = 0
    · simp [FunctionBody.hasVarargs, hfixed]
    · simp [FunctionBody.hasVarargs, hfixed]
  have hone : f.parameterCount.toNat = 1 ↔ f.parameterCount = 1 :=
    UInt8.toNat_inj (b := 1)
  have hparams (before : String) : before ++ " param" ++ plural f.parameterCount.toNat ++ ", "
      = before ++ if f.parameterCount = 1 then " param, " else " params, " := by
    unfold plural
    simp only [hone, String.append_assoc]
    split
    · rfl
    · rfl
  simp only [summaryLine, hmark, hparams, counted_eq_quantity]

/-! ## The sections -/

section Shape

variable {q : Prototype}

/-- A section that is listed item by item is numbered. -/
theorem numbered_mapIdx {α : Type} {first : Nat} {content line : Nat → α → String} {items : List α}
    (h : ∀ k, ∀ x ∈ items, line k x = "\t" ++ naturalText (first + k) ++ "\t" ++ content k x) :
    Numbered first content items (items.mapIdx line) where
  length_eq := List.length_mapIdx
  line k x hx := by rw [List.getElem?_mapIdx, hx, Option.map_some, h k x (List.mem_of_getElem? hx)]

/-- The block that is listed for a function. -/
def block (q : Prototype) : Block where
  title := titleLine q.body
  summary := summaryLine q.body q.children.length
  instructions := q.body.code.mapIdx (instructionLine q.body)
  constants := q.body.constants.mapIdx constantLine
  locals := q.body.localVariables.mapIdx localLine
  upvalues := q.body.upvalues.mapIdx (upvalueLine q.body)

/-- The block of a function has the lines that are listed for it. -/
theorem lines_block (q : Prototype) : (block q).lines = bodyLines q.body q.children.length := by
  simp [Block.lines, bodyLines, block, announcement]

/-- **The block of a function describes it.**  Only for locals something is asked of the function: the
    position after the last one does not fit a word. -/
theorem block_describes (h : q.body.Listable) : (block q).Describes q where
  title := ⟨_, sourceShown_sourceText q.body.source, titleLine_eq q.body⟩
  summary := summaryLine_eq q.body q.children.length
  instructions := by
    apply numbered_mapIdx
    intro k i _
    simp only [instructionLine_eq, row_cons, row_nil, String.append_assoc, String.append_empty, Nat.add_comm 1 k]
    -- the bracket and the tab after it are one literal on the right
    rfl
  constants := by
    apply numbered_mapIdx
    intro k v _
    simp only [constantLine, row_cons, row_nil, String.append_assoc, String.append_empty, Nat.add_comm 1 k]
  locals := by
    apply numbered_mapIdx
    intro k v hv
    obtain ⟨-, hstart, hend⟩ := h.locals v hv
    -- neither addition goes round
    have hsucc {w : UInt32} (hw : w.toNat < 2 ^ 32 - 1) : (w + 1).toNat = w.toNat + 1 := by
      rw [UInt32.toNat_add]
      show (w.toNat + 1) % 2 ^ 32 = w.toNat + 1
      exact Nat.mod_eq_of_lt (by omega)
    simp only [localLine, row_cons, row_nil, String.append_assoc, String.append_empty, Nat.zero_add, hsucc hstart,
      hsucc hend]
  upvalues := by
    apply numbered_mapIdx
    intro k u _
    simp only [upvalueLine, row_cons, row_nil, String.append_assoc, String.append_empty, Nat.zero_add]

/-- A block that describes a function has as many lines as the function takes. -/
theorem Block.Describes.length_lines {b : Block} (h : b.Describes q) : b.lines.length = q.body.lineCount := by
  simp only [Block.lines, FunctionBody.lineCount, List.length_append, List.length_cons, h.instructions.length_eq,
    h.constants.length_eq, h.locals.length_eq, h.upvalues.length_eq]
  omega

/-- **The functions are listed in preorder.** -/
theorem lines_eq_flatMap_preorder (p : Prototype) : lines p = p.preorder.flatMap fun q => (block q).lines := by
  induction p using Prototype.induction_on with
  | step f cs ih =>
    -- the root's own block, then all that is listed for the first child, and so on
    have hroot : lines (.node f cs) = (block (.node f cs)).lines ++ cs.flatMap lines := by
      rw [lines_block, lines, Prototype.fold_node, List.length_map]
      rfl
    rw [hroot, Prototype.preorder_node, List.flatMap_cons, List.flatMap_assoc, List.flatMap_congr ih]

/-- What holds of the lines of each function holds of all lines. -/
theorem oneLine_of_mem_lines {p : Prototype} (h : ∀ q ∈ p.preorder, q.body.Listable) : ∀ l ∈ lines p, OneLine l := by
  intro l hl
  rw [lines_eq_flatMap_preorder, List.mem_flatMap] at hl
  obtain ⟨q, hq, hl⟩ := hl
  rw [lines_block] at hl
  exact oneLine_of_mem_bodyLines (h q hq) q.children.length l hl

/-- The lines of a listing are counted function by function. -/
theorem length_lines {p : Prototype} (h : ∀ q ∈ p.preorder, q.body.Listable) :
    (lines p).length = (p.preorder.map fun q => q.body.lineCount).sum := by
  rw [lines_eq_flatMap_preorder, List.length_flatMap]
  congr 1
  apply List.map_congr_left
  intro q hq
  exact (block_describes (h q hq)).length_lines

end Shape

end Listing

open Listing

/-- **A listing falls into its lines.**  Whatever the code and the constants of the functions are, the listing has the
    line ends that the sizes of the functions call for, and what stands between them is one block for each
    function, in preorder, that describes the function. -/
theorem Prototype.listing_eq_blocks (p : Prototype) (h : ∀ q ∈ p.preorder, q.body.Listable) :
    p.listing.toList.count '\n' = (p.preorder.map fun q => q.body.lineCount).sum ∧
      ∃ blocks : List Block, List.Forall₂ Block.Describes blocks p.preorder ∧
        p.listing.toList.splitOn '\n' = (blocks.flatMap Block.lines).map String.toList ++ [[]] := by
  refine ⟨?_, p.preorder.map block, ?_, ?_⟩
  · rw [listing, count_join_lines (oneLine_of_mem_lines h), length_lines h]
  · show List.Forall₂ Block.Describes (p.preorder.map block) p.preorder
    rw [List.forall₂_map_left_iff, List.forall₂_same]
    intro q hq
    exact block_describes (h q hq)
  · rw [listing, splitOn_join_lines (oneLine_of_mem_lines h), lines_eq_flatMap_preorder, List.flatMap_map]

/-- A function inside another.  The outer one has an unknown code, one line number for two instructions, an upvalue
    without a name, and a string that would begin a section if its line ends were shown; the inner one has a string
    that is no UTF-8 and a local that lives to the last position. -/
def Listing.forgery : Prototype :=
  let outer : FunctionBody := {
    source := "@a.lua", firstLine := 0, lastLine := 0, parameterCount := 0, varargFlag := 1, slotCount := 2
    code := [⟨0x3f⟩, ⟨0x00800026⟩], constants := [.str "\n\nlocals (9):\n".toUTF8.toList, .float ⟨0x3ff8000000000000⟩]
    upvalues := [⟨1, 0⟩], lineInfo := [1], localVariables := [], upvalueNames := [] }
  let inner : FunctionBody := {
    source := "", firstLine := 3, lastLine := 4, parameterCount := 1, varargFlag := 0, slotCount := 2
    code := [⟨0x00800026⟩], constants := [.str [0xff, 0x0a]], upvalues := [], lineInfo := [4]
    localVariables := [⟨"x", 0, 0xfffffffe⟩], upvalueNames := [] }
  .node outer [.node inner []]

/-- The announcement that the constant spells is not among the lines of the listing, which are twenty as
    counted. -/
theorem Prototype.listing_eq_blocks_forgery :
    (∀ q ∈ forgery.preorder, q.body.Listable) ∧ forgery.listing.toList.count '\n' = 20 ∧
      ∃ blocks : List Block, List.Forall₂ Block.Describes blocks forgery.preorder ∧
        forgery.listing.toList.splitOn '\n' = (blocks.flatMap Block.lines).map String.toList ++ [[]] := by
  have h : ∀ q ∈ forgery.preorder, q.body.Listable := by decide
  obtain ⟨hcount, hblocks⟩ := forgery.listing_eq_blocks h
  exact ⟨h, hcount.trans (by decide), hblocks⟩

end LuaBytecode
