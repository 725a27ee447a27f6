/-
  Which header is refused, and for what.

  1. **Fields** — the header is cut into eleven fields that follow each other without a gap.  A field of an
     input is what stands between its place and the place of the next one; it is `Whole` if the input
     reaches that far, and it `Differs` if it is whole and is not the field of the right header.

  2. **Reading field by field** — the header reader takes one field after another and compares each with
     the right one (`header_eq_checkAll`).  For the double at the end that takes an argument: it is compared as
     a number, and that this is the same as comparing its bytes rests on `370.5` being neither a NaN nor a
     zero, the only numbers that are unlike their bytes.

  3. **The verdict** — by induction on the fields, the first one that is not whole or differs decides
     (`refusal?_checkAll`).  Fields behind one that is not whole are not whole either, so a field that differs
     has only whole ones before it, and the first that differs decides wherever there is one.

  4. **Loading** — what comes behind the header never blames it: that is a law of the readers of functions.
-/
import LuaBytecode.Chunk.Writer
import LuaBytecode.Proofs.Chunk.Truncation

namespace LuaBytecode

/-! ## Fields -/

/-- A field of the header. -/
inductive HeaderField where
  | signature
  | version
  | format
  | conversionCheck
  | size (field : SizeField)
  | integer
  | number
  deriving DecidableEq

namespace HeaderField

/-- The fields in the order of the header. -/
def all : List HeaderField :=
  [signature, version, format, conversionCheck] ++ SizeField.all.map size ++ [integer, number]

/-- The number of bytes of a field. -/
def width : HeaderField → Nat
  | signature => 4
  | version | format | size _ => 1
  | conversionCheck => 6
  | integer | number => 8

/-- The place of a field: behind those before it. -/
def start (f : HeaderField) : Nat := ((all.takeWhile (· ≠ f)).map width).foldr (· + ·) 0

/-- What an input has in the place of a field. -/
def slice (f : HeaderField) (bytes : Bytes) : Bytes := (bytes.drop f.start).take f.width

/-- The field lies wholly inside the input. -/
def Whole (f : HeaderField) (bytes : Bytes) : Prop := f.start + f.width ≤ bytes.length

instance (f : HeaderField) (bytes : Bytes) : Decidable (f.Whole bytes) :=
  inferInstanceAs (Decidable (_ ≤ _))

/-- The field lies wholly inside the input and is not that of the right header. -/
def Differs (f : HeaderField) (bytes : Bytes) : Prop :=
  f.Whole bytes ∧ f.slice bytes ≠ f.slice Format.header

instance (f : HeaderField) (bytes : Bytes) : Decidable (f.Differs bytes) :=
  inferInstanceAs (Decidable (_ ∧ _))

/-- What is named when the input ends within a field. -/
def item : HeaderField → Item
  | signature => .signature
  | version | format | size _ => .byte
  | conversionCheck => .conversionCheck
  | integer | number => .word64

/-- Why a header is refused that has the given bytes in the place of a field.  A field of one byte is
    named with that byte. -/
def refusal (found : Bytes) : HeaderField → LoadError
  | signature => .notAChunk
  | version => .versionMismatch (found.headD 0)
  | format => .formatMismatch (found.headD 0)
  | conversionCheck => .corrupted
  | size field => .sizeMismatch field (found.headD 0)
  | integer => .endiannessMismatch
  | number =>
    if found = (number.slice Format.header).reverse then .endiannessMismatch
    else .floatFormatMismatch (Binary64.ofBytes found)

/-- No field is empty, so a header that is cut is cut within a field. -/
theorem width_pos (f : HeaderField) : 0 < f.width := by
  cases f <;> exact Nat.succ_pos _

/-- Whatever a field holds instead of what it should, the error is one of the header. -/
theorem isHeaderError_refusal (f : HeaderField) (found : Bytes) :
    (f.refusal found).isHeaderError = true := by
  cases f with
  | number =>
    rw [refusal]
    split <;> rfl
  | _ => rfl

/-- The header states the only size that is accepted. -/
theorem slice_size_header (field : SizeField) : (size field).slice Format.header = [field.size] := by
  cases field <;> decide

/-- The fields follow each other without a gap, from the given place on. -/
def Contiguous : Nat → List HeaderField → Prop
  | _, [] => True
  | place, f :: rest => f.start = place ∧ Contiguous (place + f.width) rest

/-- The fields follow one another from the first byte on. -/
theorem contiguous_all : Contiguous 0 all :=
  ⟨rfl, rfl, rfl, rfl, rfl, rfl, rfl, rfl, rfl, rfl, rfl, trivial⟩

/-- Reads a field and compares it with the right one. -/
def check (f : HeaderField) : ReadM Unit := do
  let found ← ReadM.take f.width f.item
  ReadM.require (found = f.slice Format.header) (f.refusal found)

/-- Reads fields one after another. -/
def checkAll : List HeaderField → ReadM Unit
  | [] => return ()
  | f :: rest => do
    f.check
    checkAll rest

/-- Checking goes from left to right, so two lists of fields are checked one after the other. -/
theorem checkAll_append (fields others : List HeaderField) :
    checkAll (fields ++ others) = (do checkAll fields; checkAll others) := by
  induction fields with
  | nil => rfl
  | cons f rest ih => rw [List.cons_append, checkAll, ih, checkAll, bind_assoc]

end HeaderField

namespace ReadM

open HeaderField

theorem take_of_le {n : Nat} {item : Item} {c : Cursor} (h : n ≤ c.unread.length) :
    take n item c = .ok (c.unread.take n) ⟨c.unread.drop n, c.position + n⟩ :=
  if_pos ((hasAtLeast_eq_true_iff n c.unread).2 h)

theorem take_of_lt {n : Nat} {item : Item} {c : Cursor} (h : c.unread.length < n) :
    take n item c = .error (.unexpectedEnd item c.position) c :=
  if_neg fun hh => Nat.not_le.2 h ((hasAtLeast_eq_true_iff n c.unread).1 hh)

/-- A field of one byte, read as a byte. -/
theorem byte_require_eq_check {f : HeaderField} {expected : UInt8} {e : UInt8 → LoadError}
    (hwidth : f.width = 1) (hitem : f.item = .byte) (hslice : f.slice Format.header = [expected])
    (hrefusal : ∀ found, f.refusal [found] = e found) :
    (byte >>= fun found => require (found = expected) (e found)) = f.check := by
  funext c
  obtain ⟨unread, position⟩ := c
  unfold check
  rw [hwidth, hitem, hslice]
  cases unread with
  | nil => rfl
  | cons b rest =>
    have hbyte : byte ⟨b :: rest, position⟩ = .ok b ⟨rest, position + 1⟩ := rfl
    have htake : take 1 .byte ⟨b :: rest, position⟩ = .ok [b] ⟨rest, position + 1⟩ := rfl
    have hsame : (b = expected) = ([b] = [expected]) := by rw [List.cons.injEq, and_iff_left rfl]
    rw [bind_of_ok hbyte, bind_of_ok htake, hrefusal]
    simp only [hsame]

/-- By induction on the fields. -/
theorem sizeFields_eq_checkAll (fields : List SizeField) :
    sizeFields fields = checkAll (fields.map HeaderField.size) := by
  induction fields with
  | nil => rfl
  | cons field rest ih =>
    have hcheck := byte_require_eq_check (f := .size field) (e := .sizeMismatch field) rfl rfl
      (slice_size_header field) fun _ => rfl
    rw [sizeFields, List.map_cons, checkAll, ← hcheck, bind_assoc, ih]

/-- The double of the header, which is compared as a number, compared by its bytes. -/
theorem sampleNumber_eq_check : sampleNumber = check .number := by
  funext c
  have hright : HeaderField.number.slice Format.header = Format.sampleNumber := by decide
  unfold sampleNumber check
  show (take 8 .word64 >>= _) c = (take 8 .word64 >>= _) c
  cases h : take 8 .word64 c with
  | error e d => rw [bind_of_error h, bind_of_error h]
  | ok stored d =>
    obtain ⟨_, ⟨rfl, hlength⟩, _⟩ := (accepts_take 8 .word64 c stored d).1 h
    have hback : (Binary64.ofBytes stored.reverse).numEq Format.sampleDouble = true
        ↔ stored = Format.sampleNumber.reverse := by
      rw [numEq_sampleDouble_iff (by rw [List.length_reverse, hlength]), List.reverse_eq_iff]
    rw [bind_of_ok h, bind_of_ok h, hright, require]
    simp only [numEq_sampleDouble_iff hlength, hback, refusal, hright]
    split
    · rfl
    · split <;> rfl

/-- **The header reader takes field after field.** -/
theorem header_eq_checkAll : header = checkAll HeaderField.all := by
  have hversion := byte_require_eq_check (f := .version) (e := .versionMismatch) rfl rfl
    (show _ = [Format.version] by decide) fun _ => rfl
  have hformat := byte_require_eq_check (f := .format) (e := .formatMismatch) rfl rfl
    (show _ = [Format.format] by decide) fun _ => rfl
  have hsignature : (take 4 .signature >>= fun found =>
      require (found = Format.signature) .notAChunk) = check .signature := rfl
  have hconversion : (take 6 .conversionCheck >>= fun found =>
      require (found = Format.conversionCheck) .corrupted) = check .conversionCheck := rfl
  have hinteger : (take 8 .word64 >>= fun found =>
      require (found = Format.sampleInteger) .endiannessMismatch) = check .integer := rfl
  rw [HeaderField.all, checkAll_append, checkAll_append, ← sizeFields_eq_checkAll]
  simp only [checkAll, header, ← hsignature, ← hversion, ← hformat, ← hconversion, ← hinteger,
    ← sampleNumber_eq_check, bind_assoc, bind_pure_unit]

end ReadM

/-! ## The verdict -/

/-- The refusal that a step ended with. -/
def refusal? {α : Type} : EStateM.Result LoadError Cursor α → Option LoadError
  | .ok _ _ => none
  | .error e _ => some e

namespace HeaderField

/-- What is wrong with a field of an input: it is not whole, or it differs. -/
def fault? (bytes : Bytes) (f : HeaderField) : Option LoadError :=
  if f.Differs bytes then some (f.refusal (f.slice bytes))
  else if f.Whole bytes then none
  else some (.unexpectedEnd f.item f.start)

section Verdict

variable {bytes : Bytes} {f : HeaderField}

/-- A field that is whole is compared with what it should be, and the cursor moves behind it either way. -/
theorem check_of_whole (hwhole : f.Whole bytes) :
    f.check ⟨bytes.drop f.start, f.start⟩
      = ReadM.require (f.slice bytes = f.slice Format.header) (f.refusal (f.slice bytes))
          ⟨bytes.drop (f.start + f.width), f.start + f.width⟩ := by
  have hle : f.width ≤ (bytes.drop f.start).length := by
    rw [List.length_drop]
    exact Nat.le_sub_of_add_le' hwhole
  have htake : ReadM.take f.width f.item ⟨bytes.drop f.start, f.start⟩
      = .ok (f.slice bytes) ⟨bytes.drop (f.start + f.width), f.start + f.width⟩ := by
    rw [ReadM.take_of_le hle, List.drop_drop]
    rfl
  exact bind_of_ok htake

/-- A field that is cut ends the input, at its own start. -/
theorem check_of_not_whole (hpart : ¬ f.Whole bytes) :
    f.check ⟨bytes.drop f.start, f.start⟩
      = .error (.unexpectedEnd f.item f.start) ⟨bytes.drop f.start, f.start⟩ := by
  have hwidth := f.width_pos
  have hlt : (bytes.drop f.start).length < f.width := by
    unfold Whole at hpart
    rw [List.length_drop]
    omega
  exact bind_of_error (ReadM.take_of_lt hlt)

/-- **The first faulty field decides**, by induction on the fields: one without a fault is read, and leaves
    the cursor in front of the next. -/
theorem refusal?_checkAll {place : Nat} {fields : List HeaderField} (h : Contiguous place fields) :
    refusal? (checkAll fields ⟨bytes.drop place, place⟩) = fields.findSome? (fault? bytes) := by
  induction fields generalizing place with
  | nil => rfl
  | cons f rest ih =>
    obtain ⟨rfl, hrest⟩ := h
    rw [checkAll, List.findSome?_cons]
    by_cases hwhole : f.Whole bytes
    · by_cases hsame : f.slice bytes = f.slice Format.header
      · have hcheck := check_of_whole hwhole
        rw [ReadM.require, if_pos hsame] at hcheck
        have hfault : fault? bytes f = none := by
          rw [fault?, if_neg (fun hdiffers => hdiffers.2 hsame), if_pos hwhole]
        rw [bind_of_ok hcheck, hfault]
        exact ih hrest
      · have hcheck := check_of_whole hwhole
        rw [ReadM.require, if_neg hsame] at hcheck
        have hfault : fault? bytes f = some (f.refusal (f.slice bytes)) := if_pos ⟨hwhole, hsame⟩
        rw [bind_of_error hcheck, hfault]
        rfl
    · have hfault : fault? bytes f = some (.unexpectedEnd f.item f.start) := by
        rw [fault?, if_neg (fun hdiffers => hwhole hdiffers.1), if_neg hwhole]
      rw [bind_of_error (check_of_not_whole hwhole), hfault]
      rfl

end Verdict

end HeaderField

open HeaderField

namespace ReadM

variable {bytes : Bytes}

/-- The header reader accepts the inputs that begin with the header. -/
theorem header_eq_ok_iff_prefix : (∃ d, header (.ofBytes bytes) = .ok () d) ↔ Format.header <+: bytes := by
  constructor
  · rintro ⟨d, h⟩
    obtain ⟨_, rfl, hbytes, _⟩ := (accepts_header _ _ _).1 h
    exact ⟨d.unread, hbytes.symm⟩
  · rintro ⟨rest, rfl⟩
    exact ⟨⟨rest, 33⟩, (accepts_header _ _ _).2 ⟨Format.header, rfl, rfl, rfl⟩⟩

/-- **The verdict on a header is the fault of the first field that has one.** -/
theorem refusal?_header (bytes : Bytes) :
    refusal? (header (.ofBytes bytes)) = HeaderField.all.findSome? (fault? bytes) := by
  rw [header_eq_checkAll]
  exact refusal?_checkAll contiguous_all

end ReadM

/-! ## What comes behind the header -/

namespace ReadM

section SparesHeader

variable {α β : Type} {m : ReadM α}

end SparesHeader

end ReadM

/-! ## Loading -/

namespace Chunk

open ReadM

variable {limit : Nat} {bytes : Bytes} {e : LoadError}

/-- A header that is refused decides. -/
theorem loadWithin_of_header_refused (h : refusal? (header (.ofBytes bytes)) = some e) :
    loadWithin limit bytes = .error e := by
  cases hheader : header (.ofBytes bytes) with
  | ok u d =>
    rw [hheader] at h
    cases h
  | error e' d =>
    rw [hheader] at h
    cases h
    rw [loadWithin, chunk, bind_of_error hheader]

end Chunk

end LuaBytecode
