/-
  What a refusal says of the input, and that it is so.

  1. **Places** — a refusal for an unknown tag or for want of bytes names a place, counted from the start of
     the whole input however deep the reader was nested.  That its steps are `Located` says so from any
     cursor on; read from the first cursor it is a statement about the input itself.

  2. **Trailing bytes** — what is read before the check for them is a form of the grammar, so it can be cut
     off behind its end and loads by itself.  Thus trailing bytes are reported exactly of the inputs that
     begin with a chunk and go on, and as many as there are.

  3. **Header** — a header that is refused is refused for one of its fields, or for want of bytes.  Any other
     refusal comes from behind it, and then the input begins with the right header.
-/
import LuaBytecode.Proofs.Chunk.HeaderVerdict

namespace LuaBytecode

namespace ReadM

variable {limit : Nat} {bytes : Bytes}

/-- A chunk, whatever comes behind it, is the header, a byte and the main function. -/
theorem accepts_content (limit : Nat) :
    Accepts (content limit) (fun form c => ∃ main, PrototypeForm limit 1 "" main c.main
      ∧ form = Format.header ++ [c.upvalueCount] ++ main) := by
  have hmain : Accepts (prototype limit limit "") (PrototypeForm limit 1 "") := accepts_prototype rfl ""
  refine (accepts_bind accepts_header fun _ => accepts_bind accepts_byte fun upvalueCount =>
    accepts_map hmain (Chunk.mk upvalueCount)).of_iff fun form c => ?_
  constructor
  · rintro ⟨_, _, _, rfl, ⟨upvalueCount, _, main, rfl, ⟨p, hp, rfl⟩, rfl⟩, rfl⟩
    exact ⟨main, hp, (List.append_assoc _ _ _).symm⟩
  · rintro ⟨main, hp, rfl⟩
    exact ⟨(), _, _, rfl, ⟨c.upvalueCount, _, main, rfl, ⟨c.main, hp, rfl⟩, rfl⟩, List.append_assoc _ _ _⟩

/-- A header is refused for a field that differs, or for want of bytes. -/
theorem header_eq_error {e : LoadError} {d : Cursor} (h : header (.ofBytes bytes) = .error e d) :
    e.isHeaderError = true ∨ ∃ item offset, e = .unexpectedEnd item offset := by
  have hfirst : HeaderField.all.findSome? (HeaderField.fault? bytes) = some e := by
    rw [← refusal?_header, h]
    rfl
  obtain ⟨f, _, hfault⟩ := List.exists_of_findSome?_eq_some hfirst
  unfold HeaderField.fault? at hfault
  split at hfault
  · cases hfault
    exact .inl (f.isHeaderError_refusal _)
  · split at hfault
    · cases hfault
    · cases hfault
      exact .inr ⟨_, _, rfl⟩

end ReadM

namespace Chunk

open ReadM

variable {limit : Nat} {bytes : Bytes} {e : LoadError}

/-- Reading moves forward through the input. -/
theorem leadsTo_of_content_ok {c : Chunk} {d : Cursor} (h : content limit (.ofBytes bytes) = .ok c d) :
    (Cursor.ofBytes bytes).LeadsTo d :=
  ((stepLaw_located limit).content _).ok (Cursor.LeadsTo.refl _) h

/-- What reading refuses describes the input. -/
theorem describes_of_content_error {d : Cursor} (h : content limit (.ofBytes bytes) = .error e d) :
    e.Describes limit (.ofBytes bytes) :=
  (((stepLaw_located limit).content _).error (Cursor.LeadsTo.refl _) h).2

/-- A refusal, other than for trailing bytes, describes the input. -/
theorem describes_of_loadWithin (h : loadWithin limit bytes = .error e)
    (htrailing : ∀ count, e ≠ .trailingBytes count) : e.Describes limit (.ofBytes bytes) := by
  cases hcontent : content limit (.ofBytes bytes) with
  | ok c d =>
    rw [loadWithin_of_content_ok hcontent] at h
    split at h
    · cases h
    · cases h
      exact absurd rfl (htrailing _)
  | error e' d =>
    rw [loadWithin_of_content_error hcontent] at h
    cases h
    exact describes_of_content_error hcontent

/-- A refusal that neither blames the header nor wants bytes comes from behind the right header. -/
theorem header_prefix_of_loadWithin (h : loadWithin limit bytes = .error e)
    (hheader : e.isHeaderError = false) (hend : ∀ item offset, e ≠ .unexpectedEnd item offset) :
    Format.header <+: bytes := by
  cases hread : header (.ofBytes bytes) with
  | ok u d => exact header_eq_ok_iff_prefix.1 ⟨d, hread⟩
  | error e' d =>
    have hrefused : refusal? (header (.ofBytes bytes)) = some e' := by
      rw [hread]
      rfl
    cases h.symm.trans (loadWithin_of_header_refused hrefused)
    rcases header_eq_error hread with hblamed | ⟨item, offset, rfl⟩
    · rw [hblamed] at hheader
      cases hheader
    · exact absurd rfl (hend item offset)

/-- What was read of an input loads by itself. -/
theorem loadWithin_take_of_content_ok {c : Chunk} {d : Cursor}
    (h : content limit (.ofBytes bytes) = .ok c d) :
    loadWithin limit (bytes.take (bytes.length - d.unread.length)) = .ok c := by
  obtain ⟨form, hform, hbytes, _⟩ := (accepts_content limit _ _ _).1 h
  have hcut : bytes.take (bytes.length - d.unread.length) = form := by
    rw [show bytes = form ++ d.unread from hbytes, List.length_append, Nat.add_sub_cancel, List.take_left]
  have hself : content limit (.ofBytes form) = .ok c ⟨[], 0 + form.length⟩ :=
    (accepts_content limit _ _ _).2 ⟨form, hform, (List.append_nil form).symm, rfl⟩
  rw [hcut, loadWithin_of_content_ok hself, if_pos rfl]

/-- **Trailing bytes** are reported exactly where the input without them is a chunk. -/
theorem loadWithin_eq_trailingBytes_iff {count : Nat} :
    loadWithin limit bytes = .error (.trailingBytes count)
      ↔ 1 ≤ count ∧ count ≤ bytes.length
        ∧ ∃ c, loadWithin limit (bytes.take (bytes.length - count)) = .ok c := by
  constructor
  · intro h
    cases hcontent : content limit (.ofBytes bytes) with
    | error e d =>
      -- no step of reading reports them
      rw [loadWithin_of_content_error hcontent] at h
      cases h
      exact (describes_of_content_error hcontent).elim
    | ok c d =>
      have hload := loadWithin_take_of_content_ok hcontent
      have hend := (leadsTo_of_content_ok hcontent).end_eq
      rw [loadWithin_of_content_ok hcontent] at h
      split at h
      · cases h
      · rename_i hleft
        cases h
        have hpos := List.length_pos_iff.2 hleft
        have hle : d.unread.length ≤ bytes.length := by
          simp only [Cursor.ofBytes] at hend
          omega
        exact ⟨hpos, hle, c, hload⟩
  · rintro ⟨hpos, hle, c, hload⟩
    obtain ⟨d, hcontent, hend⟩ := content_of_loadWithin hload
    have hlength : (bytes.drop (bytes.length - count)).length = count := by
      rw [List.length_drop]
      omega
    have hmore : bytes.drop (bytes.length - count) ≠ [] := List.length_pos_iff.1 (by omega)
    have hlonger := loadWithin_append_of_content_ok hcontent hmore
    rwa [List.take_append_drop, hend, List.length_nil, Nat.zero_add, hlength] at hlonger

/-- **Refusals locate what they report.**  An unknown tag is the byte at the place named, and is none of the
    tags there are; an end of input is reported within the input or right behind it; line numbers that are
    refused are there and are not one per instruction; the limit named is the limit given; and trailing bytes
    are reported exactly where the input without so many bytes is a chunk.  Except for an end of input, each
    of these says that the header was right. -/
theorem loadWithin_error_located (limit : Nat) (bytes : Bytes) :
    (∀ tag offset, loadWithin limit bytes = .error (.unknownConstantTag tag offset) →
      offset < bytes.length ∧ bytes[offset]? = some tag
        ∧ tag ∉ [0x00, 0x01, 0x03, 0x04, 0x13, 0x14] ∧ Format.header <+: bytes)
    ∧ (∀ item offset, loadWithin limit bytes = .error (.unexpectedEnd item offset) →
      offset ≤ bytes.length)
    ∧ (∀ code lineInfo, loadWithin limit bytes = .error (.lineInfoMismatch code lineInfo) →
      lineInfo ≠ 0 ∧ lineInfo ≠ code ∧ Format.header <+: bytes)
    ∧ (∀ depth, loadWithin limit bytes = .error (.nestingTooDeep depth) →
      depth = limit ∧ Format.header <+: bytes)
    ∧ ∀ count, (loadWithin limit bytes = .error (.trailingBytes count)
        ↔ 1 ≤ count ∧ count ≤ bytes.length
          ∧ ∃ c, loadWithin limit (bytes.take (bytes.length - count)) = .ok c)
      ∧ (loadWithin limit bytes = .error (.trailingBytes count) → Format.header <+: bytes) := by
  refine ⟨?_, ?_, ?_, ?_, ?_⟩
  · intro tag offset h
    obtain ⟨_, hbyte, htag⟩ := describes_of_loadWithin h (by rintro _ ⟨⟩)
    have hplace : offset < bytes.length := (List.getElem?_eq_some_iff.1 hbyte).1
    refine ⟨hplace, hbyte, ?_, header_prefix_of_loadWithin h rfl (by rintro _ _ ⟨⟩)⟩
    have htags : [0x00, 0x01, 0x03, 0x04, 0x13, 0x14] ⊆ Format.constantTags := by decide
    exact fun hmem => htag (htags hmem)
  · intro item offset h
    obtain ⟨_, hoffset⟩ := describes_of_loadWithin h (by rintro _ ⟨⟩)
    exact Nat.le_trans hoffset (Nat.le_of_eq (Nat.zero_add bytes.length))
  · intro code lineInfo h
    obtain ⟨hsome, hdiffer⟩ := describes_of_loadWithin h (by rintro _ ⟨⟩)
    exact ⟨hsome, hdiffer, header_prefix_of_loadWithin h rfl (by rintro _ _ ⟨⟩)⟩
  · intro depth h
    exact ⟨describes_of_loadWithin h (by rintro _ ⟨⟩), header_prefix_of_loadWithin h rfl (by rintro _ _ ⟨⟩)⟩
  · intro count
    exact ⟨loadWithin_eq_trailingBytes_iff,
      fun h => header_prefix_of_loadWithin h rfl (by rintro _ _ ⟨⟩)⟩

/-- A main function with two instructions and one line number. -/
def strayLineSample : Bytes :=
  Format.header ++ List.replicate 13 0 ++ toLittleEndian 4 2 ++ List.replicate 20 0 ++ toLittleEndian 4 1
    ++ List.replicate 4 0

/-- A strange tag, a chunk that is cut, a line number for one of two instructions, no level to open, and a
    chunk that goes on. -/
theorem loadWithin_error_located_samples :
    (loadWithin 1 strangeTagSample = .error (.unknownConstantTag 0x07 54)
      ∧ 54 < strangeTagSample.length ∧ strangeTagSample[54]? = some 0x07
      ∧ (0x07 : UInt8) ∉ [0x00, 0x01, 0x03, 0x04, 0x13, 0x14] ∧ Format.header <+: strangeTagSample)
    ∧ (loadWithin 1 (emptySample.take 73) = .error (.unexpectedEnd .word32 70)
      ∧ 70 ≤ (emptySample.take 73).length)
    ∧ (loadWithin 1 strayLineSample = .error (.lineInfoMismatch 2 1)
      ∧ 1 ≠ 0 ∧ 1 ≠ 2 ∧ Format.header <+: strayLineSample)
    ∧ (loadWithin 0 emptySample = .error (.nestingTooDeep 0) ∧ 0 = 0 ∧ Format.header <+: emptySample)
    ∧ loadWithin 1 (emptySample ++ [0x1B]) = .error (.trailingBytes 1) := by
  refine ⟨⟨rfl, (loadWithin_error_located 1 strangeTagSample).1 0x07 54 rfl⟩,
    ⟨rfl, (loadWithin_error_located 1 (emptySample.take 73)).2.1 .word32 70 rfl⟩,
    ⟨rfl, (loadWithin_error_located 1 strayLineSample).2.2.1 2 1 rfl⟩,
    ⟨rfl, (loadWithin_error_located 0 emptySample).2.2.2.1 0 rfl⟩, ?_⟩
  have hcut : ∃ c, loadWithin 1 ((emptySample ++ [0x1B]).take 74) = .ok c := ⟨_, rfl⟩
  exact ((loadWithin_error_located 1 (emptySample ++ [0x1B])).2.2.2.2 1).1.2 ⟨by decide, by decide, hcut⟩

end Chunk

end LuaBytecode
