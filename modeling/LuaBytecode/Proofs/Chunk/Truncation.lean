/-
  Input that is cut short and input that goes on.

  1. **Steadiness** — a step is `Steady` if more input behind what is left changes neither a success nor
     a refusal, except a refusal for want of bytes.  A count looks at how much input is left, but more
     input only makes room; so counts are steady too.

  2. **Location** — a step is `Located` if it only moves forward, and if what its refusals say of the
     input is so: an end of input is reported at a place inside the input or right behind it, and an
     unknown tag at the place where that byte stands.

  Both are laws of steps, so they hold of all that is read before the check for trailing bytes
  (`content`).  Whether a chunk is loaded, refused, or refused for trailing bytes is decided by what
  `content` does and what it leaves; comparing a run on the input with a run on a longer one then gives
  all three statements of `loadWithin_cut_or_extended`.
-/
import LuaBytecode.Proofs.Chunk.Grammar
import LuaBytecode.Proofs.Chunk.StepLaw

namespace LuaBytecode

/-! ## Cursors -/

namespace Cursor

/-- The cursor with more input behind what is left. -/
def append (c : Cursor) (more : Bytes) : Cursor := ⟨c.unread ++ more, c.position⟩

/-- Bytes that are appended to the input are behind the cursor. -/
theorem append_ofBytes (bytes more : Bytes) : (ofBytes bytes).append more = ofBytes (bytes ++ more) := rfl

/-- The second cursor is in the same input as the first, at the same place or further on. -/
def LeadsTo (c d : Cursor) : Prop :=
  ∃ read, c.unread = read ++ d.unread ∧ d.position = c.position + read.length

theorem LeadsTo.refl (c : Cursor) : c.LeadsTo c := ⟨[], rfl, rfl⟩

/-- What is consumed on the way adds up. -/
theorem LeadsTo.trans {c d e : Cursor} (hcd : c.LeadsTo d) (hde : d.LeadsTo e) : c.LeadsTo e := by
  obtain ⟨r, hcu, hcp⟩ := hcd
  obtain ⟨s, hdu, hdp⟩ := hde
  refine ⟨r ++ s, ?_, ?_⟩
  · rw [hcu, hdu, List.append_assoc]
  · rw [hdp, hcp, List.length_append, Nat.add_assoc]

theorem LeadsTo.position_le {c d : Cursor} (h : c.LeadsTo d) : c.position ≤ d.position := by
  obtain ⟨read, _, hp⟩ := h
  omega

/-- The end of the input stays where it is. -/
theorem LeadsTo.end_eq {c d : Cursor} (h : c.LeadsTo d) :
    d.position + d.unread.length = c.position + c.unread.length := by
  obtain ⟨read, hu, hp⟩ := h
  rw [hu, hp, List.length_append]
  omega

/-- A byte that is still unread stands at the same place of the input for both cursors. -/
theorem LeadsTo.getElem?_eq {c d : Cursor} (h : c.LeadsTo d) {offset : Nat} (hd : d.position ≤ offset) :
    c.unread[offset - c.position]? = d.unread[offset - d.position]? := by
  obtain ⟨read, hu, hp⟩ := h
  rw [hu, List.getElem?_append_right (by omega)]
  congr 1
  omega

end Cursor

/-! ## What a refusal says -/

/-- What a refusal says is so of the input from the cursor on.  Trailing bytes are not reported by a step
    that reads. -/
def LoadError.Describes (limit : Nat) (c : Cursor) : LoadError → Prop
  | .unexpectedEnd _ offset => c.position ≤ offset ∧ offset ≤ c.position + c.unread.length
  | .unknownConstantTag tag offset =>
    c.position ≤ offset ∧ c.unread[offset - c.position]? = some tag ∧ tag ∉ Format.constantTags
  | .trailingBytes _ => False
  | e => e.Placeless limit

/-- What is so from a later place on is so from an earlier one on. -/
theorem LoadError.Describes.of_leadsTo {limit : Nat} {c d : Cursor} {e : LoadError}
    (he : e.Describes limit d) (h : c.LeadsTo d) : e.Describes limit c := by
  have hpos := h.position_le
  cases e with
  | unexpectedEnd item offset =>
    have hend := h.end_eq
    obtain ⟨hlo, hhi⟩ := he
    exact ⟨by omega, by omega⟩
  | unknownConstantTag tag offset =>
    obtain ⟨hlo, hbyte, htag⟩ := he
    exact ⟨by omega, (h.getElem?_eq hlo).trans hbyte, htag⟩
  | _ => exact he

/-- An error that speaks of no place is right wherever it is raised. -/
theorem LoadError.Placeless.describes {limit : Nat} {e : LoadError} (he : e.Placeless limit) (c : Cursor) :
    e.Describes limit c := by
  cases e with
  | unexpectedEnd | unknownConstantTag | trailingBytes => cases he
  | _ => exact he

namespace ReadM

variable {α β : Type} {m : ReadM α} {limit : Nat}

/-! ## Steadiness -/

/-- More input behind what is left changes nothing, unless bytes were wanting. -/
structure Steady (m : ReadM α) : Prop where
  ok {c d : Cursor} {x : α} : m c = .ok x d → ∀ more, m (c.append more) = .ok x (d.append more)
  error {c d : Cursor} {e : LoadError} : m c = .error e d →
    (∀ item offset, e ≠ .unexpectedEnd item offset) → ∀ more, m (c.append more) = .error e (d.append more)

theorem steady_pure (x : α) : Steady (pure x : ReadM α) where
  ok h more := by
    cases h
    rfl
  error h _ _ := by cases h

theorem steady_throw (e : LoadError) : Steady (throw e : ReadM α) where
  ok h _ := by cases h
  error h _ more := by
    cases h
    rfl

/-- **Steadiness passes through sequencing.**  A success of the first step is the same with more input; a
    failure of either is lifted or stays. -/
theorem steady_bind {f : α → ReadM β} (hm : Steady m) (hf : ∀ x, Steady (f x)) : Steady (m >>= f) where
  ok h more := by
    obtain ⟨x, d, h1, h2⟩ := bind_eq_ok_iff.1 h
    exact bind_eq_ok_iff.2 ⟨x, d.append more, hm.ok h1 more, (hf x).ok h2 more⟩
  error h he more := by
    rcases bind_eq_error_iff.1 h with h1 | ⟨x, d, h1, h2⟩
    · exact bind_eq_error_iff.2 (.inl (hm.error h1 he more))
    · exact bind_eq_error_iff.2 (.inr ⟨x, d.append more, hm.ok h1 more, (hf x).error h2 he more⟩)

/-- Where a step stands does not depend on what is behind it. -/
theorem steady_position_bind {f : Nat → ReadM α} (hf : ∀ n, Steady (f n)) : Steady (position >>= f) where
  ok {c _ _} h more := (hf c.position).ok h more
  error {c _ _} h he more := (hf c.position).error h he more

/-- A step that accepts a form is steady if it fails for want of bytes only. -/
theorem Accepts.steady {G : Form α} (hm : Accepts m G)
    (hends : ∀ c e d, m c = .error e d → ∃ item offset, e = .unexpectedEnd item offset) : Steady m where
  ok {c d x} h more := by
    obtain ⟨form, hform, hu, hp⟩ := (hm c x d).1 h
    refine (hm _ _ _).2 ⟨form, hform, ?_, hp⟩
    show c.unread ++ more = form ++ (d.unread ++ more)
    rw [hu, List.append_assoc]
  error {c d e} h he more := by
    obtain ⟨item, offset, heq⟩ := hends c e d h
    exact absurd heq (he item offset)

/-- Too few bytes are reported at the place where they should begin, and none is consumed. -/
theorem take_eq_error {n : Nat} {item : Item} {c d : Cursor} {e : LoadError}
    (h : take n item c = .error e d) : e = .unexpectedEnd item c.position ∧ d = c := by
  unfold take at h
  split at h
  · cases h
  · cases h
    exact ⟨rfl, rfl⟩

/-- So is a missing byte. -/
theorem byte_eq_error {c d : Cursor} {e : LoadError} (h : byte c = .error e d) :
    e = .unexpectedEnd .byte c.position ∧ d = c := by
  unfold byte at h
  split at h
  · cases h
  · cases h
    exact ⟨rfl, rfl⟩

theorem steady_take (n : Nat) (item : Item) : Steady (take n item) :=
  (accepts_take n item).steady fun _ _ _ h => ⟨item, _, (take_eq_error h).1⟩

theorem steady_byte : Steady byte :=
  accepts_byte.steady fun _ _ _ h => ⟨.byte, _, (byte_eq_error h).1⟩

/-- The steps that everything else is made of. -/
theorem sequential_steady : Sequential Steady where
  pure := steady_pure
  bind := steady_bind
  take := steady_take
  byte := steady_byte

/-- A string is made of steady steps, and its own error is an end of input. -/
theorem steady_string : Steady string := by
  rw [string_eq]
  exact steady_position_bind fun start => sequential_steady.stringFrom (steady_throw _)

/-- A count fails because its four bytes are wanting, or room for that many elements, and names the place
    where it starts. -/
theorem count_eq_error {s : Segment} {c d : Cursor} {e : LoadError} (h : count s c = .error e d) :
    ∃ item, e = .unexpectedEnd item c.position ∧ d.position ≤ c.position + 4 := by
  rcases bind_eq_error_iff.1 h with h | ⟨start, _, hstart, h⟩
  · cases h
  cases hstart
  rcases bind_eq_error_iff.1 h with h | ⟨n, _, hn, h⟩
  · rcases bind_eq_error_iff.1 h with h | ⟨_, _, _, h⟩
    · obtain ⟨rfl, rfl⟩ := take_eq_error h
      exact ⟨_, rfl, Nat.le_add_right _ 4⟩
    · cases h
  rcases bind_eq_error_iff.1 h with h | ⟨fits, _, hfits, h⟩
  · cases h
  cases hfits
  rcases bind_eq_error_iff.1 h with h | ⟨_, _, _, h⟩
  · unfold require at h
    split at h
    · cases h
    · cases h
      obtain ⟨_, rfl, _, hp⟩ := (accepts_word32 _ _ _).1 hn
      rw [length_toLittleEndian] at hp
      exact ⟨_, rfl, Nat.le_of_eq hp⟩
  · cases h

/-- **The check of a count is steady**: where there was room for so many elements there still is. -/
theorem steady_count (s : Segment) : Steady (count s) where
  ok {c d n} h more := by
    obtain ⟨hn, hroom, hu, hp⟩ := (count_eq_ok_iff s c d n).1 h
    refine (count_eq_ok_iff s _ _ n).2 ⟨hn, ?_, ?_, hp⟩
    · show n * s.elementWidth ≤ (d.unread ++ more).length
      rw [List.length_append]
      omega
    · show c.unread ++ more = toLittleEndian 4 n ++ (d.unread ++ more)
      rw [hu, List.append_assoc]
  error h he _ := by
    obtain ⟨item, heq, _⟩ := count_eq_error h
    exact absurd heq (he item _)

/-- An unknown tag is seen before what follows it. -/
theorem steady_constant : Steady constant := by
  rw [constant_eq]
  refine steady_position_bind fun start => steady_bind steady_byte fun tag => ?_
  exact sequential_steady.announced steady_string fun _ => steady_throw _

/-- **Every step of loading is steady.**  A count is the one that looks ahead, and what it refuses with few
    bytes it refuses as an end of input. -/
theorem stepLaw_steady (limit : Nat) : StepLaw limit Steady where
  toSequential := sequential_steady
  refuse _ _ := steady_throw _
  refuseHeader _ := steady_throw _
  string := steady_string
  count := steady_count
  constant := steady_constant

/-! ## Location -/

/-- Started at or behind a cursor, the step moves forward, and its refusals describe the input from that
    cursor on. -/
structure LocatedFrom (limit : Nat) (c : Cursor) (m : ReadM α) : Prop where
  ok {d d' : Cursor} {x : α} : c.LeadsTo d → m d = .ok x d' → c.LeadsTo d'
  error {d d' : Cursor} {e : LoadError} : c.LeadsTo d → m d = .error e d' →
    c.LeadsTo d' ∧ e.Describes limit c

/-- The step moves forward, and its refusals describe the input from wherever it was started. -/
def Located (limit : Nat) (m : ReadM α) : Prop := ∀ c, LocatedFrom limit c m

section LocatedFrom

variable {c : Cursor}

theorem locatedFrom_pure (x : α) : LocatedFrom limit c (pure x : ReadM α) where
  ok hd h := by
    cases h
    exact hd
  error _ h := by cases h

/-- An error that is right where it is raised. -/
theorem locatedFrom_throw {e : LoadError} (he : e.Describes limit c) :
    LocatedFrom limit c (throw e : ReadM α) where
  ok _ h := by cases h
  error hd h := by
    cases h
    exact ⟨hd, he⟩

/-- **Location passes through sequencing**: the second step starts at or behind the place where the first
    did. -/
theorem locatedFrom_bind {f : α → ReadM β} (hm : LocatedFrom limit c m)
    (hf : ∀ x, LocatedFrom limit c (f x)) : LocatedFrom limit c (m >>= f) where
  ok hd h := by
    obtain ⟨x, d', h1, h2⟩ := bind_eq_ok_iff.1 h
    exact (hf x).ok (hm.ok hd h1) h2
  error hd h := by
    rcases bind_eq_error_iff.1 h with h1 | ⟨x, d', h1, h2⟩
    · exact hm.error hd h1
    · exact (hf x).error (hm.ok hd h1) h2

/-- A step may name the place where it stands, which is between the cursor and the end. -/
theorem locatedFrom_position_bind {f : Nat → ReadM α}
    (hf : ∀ start, c.position ≤ start → start ≤ c.position + c.unread.length →
      LocatedFrom limit c (f start)) :
    LocatedFrom limit c (position >>= f) := by
  have hstart (d : Cursor) (hd : c.LeadsTo d) : LocatedFrom limit c (f d.position) := by
    have hpos := hd.position_le
    have hend := hd.end_eq
    exact hf d.position (by omega) (by omega)
  constructor
  · intro d d' x hd h
    exact (hstart d hd).ok hd h
  · intro d d' e hd h
    exact (hstart d hd).error hd h

end LocatedFrom

/-- A step that accepts a form is located if it fails without moving, for want of bytes where it
    stands. -/
theorem Accepts.located {G : Form α} (hm : Accepts m G)
    (hends : ∀ c e d, m c = .error e d → ∃ item, e = .unexpectedEnd item c.position ∧ d = c) :
    Located limit m := by
  intro c
  constructor
  · intro d d' x hd h
    obtain ⟨form, _, hu, hp⟩ := (hm d x d').1 h
    exact hd.trans ⟨form, hu, hp⟩
  · intro d d' e hd h
    obtain ⟨item, rfl, rfl⟩ := hends d e d' h
    exact ⟨hd, LoadError.Describes.of_leadsTo ⟨Nat.le_refl _, Nat.le_add_right _ _⟩ hd⟩

theorem located_take (n : Nat) (item : Item) : Located limit (take n item) :=
  (accepts_take n item).located fun _ _ _ h => ⟨item, take_eq_error h⟩

theorem located_byte : Located limit byte :=
  accepts_byte.located fun _ _ _ h => ⟨.byte, byte_eq_error h⟩

/-- A step may name the place of the byte that it reads. -/
theorem locatedFrom_position_byte_bind {c : Cursor} {f : Nat → UInt8 → ReadM α}
    (hf : ∀ start b, c.position ≤ start → c.unread[start - c.position]? = some b →
      LocatedFrom limit c (f start b)) :
    LocatedFrom limit c (position >>= fun start => byte >>= f start) := by
  have hbyte : LocatedFrom limit c byte := located_byte c
  have hrest (d d' : Cursor) (b : UInt8) (hd : c.LeadsTo d) (h : byte d = .ok b d') :
      LocatedFrom limit c (f d.position b) := by
    obtain ⟨_, rfl, hu, _⟩ := (accepts_byte d b d').1 h
    refine hf d.position b hd.position_le ?_
    rw [hd.getElem?_eq (Nat.le_refl _), Nat.sub_self, hu]
    rfl
  constructor
  · intro d e x hd h
    obtain ⟨b, d', hb, h⟩ := bind_eq_ok_iff.1 (show (byte >>= f d.position) d = .ok x e from h)
    exact (hrest d d' b hd hb).ok (hbyte.ok hd hb) h
  · intro d e err hd h
    rcases bind_eq_error_iff.1 (show (byte >>= f d.position) d = .error err e from h) with
      h | ⟨b, d', hb, h⟩
    · exact hbyte.error hd h
    · exact (hrest d d' b hd hb).error (hbyte.ok hd hb) h

/-- The steps that everything else is made of. -/
theorem sequential_locatedFrom (c : Cursor) : Sequential (LocatedFrom limit c) where
  pure := locatedFrom_pure
  bind := locatedFrom_bind
  take n item := located_take n item c
  byte := located_byte c

/-- The error of a string names the place where the string starts. -/
theorem located_string : Located limit string := by
  intro c
  rw [string_eq]
  refine locatedFrom_position_bind fun start hlo hhi => ?_
  exact (sequential_locatedFrom c).stringFrom (locatedFrom_throw ⟨hlo, hhi⟩)

/-- A count that is refused is refused at its own place, also if it was read and found too large. -/
theorem located_count (s : Segment) : Located limit (count s) := by
  intro c
  have seq : Sequential (LocatedFrom limit c) := sequential_locatedFrom c
  refine locatedFrom_position_bind fun start hlo hhi => seq.bind seq.word32 fun n => ?_
  -- looking at how much is left moves nothing
  have henough : LocatedFrom limit c (enough (n.toNat * s.elementWidth)) := by
    constructor
    · intro d d' fits hd h
      cases h
      exact hd
    · intro d d' e _ h
      cases h
  refine seq.bind henough fun fits => seq.map (seq.require_of_throw fun _ => ?_) _
  exact locatedFrom_throw ⟨hlo, hhi⟩

/-- An unknown tag is named with its place, and is there. -/
theorem located_constant : Located limit constant := by
  intro c
  rw [constant_eq]
  refine locatedFrom_position_byte_bind fun start tag hlo hbyte => ?_
  refine (sequential_locatedFrom c).announced (located_string c) fun htag => ?_
  exact locatedFrom_throw ⟨hlo, hbyte, htag⟩

/-- **Every step of loading names the places it should.** -/
theorem stepLaw_located (limit : Nat) : StepLaw limit (Located limit) where
  pure x _ := locatedFrom_pure x
  bind hm hf c := locatedFrom_bind (hm c) fun x => hf x c
  take := located_take
  byte := located_byte
  refuse he _ c := locatedFrom_throw (he.describes c)
  refuseHeader he c := locatedFrom_throw ((LoadError.placeless_of_isHeaderError limit he).describes c)
  string := located_string
  count := located_count
  constant := located_constant

/-! ## Everything but the check for trailing bytes -/

/-- A chunk, whatever comes behind it. -/
def content (limit : Nat) : ReadM Chunk := do
  header
  let upvalueCount ← byte
  let main ← prototype limit limit ""
  return ⟨upvalueCount, main⟩

/-- What every law of steps holds of. -/
theorem StepLaw.content {P : {α : Type} → ReadM α → Prop} (law : StepLaw limit P) :
    P (content limit) :=
  law.bind law.header fun _ => law.bind law.byte fun upvalueCount =>
    law.map (law.prototype limit "") (Chunk.mk upvalueCount)

/-- The check that nothing is left. -/
def finish (c : Chunk) : ReadM Chunk := do
  let left ← remaining
  require (left = 0) (.trailingBytes left)
  return c

/-- The check for trailing bytes reads nothing. -/
theorem finish_eq (c : Chunk) (d : Cursor) :
    finish c d = if d.unread = [] then .ok c d else .error (.trailingBytes d.unread.length) d := by
  show (require (d.unread.length = 0) (.trailingBytes d.unread.length) >>= fun _ => pure c) d = _
  unfold require
  by_cases hend : d.unread = []
  · rw [if_pos hend, if_pos (List.length_eq_zero_iff.2 hend)]
    rfl
  · rw [if_neg hend, if_neg fun h => hend (List.length_eq_zero_iff.1 h)]
    rfl

/-- A chunk is its content and that check. -/
theorem chunk_eq_content_bind (limit : Nat) : chunk limit = content limit >>= finish := by
  simp only [chunk, content, finish, bind_assoc, pure_bind]

end ReadM

/-! ## Loading -/

namespace Chunk

open ReadM

variable {limit : Nat} {bytes : Bytes} {c : Chunk} {d : Cursor} {e : LoadError}

/-- What is left behind the content decides. -/
theorem loadWithin_of_content_ok (h : content limit (.ofBytes bytes) = .ok c d) :
    loadWithin limit bytes
      = if d.unread = [] then .ok c else .error (.trailingBytes d.unread.length) := by
  have hchunk : chunk limit (.ofBytes bytes) = finish c d := by
    rw [chunk_eq_content_bind, bind_of_ok h]
  rw [loadWithin, hchunk, finish_eq]
  by_cases hend : d.unread = []
  · rw [if_pos hend, if_pos hend]
  · rw [if_neg hend, if_neg hend]

/-- A failure within the content is the failure of loading. -/
theorem loadWithin_of_content_error (h : content limit (.ofBytes bytes) = .error e d) :
    loadWithin limit bytes = .error e := by
  rw [loadWithin, chunk_eq_content_bind, bind_of_error h]

/-- A chunk that is loaded is read to the end. -/
theorem content_of_loadWithin (h : loadWithin limit bytes = .ok c) :
    ∃ d, content limit (.ofBytes bytes) = .ok c d ∧ d.unread = [] := by
  cases hcontent : content limit (.ofBytes bytes) with
  | ok c' d =>
    rw [loadWithin_of_content_ok hcontent] at h
    split at h
    · rename_i hend
      cases h
      exact ⟨d, rfl, hend⟩
    · cases h
  | error e d =>
    rw [loadWithin_of_content_error hcontent] at h
    cases h

/-- What is read of an input is read of every longer one. -/
theorem loadWithin_append_of_content_ok (h : content limit (.ofBytes bytes) = .ok c d) {more : Bytes}
    (hmore : more ≠ []) :
    loadWithin limit (bytes ++ more) = .error (.trailingBytes (d.unread.length + more.length)) := by
  have hlonger := (stepLaw_steady limit).content.ok h more
  rw [Cursor.append_ofBytes] at hlonger
  have hleft : (d.append more).unread ≠ [] := fun hnil => hmore (List.append_eq_nil_iff.1 hnil).2
  rw [loadWithin_of_content_ok hlonger, if_neg hleft]
  show Except.error (LoadError.trailingBytes (d.unread ++ more).length) = _
  rw [List.length_append]

/-- What is refused of an input, but not for want of bytes, is refused of every longer one. -/
theorem loadWithin_append_of_content_error (h : content limit (.ofBytes bytes) = .error e d)
    (he : ∀ item offset, e ≠ .unexpectedEnd item offset) (more : Bytes) :
    loadWithin limit (bytes ++ more) = .error e :=
  loadWithin_of_content_error ((stepLaw_steady limit).content.error h he more)

/-- An end of input is reported within the input or right behind it. -/
theorem offset_le_of_content_error {item : Item} {offset : Nat}
    (h : content limit (.ofBytes bytes) = .error (.unexpectedEnd item offset) d) :
    offset ≤ bytes.length := by
  have hlocated := (stepLaw_located limit).content (.ofBytes bytes)
  obtain ⟨_, _, hoffset⟩ := hlocated.error (Cursor.LeadsTo.refl _) h
  exact Nat.le_trans hoffset (Nat.le_of_eq (Nat.zero_add bytes.length))

/-- **Truncation and extension.**  Bytes behind a chunk that loads are reported as trailing, all of them
    and nothing else; a chunk that loads and is cut anywhere is reported as ending too early, at a place
    within what is left of it; and every other refusal stands whatever follows. -/
theorem loadWithin_cut_or_extended (limit : Nat) (bytes : Bytes) :
    (∀ c, loadWithin limit bytes = .ok c →
      (∀ more, more ≠ [] → loadWithin limit (bytes ++ more) = .error (.trailingBytes more.length))
        ∧ ∀ cut, cut <+: bytes → cut ≠ bytes →
          ∃ item offset, loadWithin limit cut = .error (.unexpectedEnd item offset)
            ∧ offset ≤ cut.length)
    ∧ ∀ e, loadWithin limit bytes = .error e → (∀ item offset, e ≠ .unexpectedEnd item offset) →
      (∀ count, e ≠ .trailingBytes count) → ∀ more, loadWithin limit (bytes ++ more) = .error e := by
  constructor
  · intro c hc
    obtain ⟨d, hcontent, hend⟩ := content_of_loadWithin hc
    constructor
    · intro more hmore
      rw [loadWithin_append_of_content_ok hcontent hmore, hend, List.length_nil, Nat.zero_add]
    · rintro cut ⟨more, rfl⟩ hcut
      have hmore : more ≠ [] := fun hnil => hcut (by rw [hnil, List.append_nil])
      -- the cut input cannot be read to the end of the chunk, nor refused for good
      cases h : content limit (.ofBytes cut) with
      | ok c' d' =>
        rw [loadWithin_append_of_content_ok h hmore] at hc
        cases hc
      | error e d' =>
        by_cases he : ∀ item offset, e ≠ .unexpectedEnd item offset
        · rw [loadWithin_append_of_content_error h he more] at hc
          cases hc
        · simp only [ne_eq, Classical.not_forall, Classical.not_not] at he
          obtain ⟨item, offset, rfl⟩ := he
          exact ⟨item, offset, loadWithin_of_content_error h, offset_le_of_content_error h⟩
  · intro e he hend htrailing more
    cases h : content limit (.ofBytes bytes) with
    | ok c d =>
      -- a chunk was read, so only trailing bytes can have been refused
      rw [loadWithin_of_content_ok h] at he
      split at he
      · cases he
      · cases he
        exact absurd rfl (htrailing _)
    | error e' d =>
      rw [loadWithin_of_content_error h] at he
      cases he
      exact loadWithin_append_of_content_error h hend more

/-- A main function with nothing in it. -/
def emptySample : Bytes := Format.header ++ List.replicate 41 0

/-- A main function whose only constant has a tag that there is not. -/
def strangeTagSample : Bytes := Format.header ++ List.replicate 17 0 ++ toLittleEndian 4 1 ++ [0x07]

/-- A chunk with a byte too many, the same chunk with a byte too few, and one with another fault, which more
    bytes do not mend. -/
theorem loadWithin_cut_or_extended_samples :
    loadWithin 1 (emptySample ++ [0x1B]) = .error (.trailingBytes 1)
      ∧ (∃ item offset, loadWithin 1 (emptySample.take 73) = .error (.unexpectedEnd item offset)
        ∧ offset ≤ (emptySample.take 73).length)
      ∧ loadWithin 1 (strangeTagSample ++ [0x00]) = .error (.unknownConstantTag 0x07 54) := by
  obtain ⟨c, hload⟩ : ∃ c, loadWithin 1 emptySample = .ok c := ⟨_, rfl⟩
  have hstrange : loadWithin 1 strangeTagSample = .error (.unknownConstantTag 0x07 54) := rfl
  obtain ⟨hextended, hcut⟩ := (loadWithin_cut_or_extended 1 emptySample).1 c hload
  refine ⟨hextended [0x1B] (by simp), hcut _ (List.take_prefix 73 _) (by decide), ?_⟩
  refine (loadWithin_cut_or_extended 1 strangeTagSample).2 _ hstrange ?_ ?_ [0x00]
  · intro item offset h
    cases h
  · intro count h
    cases h

end Chunk

end LuaBytecode
