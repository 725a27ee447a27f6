/-
  Which reports of an end of input more input lifts.

  1. **Getting past** — a run gets past a reported end of input if it succeeds further on or is refused for
     something else.  A step that only moves forward, and names no place before the one it starts at, gets
     past every place that lies before it.

  2. **Two kinds of want** — a step that reports an end of input either gets past it with some more bytes,
     or stands behind a string size of zero in eight bytes, and then more bytes change nothing.  The kinds
     are told apart by where the step stopped: bytes that are wanting are reported where the step stands or,
     for a count, four bytes before it, and a size of zero nine bytes before it.  The bytes at the place do
     not tell, as a string that is cut short may hold the same ones.

  3. **Steps** — this is a law of steps.  Strings and counts are shown by hand, since they name the place
     where they started and not the one where they stopped.

  4. **Loading** — so an end of input is reported in vain exactly behind a size of zero.
-/
import LuaBytecode.Proofs.Chunk.Truncation

namespace LuaBytecode

theorem LoadError.Placeless.ne_unexpectedEnd {limit : Nat} {e : LoadError} (he : e.Placeless limit)
    (item : Item) (offset : Nat) : e ≠ .unexpectedEnd item offset := by
  rintro rfl
  cases he

namespace ReadM

variable {α β : Type} {m : ReadM α} {f : α → ReadM β} {c d e : Cursor} {item : Item} {offset : Nat}

/-! ## Getting past -/

/-- The run ended further on than the place, or was refused for something other than an end of input
    there. -/
def GetsPast (item : Item) (offset : Nat) : EStateM.Result LoadError Cursor α → Prop
  | .ok _ d => offset < d.position
  | .error e _ => e ≠ .unexpectedEnd item offset

/-! ## Two kinds of want -/

/-- A string size of zero in eight bytes. -/
def zeroSize : Bytes := Format.longSizeMark :: List.replicate 8 0

/-- How more input changes a run from `c` that stopped at `d` with an end of input. -/
inductive Wants (m : ReadM α) (c d : Cursor) : Item → Nat → Prop
  /-- Not at all: the run has come to a size of zero. -/
  | nothing {start : Cursor} : c.LeadsTo start → start.unread = zeroSize ++ d.unread →
    d.position = start.position + 9 →
    (∀ more, m (c.append more) = .error (.unexpectedEnd .string start.position) (d.append more)) →
    Wants m c d .string start.position
  /-- With the right bytes it gets past. -/
  | bytes {item : Item} {offset : Nat} (more : Bytes) : d.position ≠ offset + 9 →
    GetsPast item offset (m (c.append more)) → Wants m c d item offset

/-- What the second of two steps wants, both want. -/
theorem Wants.after (hm : Steady m) {x : α} (hread : m c = .ok x d) (hmoves : c.LeadsTo d)
    (h : Wants (f x) d e item offset) : Wants (m >>= f) c e item offset := by
  have hbind (more : Bytes) : (m >>= f) (c.append more) = f x (d.append more) :=
    bind_of_ok (hm.ok hread more)
  cases h with
  | nothing hstart hzero hstop hstays =>
    exact .nothing (hmoves.trans hstart) hzero hstop fun more => (hbind more).trans (hstays more)
  | bytes more hstop hpast =>
    refine .bytes more hstop ?_
    rw [hbind]
    exact hpast

/-- What the first of two steps wants, both want, if the second does not fall back to the place. -/
theorem Wants.before (h : Wants m c d item offset)
    (hf : ∀ x d', offset < d'.position → GetsPast item offset (f x d')) :
    Wants (m >>= f) c d item offset := by
  cases h with
  | nothing hstart hzero hstop hstays =>
    exact .nothing hstart hzero hstop fun more => bind_of_error (hstays more)
  | bytes more hstop hpast =>
    refine .bytes more hstop ?_
    cases hrun : m (c.append more) with
    | ok x d' =>
      rw [hrun] at hpast
      rw [bind_of_ok hrun]
      exact hf x d' hpast
    | error e d' =>
      rw [hrun] at hpast
      rw [bind_of_error hrun]
      exact hpast

/-! ## Steps -/

/-- The step moves forward, names no place before the one it starts at, and wants bytes or has come to a
    size of zero where it reports an end of input. -/
structure Completable (m : ReadM α) : Prop where
  steady : Steady m
  moves {c d : Cursor} {x : α} : m c = .ok x d → c.LeadsTo d
  names {c d : Cursor} {item : Item} {offset : Nat} : m c = .error (.unexpectedEnd item offset) d →
    c.position ≤ offset
  wants {c d : Cursor} {item : Item} {offset : Nat} : m c = .error (.unexpectedEnd item offset) d →
    Wants m c d item offset

/-- A step that starts behind a place gets past it: it moves forward if it succeeds, and names no earlier
    place if it fails. -/
theorem Completable.getsPast (hm : Completable m) (h : offset < c.position) :
    GetsPast item offset (m c) := by
  cases hrun : m c with
  | ok x d => exact Nat.lt_of_lt_of_le h (hm.moves hrun).position_le
  | error e d =>
    rintro rfl
    exact absurd (hm.names hrun) (Nat.not_le.2 h)

theorem completable_pure (x : α) : Completable (pure x : ReadM α) where
  steady := steady_pure x
  moves h := by
    cases h
    exact .refl _
  names h := by cases h
  wants h := by cases h

theorem completable_position : Completable position where
  steady := {
    ok := fun h _ => by
      cases h
      rfl
    error := fun h => by cases h }
  moves h := by
    cases h
    exact .refl _
  names h := by cases h
  wants h := by cases h

/-- An error other than an end of input wants nothing. -/
theorem completable_throw {e : LoadError} (he : ∀ item offset, e ≠ .unexpectedEnd item offset) :
    Completable (throw e : ReadM α) where
  steady := steady_throw e
  moves h := by cases h
  names h := by
    cases h
    exact absurd rfl (he _ _)
  wants h := by
    cases h
    exact absurd rfl (he _ _)

/-- **Sequencing.**  If the first step reports the end, what lifts it lets the second begin behind the
    place; if the second does, more input does not change how the first ended. -/
theorem completable_bind (hm : Completable m) (hf : ∀ x, Completable (f x)) : Completable (m >>= f) where
  steady := steady_bind hm.steady fun x => (hf x).steady
  moves h := by
    obtain ⟨x, d, h1, h2⟩ := bind_eq_ok_iff.1 h
    exact (hm.moves h1).trans ((hf x).moves h2)
  names h := by
    rcases bind_eq_error_iff.1 h with h1 | ⟨x, d, h1, h2⟩
    · exact hm.names h1
    · exact Nat.le_trans (hm.moves h1).position_le ((hf x).names h2)
  wants h := by
    rcases bind_eq_error_iff.1 h with h1 | ⟨x, d, h1, h2⟩
    · exact (hm.wants h1).before fun x d' hpast => (hf x).getsPast hpast
    · exact .after hm.steady h1 (hm.moves h1) ((hf x).wants h2)

/-- A located step moves forward and names no place before the one it starts at, whatever the limit. -/
theorem Located.completable (hlocated : Located 0 m) (hsteady : Steady m)
    (hwants : ∀ {c d item offset}, m c = .error (.unexpectedEnd item offset) d → Wants m c d item offset) :
    Completable m where
  steady := hsteady
  moves h := (hlocated _).ok (.refl _) h
  names h := ((hlocated _).error (.refl _) h).2.1
  wants := hwants

/-- With so many bytes behind it the step of that width succeeds. -/
theorem take_append_replicate (n : Nat) (item : Item) (c : Cursor) :
    ∃ x d, take n item (c.append (List.replicate n 0)) = .ok x d ∧ d.position = c.position + n := by
  have henough : hasAtLeast n (c.append (List.replicate n 0)).unread = true := by
    rw [hasAtLeast_eq_true_iff]
    show n ≤ (c.unread ++ List.replicate n 0).length
    rw [List.length_append, List.length_replicate]
    exact Nat.le_add_left ..
  exact ⟨_, _, if_pos henough, rfl⟩

/-- Bytes that are wanting may be zeros. -/
theorem take_wants {n : Nat} {what : Item} (h : take n what c = .error (.unexpectedEnd item offset) d) :
    Wants (take n what) c d item offset := by
  obtain ⟨heq, rfl⟩ := take_eq_error h
  cases heq
  have hpos : 0 < n := by
    refine Nat.pos_of_ne_zero fun hzero => ?_
    subst hzero
    cases h
  obtain ⟨x, d', hread, hp⟩ := take_append_replicate n item d
  refine .bytes (List.replicate n 0) (by omega) ?_
  rw [hread]
  show d.position < d'.position
  omega

theorem completable_take (n : Nat) (item : Item) : Completable (take n item) :=
  (located_take n item).completable (steady_take n item) take_wants

/-- So may a single byte. -/
theorem byte_wants (h : byte c = .error (.unexpectedEnd item offset) d) : Wants byte c d item offset := by
  obtain ⟨heq, rfl⟩ := byte_eq_error h
  cases heq
  obtain ⟨unread, place⟩ := d
  cases unread with
  | nil => exact .bytes [0] (by show place ≠ place + 9; omega) (Nat.lt_succ_self place)
  | cons b rest => cases h

theorem completable_byte : Completable byte :=
  located_byte.completable steady_byte byte_wants

/-- The steps that everything else is made of. -/
theorem sequential_completable : Sequential Completable where
  pure := completable_pure
  bind := completable_bind
  take := completable_take
  byte := completable_byte

theorem completable_word64 : Completable word64 := sequential_completable.word64

/-! ### Strings -/

/-- What follows the eight-byte size of a string that starts at the given place. -/
def sizedFrom (start : Nat) (size : UInt64) : ReadM Bytes := do
  require (size ≠ 0) (.unexpectedEnd .string start)
  stringOfSize size.toNat

/-- What follows the size byte of a string that starts at the given place. -/
def stringRest (start : Nat) (size : UInt8) : ReadM Bytes :=
  if size = 0 then return []
  else if size = Format.longSizeMark then word64 >>= sizedFrom start
  else stringOfSize size.toNat

/-- A string by its parts: the place where it starts, the size byte, and what follows it. -/
theorem string_eq_rest : string = position >>= fun start => byte >>= stringRest start := rfl

/-- A size other than zero passes the check. -/
theorem sizedFrom_of_ne_zero (start : Nat) {size : UInt64} (h : size ≠ 0) :
    sizedFrom start size = stringOfSize size.toNat := by
  rw [sizedFrom, require, if_pos h]
  rfl

/-- Behind a size that was cut, no run names the size again. -/
theorem getsPast_sizedFrom (start : Nat) (size : UInt64) (h : offset < c.position) :
    GetsPast .word64 offset (sizedFrom start size c) := by
  by_cases hzero : size = 0
  · subst hzero
    intro heq
    cases heq
  · rw [sizedFrom_of_ne_zero start hzero]
    exact (completable_take _ _).getsPast h

/-- **A size of zero in eight bytes** is refused whatever follows it. -/
theorem string_wants_nothing {c1 : Cursor} (hmark : byte c = .ok Format.longSizeMark c1)
    (hzero : word64 c1 = .ok 0 d) : Wants string c d .string c.position := by
  obtain ⟨_, rfl, hu1, hp1⟩ := (accepts_byte _ _ _).1 hmark
  obtain ⟨_, rfl, hu2, hp2⟩ := (accepts_word64 _ _ _).1 hzero
  refine .nothing (.refl c) ?_ ?_ fun more => ?_
  · rw [hu1, hu2]
    rfl
  · rw [hp2, hp1, length_toLittleEndian]
    rfl
  · show (byte >>= stringRest c.position) (c.append more) = _
    rw [bind_of_ok (steady_byte.ok hmark more)]
    show (word64 >>= sizedFrom c.position) (c1.append more) = _
    rw [bind_of_ok (completable_word64.steady.ok hzero more)]
    rfl

/-- Without a size byte, a zero would make an absent string. -/
theorem string_wants_size (h : byte c = .error (.unexpectedEnd item offset) d) :
    Wants string c d item offset := by
  obtain ⟨heq, rfl⟩ := byte_eq_error h
  cases heq
  obtain ⟨unread, place⟩ := d
  cases unread with
  | nil => exact .bytes [0] (by show place ≠ place + 9; omega) (Nat.lt_succ_self place)
  | cons b rest => cases h

/-- What the rest of a string wants behind its size byte, the string wants. -/
theorem string_wants_rest {size : UInt8} {c1 : Cursor} (hbyte : byte c = .ok size c1)
    (hwants : Wants (stringRest c.position size) c1 d item offset) : Wants string c d item offset := by
  rw [string_eq_rest]
  exact .after completable_position.steady rfl (.refl c)
    (.after steady_byte hbyte (completable_byte.moves hbyte) hwants)

/-- An eight-byte size is cut, or the bytes that it announces are, or it is zero. -/
theorem sizedFrom_wants {start : Nat}
    (h : (word64 >>= sizedFrom start) c = .error (.unexpectedEnd item offset) d) :
    Wants (word64 >>= sizedFrom start) c d item offset
      ∨ (word64 c = .ok 0 d ∧ item = .string ∧ offset = start) := by
  rcases bind_eq_error_iff.1 h with hword | ⟨n, c2, hword, hsized⟩
  · refine .inl ((completable_word64.wants hword).before fun size d' hpast => ?_)
    rcases bind_eq_error_iff.1 hword with htake | ⟨_, _, _, hpure⟩
    · cases (take_eq_error htake).1
      exact getsPast_sizedFrom _ size hpast
    · cases hpure
  · by_cases hzero : n = 0
    · subst hzero
      cases hsized
      exact .inr ⟨hword, rfl, rfl⟩
    · rw [sizedFrom_of_ne_zero _ hzero] at hsized
      refine .inl (.after completable_word64.steady hword (completable_word64.moves hword) ?_)
      rw [sizedFrom_of_ne_zero _ hzero]
      exact take_wants hsized

/-- **Strings**, by where they are cut: at the size byte, or behind it as that byte says. -/
theorem string_wants (h : string c = .error (.unexpectedEnd item offset) d) :
    Wants string c d item offset := by
  have hfrom : (byte >>= stringRest c.position) c = .error (.unexpectedEnd item offset) d := h
  rcases bind_eq_error_iff.1 hfrom with hbyte | ⟨size, c1, hbyte, hrest⟩
  · exact string_wants_size hbyte
  have hafter : Wants _ _ d item offset → _ := string_wants_rest hbyte
  unfold stringRest at hrest hafter
  by_cases habsent : size = 0
  · rw [if_pos habsent] at hrest
    cases hrest
  rw [if_neg habsent] at hrest hafter
  by_cases hmark : size = Format.longSizeMark
  · rw [if_pos hmark] at hrest hafter
    rcases sizedFrom_wants hrest with hwants | ⟨hword, rfl, rfl⟩
    · exact hafter hwants
    · subst hmark
      exact string_wants_nothing hbyte hword
  · rw [if_neg hmark] at hrest hafter
    exact hafter (take_wants hrest)

theorem completable_string : Completable string := located_string.completable steady_string string_wants

/-! ### Counts and constants -/

/-- With enough bytes behind it every count is read, however large. -/
theorem exists_count_append (s : Segment) (c : Cursor) :
    ∃ more n d, count s (c.append more) = .ok n d := by
  let more : Bytes := List.replicate (4 + countBound * s.elementWidth) 0
  have hlength : (c.unread ++ more).length = c.unread.length + (4 + countBound * s.elementWidth) := by
    rw [List.length_append, List.length_replicate]
  have hfour : ((c.unread ++ more).take 4).length = 4 := by
    rw [List.length_take]
    omega
  have hn : ofLittleEndian ((c.unread ++ more).take 4) < countBound := by
    have hlt := ofLittleEndian_lt ((c.unread ++ more).take 4)
    rw [hfour] at hlt
    exact hlt
  refine ⟨more, ofLittleEndian ((c.unread ++ more).take 4), ⟨(c.unread ++ more).drop 4, c.position + 4⟩,
    (count_eq_ok_iff _ _ _ _).2 ⟨hn, ?_, ?_, rfl⟩⟩
  · have hroom := Nat.mul_le_mul_right s.elementWidth (Nat.le_of_lt hn)
    show _ ≤ ((c.unread ++ more).drop 4).length
    rw [List.length_drop]
    omega
  · have hcount := toLittleEndian_ofLittleEndian ((c.unread ++ more).take 4)
    rw [hfour] at hcount
    show c.unread ++ more = _ ++ (c.unread ++ more).drop 4
    rw [hcount, List.take_append_drop]

/-- A count is reported at its own place, whether it is cut or too large for what follows. -/
theorem count_wants {s : Segment} (h : count s c = .error (.unexpectedEnd item offset) d) :
    Wants (count s) c d item offset := by
  obtain ⟨_, heq, hstop⟩ := count_eq_error h
  cases heq
  obtain ⟨more, n, d', hread⟩ := exists_count_append s c
  have hp := ((count_eq_ok_iff _ _ _ _).1 hread).2.2.2
  refine .bytes more (by omega) ?_
  rw [hread]
  show c.position < d'.position
  rw [hp]
  exact Nat.lt_add_of_pos_right (by decide)

theorem completable_count (s : Segment) : Completable (count s) :=
  (located_count s).completable (steady_count s) count_wants

/-- An unknown tag is reported as such, so only what a tag announces can be cut. -/
theorem completable_constant : Completable constant := by
  rw [constant_eq]
  refine completable_bind completable_position fun start => completable_bind completable_byte fun tag => ?_
  refine sequential_completable.announced completable_string fun _ => completable_throw fun _ _ h => ?_
  cases h

/-- **Every step of loading** wants bytes or has come to a size of zero, at any depth. -/
theorem stepLaw_completable (limit : Nat) : StepLaw limit Completable where
  toSequential := sequential_completable
  refuse he _ := completable_throw he.ne_unexpectedEnd
  refuseHeader he := completable_throw (LoadError.placeless_of_isHeaderError limit he).ne_unexpectedEnd
  string := completable_string
  count := completable_count
  constant := completable_constant

end ReadM

/-! ## Loading -/

namespace Chunk

open ReadM

variable {limit : Nat} {bytes : Bytes} {item : Item} {offset : Nat}

/-- Loading stops behind a string size of zero in eight bytes: the size stands at the place that is named,
    and is the last that was read. -/
def StopsBehindZeroSize (limit : Nat) (bytes : Bytes) (offset : Nat) : Prop :=
  ∃ before rest, bytes = before ++ zeroSize ++ rest ∧ before.length = offset
    ∧ chunk limit (.ofBytes bytes) = .error (.unexpectedEnd .string offset) ⟨rest, offset + 9⟩

/-- An end of input is reported by what is read before the check for trailing bytes. -/
theorem content_of_loadWithin_unexpectedEnd
    (h : loadWithin limit bytes = .error (.unexpectedEnd item offset)) :
    ∃ d, content limit (.ofBytes bytes) = .error (.unexpectedEnd item offset) d := by
  cases hcontent : content limit (.ofBytes bytes) with
  | ok c d =>
    rw [loadWithin_of_content_ok hcontent] at h
    split at h <;> cases h
  | error e d =>
    rw [loadWithin_of_content_error hcontent] at h
    cases h
    exact ⟨d, rfl⟩

/-- Loading gets past an end of input where reading the content does. -/
theorem loadWithin_ne_of_getsPast (h : GetsPast item offset (content limit (.ofBytes bytes))) :
    loadWithin limit bytes ≠ .error (.unexpectedEnd item offset) := by
  intro hend
  obtain ⟨d, hcontent⟩ := content_of_loadWithin_unexpectedEnd hend
  rw [hcontent] at h
  exact h rfl

/-- Behind a size of zero, loading ends alike whatever follows. -/
theorem StopsBehindZeroSize.loadWithin_append (h : StopsBehindZeroSize limit bytes offset) (more : Bytes) :
    loadWithin limit (bytes ++ more) = .error (.unexpectedEnd .string offset) := by
  obtain ⟨_, rest, _, _, hchunk⟩ := h
  have hend : loadWithin limit bytes = .error (.unexpectedEnd .string offset) := by
    rw [loadWithin, hchunk]
  obtain ⟨d, hcontent⟩ := content_of_loadWithin_unexpectedEnd hend
  rw [chunk_eq_content_bind, bind_of_error hcontent] at hchunk
  cases hchunk
  cases (stepLaw_completable limit).content.wants hcontent with
  | nothing _ _ _ hstays => exact loadWithin_of_content_error (hstays more)
  | bytes _ hstop _ => exact absurd rfl hstop

/-- **An end of input is reported in vain exactly behind a size of zero.**  Whatever is wanting and at
    whatever depth, some more bytes let loading get past the place, unless a string size of zero in eight
    bytes stands there and was read. -/
theorem loadWithin_unexpectedEnd_lifted_iff
    (h : loadWithin limit bytes = .error (.unexpectedEnd item offset)) :
    (∃ more, loadWithin limit (bytes ++ more) ≠ .error (.unexpectedEnd item offset))
      ↔ ¬ StopsBehindZeroSize limit bytes offset := by
  obtain ⟨d, hcontent⟩ := content_of_loadWithin_unexpectedEnd h
  have hchunk : chunk limit (.ofBytes bytes) = .error (.unexpectedEnd item offset) d := by
    rw [chunk_eq_content_bind, bind_of_error hcontent]
  constructor
  · rintro ⟨more, hmore⟩ hstops
    have hitem : item = .string := by
      obtain ⟨_, _, _, _, hzero⟩ := hstops
      rw [hchunk] at hzero
      cases hzero
      rfl
    rw [hitem] at hmore
    exact hmore (hstops.loadWithin_append more)
  · intro hstops
    cases (stepLaw_completable limit).content.wants hcontent with
    | nothing hstart hzero hstop _ =>
      obtain ⟨before, hbytes, hp⟩ := hstart
      refine absurd ⟨before, d.unread, ?_, ?_, ?_⟩ hstops
      · rw [List.append_assoc, ← hzero]
        exact hbytes
      · exact (hp.trans (Nat.zero_add _)).symm
      · rw [hchunk, ← hstop]
    | bytes more _ hpast => exact ⟨more, loadWithin_ne_of_getsPast hpast⟩

/-- A main function that is cut in its source, which is to have 31 bytes and begins like a size of zero. -/
def cutSourceSample : Bytes := Format.header ++ [0, 32] ++ zeroSize

/-- What stands at the place does not decide: the sample has the bytes of a size of zero there, and loading
    gets past it. -/
theorem loadWithin_unexpectedEnd_lifted_iff_cutSourceSample :
    loadWithin 200 cutSourceSample = .error (.unexpectedEnd .string 35)
      ∧ cutSourceSample.drop 35 = zeroSize
      ∧ ∃ more, loadWithin 200 (cutSourceSample ++ more) ≠ .error (.unexpectedEnd .string 35) := by
  have hcut : loadWithin 200 cutSourceSample = .error (.unexpectedEnd .string 35) := rfl
  refine ⟨hcut, rfl, (loadWithin_unexpectedEnd_lifted_iff hcut).2 ?_⟩
  rintro ⟨_, _, _, _, hstops⟩
  cases hstops

/-- A main function with nothing in it, its source an absent string whose size is stored in eight bytes. -/
def zeroSizeSample : Bytes := Format.header ++ [0] ++ zeroSize ++ List.replicate 39 0

/-- The main source is stored with a size of zero in eight bytes, at place 34. -/
theorem stopsBehindZeroSize_zeroSizeSample : StopsBehindZeroSize 200 zeroSizeSample 34 :=
  ⟨Format.header ++ [0], List.replicate 39 0, rfl, rfl, rfl⟩

/-- **An end of input that no input lifts.**  Nothing is cut off the sample, and it is reported to end too
    early with every continuation. -/
theorem loadWithin_zeroSizeSample_never_lifted :
    loadWithin 200 zeroSizeSample = .error (.unexpectedEnd .string 34)
      ∧ ¬ ∃ more, loadWithin 200 (zeroSizeSample ++ more) ≠ .error (.unexpectedEnd .string 34) := by
  refine ⟨rfl, ?_⟩
  rintro ⟨more, hmore⟩
  exact hmore (stopsBehindZeroSize_zeroSizeSample.loadWithin_append more)

end Chunk

end LuaBytecode
