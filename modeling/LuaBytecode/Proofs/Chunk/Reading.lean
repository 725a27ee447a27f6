/-
  What a reading step accepts.

  A `Form` says which byte strings stand for which values.  `Accepts m G` says that the step `m` succeeds
  exactly where the unread bytes begin with a form of `G`, that it then yields a value of that form, and
  that it consumes the form and nothing else.  It is soundness and completeness in one equivalence, for
  every rest of the input, and it passes through sequencing (`accepts_bind`): the form of two steps is
  the form of the first followed by that of the second.

  The one step that looks further than it reads is a count, which is refused if the bytes left are too
  few for so many elements.  So a count is not given a form by itself; `accepts_segment` takes the count
  and its elements together, and there the check is no loss: elements that are all present have at least
  the least width each.
-/
import LuaBytecode.Chunk.Cursor
import LuaBytecode.Proofs.Sequencing

namespace LuaBytecode

/-! ## Little-endian numbers, the other way round -/

/-- As many bytes as there are bound the number that they read as. -/
theorem ofLittleEndian_lt (bytes : Bytes) : ofLittleEndian bytes < Nat.pow 256 bytes.length := by
  induction bytes with
  | nil => decide
  | cons b rest ih =>
    have hb : b.toNat < 256 := UInt8.toNat_lt b
    simp only [ofLittleEndian, List.length_cons, Nat.pow_eq] at ih ⊢
    rw [Nat.pow_succ]
    omega

/-- Writing back what was read gives the bytes. -/
theorem toLittleEndian_ofLittleEndian (bytes : Bytes) :
    toLittleEndian bytes.length (ofLittleEndian bytes) = bytes := by
  induction bytes with
  | nil => rfl
  | cons b rest ih =>
    have hb : b.toNat < 256 := UInt8.toNat_lt b
    have hmod : (b.toNat + 256 * ofLittleEndian rest) % 256 = b.toNat := by omega
    have hdiv : (b.toNat + 256 * ofLittleEndian rest) / 256 = ofLittleEndian rest := by omega
    rw [ofLittleEndian, List.length_cons, toLittleEndian, hmod, hdiv, ih, UInt8.ofNat_toNat]

/-- The bytes of a number that fits are the bytes of that width which read as the number. -/
theorem eq_toLittleEndian_iff {width n : Nat} {bytes : Bytes} (h : n < Nat.pow 256 width) :
    bytes = toLittleEndian width n ↔ bytes.length = width ∧ ofLittleEndian bytes = n := by
  constructor
  · rintro rfl
    exact ⟨length_toLittleEndian width n,
      (ofLittleEndian_toLittleEndian width n).trans (Nat.mod_eq_of_lt h)⟩
  · rintro ⟨rfl, rfl⟩
    exact (toLittleEndian_ofLittleEndian bytes).symm

/-! ## Forms -/

/-- Which byte strings stand for which values. -/
abbrev Form (α : Type) := Bytes → α → Prop

/-- Forms one after another. -/
inductive RepeatedForm {α : Type} (G : Form α) : Form (List α)
  | nil : RepeatedForm G [] []
  | cons {form forms : Bytes} {x : α} {xs : List α} :
    G form x → RepeatedForm G forms xs → RepeatedForm G (form ++ forms) (x :: xs)

/-- Forms of a least width take at least that much each. -/
theorem RepeatedForm.width_le {α : Type} {G : Form α} {width : Nat}
    (hwidth : ∀ form x, G form x → width ≤ form.length)
    {forms : Bytes} {xs : List α} (h : RepeatedForm G forms xs) :
    xs.length * width ≤ forms.length := by
  induction h with
  | nil => simp
  | cons hx _ ih =>
    have := hwidth _ _ hx
    rw [List.length_cons, List.length_append, Nat.succ_mul]
    omega

/-- One more than the greatest count that a segment can state, `2 ^ 32`. -/
def countBound : Nat := 0x100000000

/-- A four-byte count, then that many forms. -/
def SegmentForm {α : Type} (G : Form α) : Form (List α) := fun form xs =>
  ∃ elements, xs.length < countBound ∧ form = toLittleEndian 4 xs.length ++ elements
    ∧ RepeatedForm G elements xs

/-- One more than the greatest size that a string can state, `2 ^ 64`. -/
def sizeBound : Nat := 0x10000000000000000

/-- A string: absent, or its length plus one in a byte below the mark, or the mark and its length plus
    one in eight bytes, whether or not one byte would have done. -/
inductive StringForm : Form Bytes
  | absent : StringForm [0x00] []
  | short {bytes : Bytes} : bytes.length + 1 ≤ 254 →
    StringForm (UInt8.ofNat (bytes.length + 1) :: bytes) bytes
  | long {bytes : Bytes} : bytes.length + 1 < sizeBound →
    StringForm (0xFF :: toLittleEndian 8 (bytes.length + 1) ++ bytes) bytes

/-- A string that is read as text, whatever is not UTF-8 being replaced. -/
def NameForm : Form String := fun form s => ∃ bytes, StringForm form bytes ∧ s = Utf8.decode bytes

def Word32Form : Form UInt32 := fun form n => form = toLittleEndian 4 n.toNat

def Word64Form : Form UInt64 := fun form n => form = toLittleEndian 8 n.toNat

/-! ## Acceptance -/

namespace ReadM

section Acceptance

variable {α β : Type} {m : ReadM α} {G H : Form α}

/-- The step succeeds exactly on the forms of `G`, yields what they stand for, and consumes them and
    nothing else. -/
def Accepts (m : ReadM α) (G : Form α) : Prop :=
  ∀ c x d, m c = .ok x d ↔
    ∃ form, G form x ∧ c.unread = form ++ d.unread ∧ d.position = c.position + form.length

/-- A form in front of any rest is read. -/
theorem Accepts.read (hm : Accepts m G) {form : Bytes} {x : α} (h : G form x) (rest : Bytes)
    (position : Nat) : m ⟨form ++ rest, position⟩ = .ok x ⟨rest, position + form.length⟩ :=
  (hm _ _ _).2 ⟨form, h, rfl, rfl⟩

/-- What a step accepts depends only on which bytes stand for which values. -/
theorem Accepts.of_iff (hm : Accepts m G) (h : ∀ form x, G form x ↔ H form x) : Accepts m H := by
  intro c x d
  rw [hm c x d]
  constructor
  · rintro ⟨form, hG, hrest⟩
    exact ⟨form, (h form x).1 hG, hrest⟩
  · rintro ⟨form, hH, hrest⟩
    exact ⟨form, (h form x).2 hH, hrest⟩

theorem accepts_pure (x : α) : Accepts (pure x) (fun form y => form = [] ∧ y = x) := by
  intro c y d
  show EStateM.Result.ok x c = .ok y d ↔ _
  constructor
  · rintro h
    cases h
    exact ⟨[], ⟨rfl, rfl⟩, rfl, rfl⟩
  · rintro ⟨_, ⟨rfl, rfl⟩, hu, hp⟩
    cases c; cases d
    simp_all

/-- The form of two steps is the form of the first followed by that of the second. -/
theorem accepts_bind {f : α → ReadM β} {K : α → Form β} (hm : Accepts m G)
    (hf : ∀ x, Accepts (f x) (K x)) :
    Accepts (m >>= f) (fun form y => ∃ x a b, G a x ∧ K x b y ∧ form = a ++ b) := by
  intro c y e
  rw [bind_eq_ok_iff]
  constructor
  · rintro ⟨x, d, h1, h2⟩
    obtain ⟨a, hG, hcu, hcp⟩ := (hm c x d).1 h1
    obtain ⟨b, hK, hdu, hdp⟩ := (hf x d y e).1 h2
    refine ⟨a ++ b, ⟨x, a, b, hG, hK, rfl⟩, ?_, ?_⟩
    · rw [hcu, hdu, List.append_assoc]
    · rw [hdp, hcp, List.length_append, Nat.add_assoc]
  · rintro ⟨_, ⟨x, a, b, hG, hK, rfl⟩, hu, hp⟩
    refine ⟨x, ⟨b ++ e.unread, c.position + a.length⟩, ?_, ?_⟩
    · exact (hm _ _ _).2 ⟨a, hG, by rw [hu, List.append_assoc], rfl⟩
    · exact (hf x _ _ _).2 ⟨b, hK, rfl, by rw [hp, List.length_append, Nat.add_assoc]⟩

/-- A step whose value is only transformed. -/
theorem accepts_map (hm : Accepts m G) (f : α → β) :
    Accepts (m >>= fun x => pure (f x)) (fun form y => ∃ x, G form x ∧ y = f x) := by
  refine (accepts_bind hm fun x => accepts_pure (f x)).of_iff fun form y => ?_
  constructor
  · rintro ⟨x, a, b, hG, ⟨rfl, rfl⟩, rfl⟩
    exact ⟨x, by rwa [List.append_nil], rfl⟩
  · rintro ⟨x, hG, rfl⟩
    exact ⟨x, form, [], hG, ⟨rfl, rfl⟩, (List.append_nil form).symm⟩

/-- A step whose value is only wrapped up accepts the forms of what is wrapped. -/
theorem accepts_wrap (hm : Accepts m G) {f : α → β} {g : β → α} (hfg : ∀ y, f (g y) = y)
    (hgf : ∀ x, g (f x) = x) :
    Accepts (m >>= fun x => pure (f x)) (fun form y => G form (g y)) := by
  refine (accepts_map hm f).of_iff fun form y => ?_
  constructor
  · rintro ⟨x, hx, rfl⟩
    rw [hgf]
    exact hx
  · intro h
    exact ⟨g y, h, (hfg y).symm⟩

/-- Where a step stands does not matter to what it accepts. -/
theorem accepts_position_bind {f : Nat → ReadM α} (hf : ∀ n, Accepts (f n) G) :
    Accepts (position >>= f) G :=
  fun c x d => hf c.position c x d

theorem accepts_throw (e : LoadError) : Accepts (throw e : ReadM α) (fun _ _ => False) := by
  intro c x d
  show EStateM.Result.error e c = .ok x d ↔ _
  simp

/-- A requirement consumes nothing and is accepted where it holds. -/
theorem accepts_require (p : Prop) [Decidable p] (e : LoadError) :
    Accepts (require p e) (fun form _ => form = [] ∧ p) := by
  unfold require
  split
  · rename_i hp
    exact (accepts_pure ()).of_iff fun form _ => by simp [hp]
  · rename_i hp
    exact (accepts_throw e).of_iff fun form _ => by simp [hp]

/-- What a choice accepts is the same choice between what its branches accept. -/
theorem accepts_ite {p : Prop} [Decidable p] {n : ReadM α} (hm : Accepts m G) (hn : Accepts n H) :
    Accepts (if p then m else n) (fun form x => if p then G form x else H form x) := by
  split
  · rename_i hp
    simpa only [if_pos hp] using hm
  · rename_i hp
    simpa only [if_neg hp] using hn

end Acceptance

/-! ## Fixed widths -/

/-- Any bytes of the right number are taken as they are. -/
theorem accepts_take (n : Nat) (item : Item) :
    Accepts (take n item) (fun form x => x = form ∧ form.length = n) := by
  intro c x d
  unfold take
  by_cases h : n ≤ c.unread.length
  · rw [if_pos ((hasAtLeast_eq_true_iff _ _).2 h)]
    constructor
    · intro heq
      cases heq
      refine ⟨c.unread.take n, ⟨rfl, by simp [h]⟩, by simp, by simp [h]⟩
    · rintro ⟨form, ⟨rfl, rfl⟩, hu, hp⟩
      rw [hu, List.take_left, List.drop_left, ← hp]
  · rw [if_neg (fun hh => h ((hasAtLeast_eq_true_iff _ _).1 hh))]
    constructor
    · intro heq
      cases heq
    · rintro ⟨form, ⟨rfl, rfl⟩, hu, hp⟩
      rw [hu, List.length_append] at h
      omega

theorem accepts_byte : Accepts byte (fun form b => form = [b]) := by
  intro c b d
  obtain ⟨unread, pos⟩ := c
  obtain ⟨unread', pos'⟩ := d
  unfold byte
  cases unread with
  | nil => simp
  | cons a rest =>
    constructor
    · intro h
      cases h
      exact ⟨[b], rfl, rfl, rfl⟩
    · rintro ⟨_, rfl, hu, hp⟩
      obtain ⟨rfl, rfl⟩ := List.cons.inj hu
      rw [show pos' = pos + 1 from hp]

/-- A number of a fixed width is the bytes that are read for it. -/
theorem accepts_littleEndian {α : Type} (width : Nat) (item : Item) {ofNat : Nat → α} {toNat : α → Nat}
    (hlt : ∀ x, toNat x < Nat.pow 256 width) (hof : ∀ x, ofNat (toNat x) = x)
    (hto : ∀ n, n < Nat.pow 256 width → toNat (ofNat n) = n) :
    Accepts (take width item >>= fun bytes => pure (ofNat (ofLittleEndian bytes)))
      (fun form x => form = toLittleEndian width (toNat x)) := by
  refine (accepts_map (accepts_take width item) _).of_iff fun form x => ?_
  rw [eq_toLittleEndian_iff (hlt x)]
  constructor
  · rintro ⟨bytes, ⟨rfl, hlen⟩, rfl⟩
    have hbytes := ofLittleEndian_lt bytes
    rw [hlen] at hbytes
    exact ⟨hlen, (hto _ hbytes).symm⟩
  · rintro ⟨hlen, heq⟩
    exact ⟨form, ⟨rfl, hlen⟩, by rw [heq, hof]⟩

theorem accepts_word32 : Accepts word32 Word32Form :=
  accepts_littleEndian 4 .word32 UInt32.toNat_lt (fun _ => UInt32.ofNat_toNat)
    (fun _ => UInt32.toNat_ofNat_of_lt')

theorem accepts_word64 : Accepts word64 Word64Form :=
  accepts_littleEndian 8 .word64 UInt64.toNat_lt (fun _ => UInt64.ofNat_toNat)
    (fun _ => UInt64.toNat_ofNat_of_lt')

/-! ## Strings -/

/-- A step that reads a byte and goes on as it says accepts a form if, after each byte, it accepts what is
    left of the forms that begin with it. -/
theorem accepts_dispatch {α : Type} {f : UInt8 → ReadM α} {G : Form α} (hnil : ∀ x, ¬ G [] x)
    (hf : ∀ tag, Accepts (f tag) (fun form x => G (tag :: form) x)) : Accepts (byte >>= f) G := by
  refine (accepts_bind accepts_byte hf).of_iff fun form x => ?_
  constructor
  · rintro ⟨tag, _, rest, rfl, hrest, rfl⟩
    exact hrest
  · intro h
    cases form with
    | nil => exact absurd h (hnil x)
    | cons tag rest => exact ⟨tag, [tag], rest, rfl, h, rfl⟩

/-- After the size zero there is nothing left of a string. -/
theorem accepts_absentString : Accepts (pure []) (fun form x => StringForm (0x00 :: form) x) := by
  refine (accepts_pure []).of_iff fun form x => ⟨?_, ?_⟩
  · rintro ⟨rfl, rfl⟩
    exact .absent
  · generalize hform : (0x00 : UInt8) :: form = whole
    intro h
    cases h with
    | absent =>
      cases hform
      exact ⟨rfl, rfl⟩
    | short hlength =>
      -- a length plus one below the mark is no zero byte
      have hsize := congrArg UInt8.toNat (List.cons.inj hform).1
      rw [UInt8.toNat_ofNat_of_lt' (Nat.lt_of_le_of_lt hlength (by decide))] at hsize
      cases hsize
    | long hlength => cases hform

/-- After the mark the size is in eight bytes, and is not zero. -/
theorem accepts_longString (start : Nat) :
    Accepts (do
      let n ← word64
      require (n ≠ 0) (.unexpectedEnd .string start)
      take (n.toNat - 1) .string) (fun form x => StringForm (Format.longSizeMark :: form) x) := by
  refine (accepts_bind accepts_word64 fun n => accepts_bind
    (accepts_require (n ≠ 0) (.unexpectedEnd .string start)) fun _ =>
      accepts_take (n.toNat - 1) .string).of_iff fun form x => ⟨?_, ?_⟩
  · rintro ⟨n, _, bytes, rfl, ⟨_, _, _, ⟨rfl, hn⟩, ⟨rfl, hlen⟩, rfl⟩, rfl⟩
    have hpos : n.toNat ≠ 0 := fun h => hn (UInt64.toNat_inj.1 h)
    have hsize : n.toNat = bytes.length + 1 := by omega
    have hlt : n.toNat < sizeBound := UInt64.toNat_lt n
    rw [Format.longSizeMark, hsize]
    exact .long (by omega)
  · generalize hform : Format.longSizeMark :: form = whole
    intro h
    cases h with
    | absent => cases hform
    | short hlength =>
      have hsize := congrArg UInt8.toNat (List.cons.inj hform).1
      rw [UInt8.toNat_ofNat_of_lt' (Nat.lt_of_le_of_lt hlength (by decide))] at hsize
      have : (255 : Nat) = x.length + 1 := hsize
      omega
    | long hlength =>
      obtain ⟨-, rfl⟩ := List.cons.inj hform
      have hsize : (UInt64.ofNat (x.length + 1)).toNat = x.length + 1 := UInt64.toNat_ofNat_of_lt' hlength
      refine ⟨UInt64.ofNat (x.length + 1), _, x, ?_, ⟨(), [], x, ⟨rfl, ?_⟩, ⟨rfl, by omega⟩, rfl⟩, rfl⟩
      · rw [Word64Form, hsize]
      · intro hzero
        rw [hzero] at hsize
        cases hsize

/-- After any other byte there are as many bytes as it says, less one. -/
theorem accepts_shortString {size : UInt8} (hzero : size ≠ 0) (hmark : size ≠ Format.longSizeMark) :
    Accepts (take (size.toNat - 1) .string) (fun form x => StringForm (size :: form) x) := by
  have hpos : size.toNat ≠ 0 := fun h => hzero (UInt8.toNat_inj.1 h)
  have hne : size.toNat ≠ 255 := fun h => hmark (UInt8.toNat_inj.1 h)
  have hlt := UInt8.toNat_lt size
  refine (accepts_take (size.toNat - 1) .string).of_iff fun form x => ⟨?_, ?_⟩
  · rintro ⟨rfl, hlen⟩
    have hsize : size = UInt8.ofNat (x.length + 1) := by
      rw [show x.length + 1 = size.toNat by omega, UInt8.ofNat_toNat]
    rw [hsize]
    exact .short (by omega)
  · generalize hform : size :: form = whole
    intro h
    cases h with
    | absent => exact absurd (List.cons.inj hform).1 hzero
    | short hlength =>
      obtain ⟨rfl, rfl⟩ := List.cons.inj hform
      rw [UInt8.toNat_ofNat_of_lt' (Nat.lt_of_le_of_lt hlength (by decide))]
      exact ⟨rfl, rfl⟩
    | long hlength => exact absurd (List.cons.inj hform).1 hmark

/-- **Strings**, by the first byte of their size. -/
theorem accepts_string : Accepts string StringForm := by
  refine accepts_position_bind fun start => accepts_dispatch (fun x h => by cases h) fun size => ?_
  by_cases hzero : size = 0
  · subst hzero
    exact accepts_absentString
  · rw [if_neg hzero]
    by_cases hmark : size = Format.longSizeMark
    · subst hmark
      exact accepts_longString start
    · rw [if_neg hmark]
      exact accepts_shortString hzero hmark

theorem accepts_name : Accepts name NameForm := accepts_map accepts_string Utf8.decode

/-! ## Sequences -/

section Elements

variable {α : Type} {element : ReadM α} {G : Form α}

/-- **Repetition**, by induction on the number of times. -/
theorem accepts_times (he : Accepts element G) (n : Nat) :
    Accepts (times element n) (fun form xs => xs.length = n ∧ RepeatedForm G form xs) := by
  induction n with
  | zero =>
    refine (accepts_pure []).of_iff fun form xs => ?_
    constructor
    · rintro ⟨rfl, rfl⟩
      exact ⟨rfl, .nil⟩
    · rintro ⟨hlen, h⟩
      cases h with
      | nil => exact ⟨rfl, rfl⟩
      | cons => cases hlen
  | succ n ih =>
    refine (accepts_bind he fun x => accepts_map ih (x :: ·)).of_iff fun form xs => ?_
    constructor
    · rintro ⟨x, a, b, hx, ⟨ys, ⟨hlen, hys⟩, rfl⟩, rfl⟩
      exact ⟨by rw [List.length_cons, hlen], .cons hx hys⟩
    · rintro ⟨hlen, h⟩
      cases h with
      | nil => cases hlen
      | cons hx hxs => exact ⟨_, _, _, hx, ⟨_, ⟨Nat.succ.inj hlen, hxs⟩, rfl⟩, rfl⟩

/-- A count is four bytes, and there is room for that many elements behind it. -/
theorem count_eq_ok_iff (s : Segment) (c d : Cursor) (n : Nat) :
    count s c = .ok n d ↔ n < countBound ∧ n * s.elementWidth ≤ d.unread.length
      ∧ c.unread = toLittleEndian 4 n ++ d.unread ∧ d.position = c.position + 4 := by
  constructor
  · intro h
    obtain ⟨_, _, hstart, h⟩ := bind_eq_ok_iff.1 h
    cases hstart
    obtain ⟨w, e, hw, h⟩ := bind_eq_ok_iff.1 h
    obtain ⟨_, rfl, hu, hp⟩ := (accepts_word32 _ _ _).1 hw
    -- what is compared is the bytes left behind the count
    obtain ⟨fits, _, hfits, h⟩ := bind_eq_ok_iff.1 h
    cases hfits
    obtain ⟨_, _, hreq, h⟩ := bind_eq_ok_iff.1 h
    obtain ⟨_, ⟨rfl, hroom⟩, heu, hep⟩ := (accepts_require _ _ _ _ _).1 hreq
    cases h
    rw [hasAtLeast_eq_true_iff] at hroom
    rw [List.nil_append] at heu
    exact ⟨UInt32.toNat_lt w, heu ▸ hroom, heu ▸ hu, by rw [hep, hp, length_toLittleEndian]; rfl⟩
  · rintro ⟨hn, hroom, hu, hp⟩
    have hw : (UInt32.ofNat n).toNat = n := UInt32.toNat_ofNat_of_lt' hn
    refine bind_eq_ok_iff.2 ⟨_, _, rfl, ?_⟩
    refine bind_eq_ok_iff.2 ⟨UInt32.ofNat n, d, ?_, ?_⟩
    · exact (accepts_word32 _ _ _).2 ⟨_, rfl, by rw [hw, hu], by rw [hp, length_toLittleEndian]⟩
    · refine bind_eq_ok_iff.2 ⟨_, _, rfl, ?_⟩
      rw [hw]
      refine bind_eq_ok_iff.2 ⟨(), d, ?_, rfl⟩
      exact (accepts_require _ _ _ _ _).2 ⟨[], ⟨rfl, (hasAtLeast_eq_true_iff _ _).2 hroom⟩, rfl, rfl⟩

/-- **A segment is its count and its elements**: the check of the count against the bytes left refuses
    nothing if no element is shorter than the least width. -/
theorem accepts_segment (s : Segment) (he : Accepts element G)
    (hwidth : ∀ form x, G form x → s.elementWidth ≤ form.length) :
    Accepts (segment s element) (SegmentForm G) := by
  intro c xs e
  unfold segment
  rw [bind_eq_ok_iff]
  constructor
  · rintro ⟨n, d, hcount, helements⟩
    obtain ⟨hn, _, hcu, hcp⟩ := (count_eq_ok_iff _ _ _ _).1 hcount
    obtain ⟨form, ⟨rfl, hform⟩, hdu, hdp⟩ := (accepts_times he n _ _ _).1 helements
    refine ⟨_, ⟨form, hn, rfl, hform⟩, ?_, ?_⟩
    · rw [hcu, hdu, List.append_assoc]
    · rw [hdp, hcp, List.length_append, length_toLittleEndian, Nat.add_assoc]
  · rintro ⟨_, ⟨form, hn, rfl, hform⟩, hu, hp⟩
    rw [List.length_append, length_toLittleEndian, ← Nat.add_assoc] at hp
    refine ⟨xs.length, ⟨form ++ e.unread, c.position + 4⟩, ?_, ?_⟩
    · -- the elements are all there, so the bytes left are enough for so many
      have hroom := hform.width_le hwidth
      refine (count_eq_ok_iff _ _ _ _).2 ⟨hn, ?_, by rw [hu, List.append_assoc], rfl⟩
      rw [List.length_append]
      omega
    · exact (accepts_times he _ _ _ _).2 ⟨form, ⟨rfl, hform⟩, rfl, hp⟩

end Elements

/-! ## Refusal -/

section Refusal

variable {α β : Type} {m : ReadM α} {G : Form α} {E : LoadError → Prop}

/-- The step fails on the bytes, whatever follows them, and for a reason in `E`. -/
def Refuses (m : ReadM α) (bytes : Bytes) (E : LoadError → Prop) : Prop :=
  ∀ rest position, ∃ e d, m ⟨bytes ++ rest, position⟩ = .error e d ∧ E e

/-- A refusal with one of some errors is one with one of more errors. -/
theorem Refuses.mono {bytes : Bytes} {E' : LoadError → Prop} (h : Refuses m bytes E)
    (hE : ∀ e, E e → E' e) : Refuses m bytes E' := by
  intro rest position
  obtain ⟨e, d, hm, he⟩ := h rest position
  exact ⟨e, d, hm, hE e he⟩

/-- What is refused stays refused with more behind it. -/
theorem Refuses.append {a : Bytes} (h : Refuses m a E) (b : Bytes) : Refuses m (a ++ b) E := by
  intro rest position
  rw [List.append_assoc]
  exact h (b ++ rest) position

/-- What the first step refuses, both refuse. -/
theorem Refuses.bind {f : α → ReadM β} {a : Bytes} (h : Refuses m a E) : Refuses (m >>= f) a E := by
  intro rest position
  obtain ⟨e, d, hm, he⟩ := h rest position
  exact ⟨e, d, bind_eq_error_iff.2 (Or.inl hm), he⟩

/-- What the second step refuses, both refuse behind a form of the first. -/
theorem Accepts.refuses_bind {f : α → ReadM β} {a b : Bytes} {x : α} (hm : Accepts m G) (hx : G a x)
    (hf : Refuses (f x) b E) : Refuses (m >>= f) (a ++ b) E := by
  intro rest position
  obtain ⟨e, d, hfx, he⟩ := hf rest (position + a.length)
  refine ⟨e, d, bind_eq_error_iff.2 (Or.inr ⟨x, _, ?_, hfx⟩), he⟩
  rw [List.append_assoc]
  exact hm.read hx _ _

theorem refuses_throw {e : LoadError} (he : E e) (bytes : Bytes) :
    Refuses (throw e : ReadM α) bytes E :=
  fun _ _ => ⟨e, _, rfl, he⟩

/-- A requirement that does not hold refuses any input. -/
theorem refuses_require {p : Prop} [Decidable p] {e : LoadError} (hp : ¬ p) (he : E e)
    (bytes : Bytes) : Refuses (require p e) bytes E := by
  rw [require, if_neg hp]
  exact refuses_throw he bytes

/-- A sequence is refused if one of its elements is, those before it being in form. -/
theorem Accepts.refuses_times {γ : Type} {encode : γ → Bytes} {good : γ → Prop} (hm : Accepts m G)
    {xs : List γ} (hgood : ∀ x ∈ xs, good x → ∃ y, G (encode x) y)
    (hbad : ∀ x ∈ xs, ¬ good x → Refuses m (encode x) E) (hsome : ¬ ∀ x ∈ xs, good x) :
    Refuses (times m xs.length) (xs.flatMap encode) E := by
  induction xs with
  | nil => exact absurd (fun x hx => by cases hx) hsome
  | cons x xs ih =>
    rw [List.flatMap_cons]
    by_cases hx : good x
    · obtain ⟨y, hy⟩ := hgood x (List.mem_cons_self ..) hx
      refine hm.refuses_bind hy ?_
      have hrest : ¬ ∀ y ∈ xs, good y := fun h => hsome (List.forall_mem_cons.2 ⟨hx, h⟩)
      exact (ih (fun y hy => hgood y (List.mem_cons_of_mem x hy))
        (fun y hy => hbad y (List.mem_cons_of_mem x hy)) hrest).bind
    · exact ((hbad x (List.mem_cons_self ..) hx).append _).bind

/-- A segment is refused if its elements are, once its count has passed the check. -/
theorem Refuses.segment {s : Segment} {n : Nat} {bytes : Bytes} (h : Refuses (times m n) bytes E)
    (hcount : n < countBound) (hroom : n * s.elementWidth ≤ bytes.length) :
    Refuses (segment s m) (toLittleEndian 4 n ++ bytes) E := by
  intro rest position
  obtain ⟨e, d, hm, he⟩ := h rest (position + 4)
  refine ⟨e, d, bind_eq_error_iff.2 (Or.inr ⟨n, _, ?_, hm⟩), he⟩
  refine (count_eq_ok_iff _ _ _ _).2 ⟨hcount, ?_, List.append_assoc _ _ _, rfl⟩
  rw [List.length_append]
  omega

end Refusal

end ReadM

end LuaBytecode
