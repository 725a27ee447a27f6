/-
  Decoding undoes encoding, and bounds on what decoding can yield.

  Names are written as UTF-8 and read back with replacement, so a name survives only if the decoder
  recognises every encoded character as one character and takes exactly its bytes.  The crux is
  `decodeFrom_encodeChar_append`: in front of any rest, the bytes of a character decode to that
  character followed by the decoding of the rest.  It goes by the four lengths of an encoded character;
  at three and four bytes the second byte lies in the tighter range of its lead byte because the
  character is neither in a shorter range nor a surrogate nor above U+10FFFF.

  In the other direction nothing is undone: replacement can make text longer than its bytes.  Each byte
  starts at most one character and a character has at most four bytes, hence the factor four.
-/
import LuaBytecode.Text.Utf8

namespace LuaBytecode.Utf8

/-! ## Bytes of one character -/

/-- A code point is below the surrogates, or above them and at most U+10FFFF. -/
theorem toNat_valid (c : Char) : c.toNat < 0xD800 ∨ (0xDFFF < c.toNat ∧ c.toNat < 0x110000) :=
  c.valid

/-- A number below 256 is kept by its byte. -/
theorem toNat_byte {n : Nat} (h : n < 256) : (UInt8.ofNat n).toNat = n :=
  UInt8.toNat_ofNat_of_lt' h

theorem length_encodeChar_le (c : Char) : (encodeChar c).length ≤ 4 := by
  unfold encodeChar
  dsimp only
  split
  · simp
  · split
    · simp
    · split <;> simp

/-! ## The front of encoded text -/

/-- A lead byte with a second byte in its range hands over to the continuation bytes. -/
theorem front_lead {a b : UInt8} {l : Lead} (rest : List UInt8) (ha : 0x80 ≤ a.toNat)
    (hl : lead? a.toNat = some l) (hb : l.low ≤ b.toNat ∧ b.toNat ≤ l.high) :
    front a (b :: rest) = continuation l.more (l.payload * 0x40 + (b.toNat - 0x80)) 1 rest := by
  have hna : ¬ a.toNat < 0x80 := by omega
  simp only [front, if_neg hna, hl, if_pos hb]

/-- One more continuation byte. -/
theorem continuation_tail (more code taken n : Nat) (rest : List UInt8) :
    continuation (more + 1) code taken (UInt8.ofNat (0x80 + n % 0x40) :: rest)
      = continuation more (code * 0x40 + n % 0x40) (taken + 1) rest := by
  have hb : (UInt8.ofNat (0x80 + n % 0x40)).toNat = 0x80 + n % 0x40 := toNat_byte (by omega)
  rw [continuation, hb, if_pos (by omega), Nat.add_sub_cancel_left]

/-- The lead byte of a two-byte character. -/
theorem lead?_two {n : Nat} (hlow : 0x80 ≤ n) (hhigh : n < 0x800) :
    lead? (0xC0 + n / 0x40) = some ⟨n / 0x40, 0x80, 0xBF, 0⟩ := by
  rw [lead?, if_pos (by omega), Nat.add_sub_cancel_left]

/-- The lead byte of a three-byte character.  The second byte is in the range that the lead byte
    allows, since the character is at least U+0800 and no surrogate. -/
theorem lead?_three {n : Nat} (hlow : 0x800 ≤ n) (hhigh : n < 0x10000)
    (hsurrogate : n < 0xD800 ∨ 0xDFFF < n) :
    ∃ low high, lead? (0xE0 + n / 0x1000) = some ⟨n / 0x1000, low, high, 1⟩
      ∧ low ≤ 0x80 + n / 0x40 % 0x40 ∧ 0x80 + n / 0x40 % 0x40 ≤ high := by
  rw [lead?, if_neg (by omega)]
  split
  · -- lead byte E0: overlong forms are below A0
    rename_i h
    have hz : n / 0x1000 = 0 := by omega
    exact ⟨0xA0, 0xBF, by rw [hz], by omega, by omega⟩
  · split
    · -- lead byte ED: surrogates are above 9F
      rename_i h
      have hz : n / 0x1000 = 0xD := by omega
      exact ⟨0x80, 0x9F, by rw [hz], by omega, by omega⟩
    · rw [if_pos (by omega), Nat.add_sub_cancel_left]
      exact ⟨0x80, 0xBF, rfl, by omega, by omega⟩

/-- The lead byte of a four-byte character.  The second byte is in the range that the lead byte
    allows, since the character is at least U+10000 and at most U+10FFFF. -/
theorem lead?_four {n : Nat} (hlow : 0x10000 ≤ n) (hhigh : n < 0x110000) :
    ∃ low high, lead? (0xF0 + n / 0x40000) = some ⟨n / 0x40000, low, high, 2⟩
      ∧ low ≤ 0x80 + n / 0x1000 % 0x40 ∧ 0x80 + n / 0x1000 % 0x40 ≤ high := by
  rw [lead?, if_neg (by omega), if_neg (by omega), if_neg (by omega), if_neg (by omega)]
  split
  · -- lead byte F0: overlong forms are below 90
    rename_i h
    have hz : n / 0x40000 = 0 := by omega
    exact ⟨0x90, 0xBF, by rw [hz], by omega, by omega⟩
  · split
    · rw [Nat.add_sub_cancel_left]
      exact ⟨0x80, 0xBF, rfl, by omega, by omega⟩
    · -- lead byte F4: what is above 8F is above U+10FFFF
      rw [if_pos (by omega)]
      have hz : n / 0x40000 = 4 := by omega
      exact ⟨0x80, 0x8F, by rw [hz], by omega, by omega⟩

/-- **The front of encoded text is its first character**, covering exactly that character's bytes. -/
theorem decodeFrom_encodeChar_append (c : Char) (rest : List UInt8) :
    decodeFrom 0 (encodeChar c ++ rest) = c :: decodeFrom 0 rest := by
  have hvalid := toNat_valid c
  have hchar : Char.ofNat c.toNat = c := Char.ofNat_toNat c
  generalize hn : c.toNat = n at hvalid hchar
  unfold encodeChar
  rw [hn]
  dsimp only
  split
  · -- one byte
    rename_i h1
    have ha : (UInt8.ofNat n).toNat = n := toNat_byte (by omega)
    simp only [List.cons_append, List.nil_append, decodeFrom, front, ha, if_pos h1, hchar]
  · split
    · -- two bytes
      rename_i h1 h2
      have ha : (UInt8.ofNat (0xC0 + n / 0x40)).toNat = 0xC0 + n / 0x40 := toNat_byte (by omega)
      have hb : (UInt8.ofNat (0x80 + n % 0x40)).toNat = 0x80 + n % 0x40 := toNat_byte (by omega)
      have hf := front_lead (a := UInt8.ofNat (0xC0 + n / 0x40)) (b := UInt8.ofNat (0x80 + n % 0x40))
        rest (by omega) (by rw [ha]; exact lead?_two (by omega) h2) (by dsimp only; omega)
      rw [continuation, hb, show n / 0x40 * 0x40 + (0x80 + n % 0x40 - 0x80) = n by omega, hchar] at hf
      simp only [List.cons_append, List.nil_append, decodeFrom, hf]
    · split
      · -- three bytes
        rename_i h1 h2 h3
        obtain ⟨low, high, hl, hlow, hhigh⟩ := lead?_three (n := n) (by omega) h3 (by omega)
        have ha : (UInt8.ofNat (0xE0 + n / 0x1000)).toNat = 0xE0 + n / 0x1000 := toNat_byte (by omega)
        have hb : (UInt8.ofNat (0x80 + n / 0x40 % 0x40)).toNat = 0x80 + n / 0x40 % 0x40 :=
          toNat_byte (by omega)
        have hf := front_lead (a := UInt8.ofNat (0xE0 + n / 0x1000))
          (b := UInt8.ofNat (0x80 + n / 0x40 % 0x40)) (UInt8.ofNat (0x80 + n % 0x40) :: rest)
          (by omega) (by rw [ha]; exact hl) (by rw [hb]; exact ⟨hlow, hhigh⟩)
        rw [continuation_tail, continuation, hb,
          show (n / 0x1000 * 0x40 + (0x80 + n / 0x40 % 0x40 - 0x80)) * 0x40 + n % 0x40 = n by omega,
          hchar] at hf
        simp only [List.cons_append, List.nil_append, decodeFrom, hf]
      · -- four bytes
        rename_i h1 h2 h3
        obtain ⟨low, high, hl, hlow, hhigh⟩ := lead?_four (n := n) (by omega) (by omega)
        have ha : (UInt8.ofNat (0xF0 + n / 0x40000)).toNat = 0xF0 + n / 0x40000 := toNat_byte (by omega)
        have hb : (UInt8.ofNat (0x80 + n / 0x1000 % 0x40)).toNat = 0x80 + n / 0x1000 % 0x40 :=
          toNat_byte (by omega)
        have hf := front_lead (a := UInt8.ofNat (0xF0 + n / 0x40000))
          (b := UInt8.ofNat (0x80 + n / 0x1000 % 0x40))
          (UInt8.ofNat (0x80 + n / 0x40 % 0x40) :: UInt8.ofNat (0x80 + n % 0x40) :: rest)
          (by omega) (by rw [ha]; exact hl) (by rw [hb]; exact ⟨hlow, hhigh⟩)
        rw [continuation_tail, continuation_tail, continuation, hb,
          show ((n / 0x40000 * 0x40 + (0x80 + n / 0x1000 % 0x40 - 0x80)) * 0x40 + n / 0x40 % 0x40) * 0x40
            + n % 0x40 = n by omega, hchar] at hf
        simp only [List.cons_append, List.nil_append, decodeFrom, hf]

/-! ## Whole texts -/

/-- **Text that was encoded is decoded character by character.** -/
theorem decodeFrom_flatMap_encodeChar (cs : List Char) : decodeFrom 0 (cs.flatMap encodeChar) = cs := by
  induction cs with
  | nil => rfl
  | cons c cs ih => rw [List.flatMap_cons, decodeFrom_encodeChar_append, ih]

/-- **Decoding undoes encoding**: well-formed text is read back unchanged. -/
@[simp] theorem decode_encode (s : String) : decode (encode s) = s := by
  rw [decode, encode, decodeFrom_flatMap_encodeChar, String.ofList_toList]

/-- Only the empty byte list decodes to the empty text. -/
@[simp] theorem decode_eq_empty_iff (bytes : List UInt8) : decode bytes = "" ↔ bytes = [] := by
  rw [decode, String.ofList_eq_empty_iff]
  cases bytes with
  | nil => simp [decodeFrom]
  | cons a rest => simp [decodeFrom]

/-- Every byte starts at most one character. -/
theorem length_decodeFrom_le (covered : Nat) (bytes : List UInt8) :
    (decodeFrom covered bytes).length ≤ bytes.length := by
  induction bytes generalizing covered with
  | nil => cases covered <;> simp [decodeFrom]
  | cons a rest ih =>
    cases covered with
    | zero =>
      have := ih (front a rest).2
      simp only [decodeFrom, List.length_cons]
      omega
    | succ covered =>
      have := ih covered
      simp only [decodeFrom, List.length_cons]
      omega

/-- Four bytes for each character are enough. -/
theorem length_flatMap_encodeChar_le (cs : List Char) :
    (cs.flatMap encodeChar).length ≤ 4 * cs.length := by
  induction cs with
  | nil => simp
  | cons c cs ih =>
    have := length_encodeChar_le c
    simp only [List.flatMap_cons, List.length_append, List.length_cons]
    omega

/-- Decoding and encoding again makes a byte list at most four times as long. -/
theorem length_encode_decode_le (bytes : List UInt8) :
    (encode (decode bytes)).length ≤ 4 * bytes.length := by
  rw [encode, decode, String.toList_ofList]
  have h1 := length_flatMap_encodeChar_le (decodeFrom 0 bytes)
  have h2 := length_decodeFrom_le 0 bytes
  omega

end LuaBytecode.Utf8
