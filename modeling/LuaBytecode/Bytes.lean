/-
  Byte strings and fixed-width little-endian numbers.

  Every multi-byte number of a chunk is stored least significant byte first.  `toLittleEndian w n` writes
  the low `w` bytes of `n`, and `ofLittleEndian` reads any number of bytes back, so that reading what
  was written gives `n` modulo `256 ^ w`.
-/

namespace LuaBytecode

/-- A string of bytes. -/
abbrev Bytes := List UInt8

/-- The low `width` bytes of `n`, least significant first. -/
def toLittleEndian : Nat → Nat → Bytes
  | 0, _ => []
  | width + 1, n => UInt8.ofNat (n % 256) :: toLittleEndian width (n / 256)

/-- The number whose bytes these are, least significant first. -/
def ofLittleEndian : Bytes → Nat
  | [] => 0
  | b :: rest => b.toNat + 256 * ofLittleEndian rest

@[simp] theorem length_toLittleEndian (width n : Nat) : (toLittleEndian width n).length = width := by
  induction width generalizing n with
  | zero => rfl
  | succ w ih => simp [toLittleEndian, ih]

/-- Reading back what was written gives the number modulo the width. -/
theorem ofLittleEndian_toLittleEndian (width n : Nat) :
    ofLittleEndian (toLittleEndian width n) = n % Nat.pow 256 width := by
  induction width generalizing n with
  | zero => exact (Nat.mod_one n).symm
  | succ w ih =>
    simp only [toLittleEndian, ofLittleEndian, ih, Nat.pow_eq]
    rw [UInt8.toNat_ofNat', Nat.pow_succ' (m := 256), Nat.mod_mul, Nat.mod_mod_of_dvd _ (by decide)]

/-- Whether there are at least `n` bytes, looking at no more than `n` of them. -/
def hasAtLeast : Nat → Bytes → Bool
  | 0, _ => true
  | _ + 1, [] => false
  | n + 1, _ :: rest => hasAtLeast n rest

@[simp] theorem hasAtLeast_eq_true_iff (n : Nat) (bytes : Bytes) :
    hasAtLeast n bytes = true ↔ n ≤ bytes.length := by
  induction bytes generalizing n with
  | nil => cases n <;> simp [hasAtLeast]
  | cons b rest ih => cases n <;> simp [hasAtLeast, ih]

/-- Bytewise lexicographic order; a string comes before its extensions. -/
def compareBytes : Bytes → Bytes → Ordering
  | [], [] => .eq
  | [], _ :: _ => .lt
  | _ :: _, [] => .gt
  | a :: as, b :: bs =>
    if a.toNat < b.toNat then .lt
    else if b.toNat < a.toNat then .gt
    else compareBytes as bs

end LuaBytecode
