/-
  Reading forward through the bytes of a chunk.

  A `Cursor` is what is left of the input and the number of bytes already read.  A reading step either
  yields a value or a reason to stop, and in both cases says where it left the cursor: a caller may go on
  after a failure, from wherever the failed step got to.  A step of fixed width that finds too few bytes
  consumes none of them.

  Strings are stored behind their size.  The size counts one more than the bytes, so that zero is left to
  mean an absent string, which reads as the empty one; the size byte 255 announces that the true size
  follows in eight bytes.  Counted sequences are stored behind a four-byte count, which is checked against
  the bytes that are left before any element is read, so that no forged count can ask for more than the
  input could hold.
-/
import LuaBytecode.Chunk.Error
import LuaBytecode.Text.Utf8

namespace LuaBytecode

/-- A place in the input. -/
structure Cursor where
  /-- The bytes not read yet. -/
  unread : Bytes
  /-- The number of bytes read. -/
  position : Nat
  deriving DecidableEq

namespace Cursor

/-- The start of an input. -/
def ofBytes (bytes : Bytes) : Cursor := ⟨bytes, 0⟩

/-- The number of bytes not read yet. -/
def remaining (c : Cursor) : Nat := c.unread.length

def atEnd (c : Cursor) : Bool := c.unread.isEmpty

end Cursor

/-- A reading step: a value or the reason to stop, and the cursor after it either way. -/
abbrev ReadM := EStateM LoadError Cursor

namespace ReadM

/-! ## Fixed widths -/

/-- The next `n` bytes. -/
def take (n : Nat) (item : Item) : ReadM Bytes := fun c =>
  if hasAtLeast n c.unread then .ok (c.unread.take n) ⟨c.unread.drop n, c.position + n⟩
  else .error (.unexpectedEnd item c.position) c

/-- The next byte. -/
def byte : ReadM UInt8 := fun c =>
  match c.unread with
  | b :: rest => .ok b ⟨rest, c.position + 1⟩
  | [] => .error (.unexpectedEnd .byte c.position) c

/-- The next four bytes, as a number. -/
def word32 : ReadM UInt32 := do
  let bytes ← take 4 .word32
  return UInt32.ofNat (ofLittleEndian bytes)

/-- The next eight bytes, as a number. -/
def word64 : ReadM UInt64 := do
  let bytes ← take 8 .word64
  return UInt64.ofNat (ofLittleEndian bytes)

/-- The next eight bytes, as a signed integer. -/
def integer : ReadM Int64 := do
  let bits ← word64
  return bits.toInt64

/-- The next eight bytes, as a double. -/
def number : ReadM Binary64 := do
  let bits ← word64
  return ⟨bits⟩

/-- Goes on only if `p` holds. -/
def require (p : Prop) [Decidable p] (e : LoadError) : ReadM Unit := if p then return () else throw e

/-- The number of bytes read so far. -/
def position : ReadM Nat := fun c => .ok c.position c

/-- The number of bytes left. -/
def remaining : ReadM Nat := fun c => .ok c.remaining c

/-- Whether at least `n` bytes are left. -/
def enough (n : Nat) : ReadM Bool := fun c => .ok (hasAtLeast n c.unread) c

/-! ## Strings -/

/-- The bytes of a string of a stored size that is not zero. -/
def stringOfSize (size : Nat) : ReadM Bytes := take (size - 1) .string

/-- A string.  An eight-byte size of zero is refused, at the place where the string starts. -/
def string : ReadM Bytes := do
  let start ← position
  let size ← byte
  if size = 0 then
    return []
  else if size = Format.longSizeMark then
    let size ← word64
    require (size ≠ 0) (.unexpectedEnd .string start)
    stringOfSize size.toNat
  else stringOfSize size.toNat

/-- A string as text. -/
def name : ReadM String := do
  let bytes ← string
  return Utf8.decode bytes

/-! ## Sequences -/

/-- A count of elements of a segment.  It is refused, at its own place, if the bytes left cannot hold
    that many elements of the segment's least width. -/
def count (s : Segment) : ReadM Nat := do
  let start ← position
  let n ← word32
  let fits ← enough (n.toNat * s.elementWidth)
  require fits (.unexpectedEnd (.segment s) start)
  return n.toNat

section Elements

variable {α : Type}

/-- The same step `n` times. -/
def times (element : ReadM α) : Nat → ReadM (List α)
  | 0 => return []
  | n + 1 => do
    let x ← element
    let xs ← times element n
    return x :: xs

/-- A counted segment. -/
def segment (s : Segment) (element : ReadM α) : ReadM (List α) := do
  let n ← count s
  times element n

end Elements

end ReadM

end LuaBytecode
