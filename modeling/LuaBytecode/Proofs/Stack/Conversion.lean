/-
  Numbers turn into strings in place.

  Asking for the string at an index changes the stack if a number is there: the number is replaced by its text.
  Everything follows from what is at the index (`get?`), in three cases: no value or one that does not read as
  a string, a string, a number.  Only the last writes, and it writes one slot.

  Afterwards there is a string at the index, so asking again is the second case, at whatever index that reaches
  the same slot; and a string is no number, so the two numeric views are gone.  An index and its mirror image
  reach the same slot as long as the height is an index itself.
-/
import LuaBytecode.Proofs.Stack.Atomicity

namespace LuaBytecode

namespace Stack

variable {s : Stack} {index : Int} {k : Nat} {v : Value}

/-- The index of the same value, counted from the other end. -/
def mirrored (s : Stack) (index : Int) : Int :=
  if index < 0 then index + 1 + s.top else index - 1 - s.top

/-- An index that addresses a value and its mirror image address the same slot. -/
theorem slotOf?_mirrored (htop : s.top < indexBound) (h : s.slotOf? index = some k) :
    s.slotOf? (s.mirrored index) = some k := by
  unfold slotOf? isValid at h ⊢
  have hsame : 0 < s.absIndex index ∧ s.absIndex index ≤ s.top →
      s.absIndex (s.mirrored index) = s.absIndex index := by
    unfold absIndex mirrored
    rw [topIndex_of_lt htop]
    intro hvalid
    split at hvalid
    · rename_i hneg
      rw [if_pos hneg, if_pos hneg, if_neg (by omega)]
    · rename_i hneg
      rw [if_neg hneg, if_neg hneg, if_pos (by omega)]
      omega
  split at h
  · rename_i hvalid
    rw [hsame (of_decide_eq_true hvalid), if_pos hvalid]
    exact h
  · cases h

theorem slotOf?_of_index_or_mirrored {other : Int} (hk : s.slotOf? index = some k)
    (h : other = index ∨ s.top < indexBound ∧ other = s.mirrored index) : s.slotOf? other = some k := by
  rcases h with rfl | ⟨htop, rfl⟩
  · exact hk
  · exact slotOf?_mirrored htop hk

/-- A value that is addressed is in a slot. -/
theorem exists_slot_of_get? (h : s.get? index = some v) : ∃ k, s.slotOf? index = some k ∧ s.slots[k]? = some v :=
  Option.bind_eq_some_iff.1 h

/-- And a value in a slot is addressed by the indices of the slot. -/
theorem get?_of_slot (hk : s.slotOf? index = some k) (hv : s.slots[k]? = some v) : s.get? index = some v :=
  Option.bind_eq_some_iff.2 ⟨k, hk, hv⟩

/-- What reads as a string is a number or a string. -/
theorem isString_iff :
    s.isString index = true ↔ ∃ v, s.get? index = some v ∧ (v.isNumber = true ∨ ∃ bytes, v = .str bytes) := by
  unfold isString kindAt
  cases hv : s.get? index with
  | none => simp
  | some v => cases v <;> simp [Value.kind, Value.isNumber]

end Stack

open Stack

namespace StackM

variable {s : Stack} {index : Int} {k : Nat} {v : Value} {bytes : Bytes}

/-! ## The three cases -/

/-- Reading a value is looking it up, and leaves the stack alone. -/
theorem load?_of_top_le (hs : s.top ≤ s.capacity) (index : Int) : load? index s = .ok (s.get? index) s := by
  rw [eq_row hs, load?_row, get?_row]

/-- What does not read as a string is left alone. -/
theorem toString?_of_not_isString (hs : s.top ≤ s.capacity) (h : s.isString index = false) :
    toString? index s = .ok none s := by
  rw [Bool.eq_false_iff, Ne, isString_iff] at h
  rw [toString?, bind_of_ok (load?_of_top_le hs index)]
  cases hv : s.get? index with
  | none => rfl
  | some v =>
    cases v with
    | nil | bool b => rfl
    | int n | float f => exact absurd ⟨_, hv, .inl rfl⟩ h
    | str bytes => exact absurd ⟨_, hv, .inr ⟨bytes, rfl⟩⟩ h

/-- A string is answered as it is. -/
theorem toString?_of_str (hs : s.top ≤ s.capacity) (h : s.get? index = some (.str bytes)) :
    toString? index s = .ok (some bytes) s := by
  rw [toString?, bind_of_ok (load?_of_top_le hs index), h]
  rfl

/-- A number is replaced by its text. -/
theorem toString?_of_number (hs : s.top ≤ s.capacity) (hk : s.slotOf? index = some k)
    (hv : s.slots[k]? = some v) (hnumber : v.isNumber = true) :
    ∃ hlt : k < s.slots.size, toString? index s
      = .ok (some (Utf8.encode v.text)) { s with slots := s.slots.set k (.str (Utf8.encode v.text)) hlt } := by
  have hlt : k < s.slots.size := (Array.getElem?_eq_some_iff.1 hv).1
  have hstore : store index (.str (Utf8.encode v.text)) s
      = .ok () { s with slots := s.slots.set k (.str (Utf8.encode v.text)) hlt } := by
    rw [store, get_bind, hk]
    exact dif_pos hlt
  refine ⟨hlt, ?_⟩
  rw [toString?, bind_of_ok (load?_of_top_le hs index), get?_of_slot hk hv]
  cases v with
  | int n => exact bind_of_ok hstore
  | float f => exact bind_of_ok hstore
  | nil | bool b | str bytes => cases hnumber

/-! ## Afterwards -/

/-- What can be seen at an index where there is a string: asking for it again yields it and changes nothing, its kind
    is that of strings, and it has no numeric view. -/
structure ShowsString (t : Stack) (index : Int) (bytes : Bytes) : Prop where
  toString? : StackM.toString? index t = .ok (some bytes) t
  toStringD : StackM.toStringD index t = .ok bytes t
  kindAt : t.kindAt index = .string
  toNumber? : t.toNumber? index = none
  toInteger? : t.toInteger? index = none

/-- All views of a string follow from its being there. -/
theorem showsString_of_str (hs : s.top ≤ s.capacity) (h : s.get? index = some (.str bytes)) :
    ShowsString s index bytes := by
  have hrun := toString?_of_str hs h
  constructor
  · exact hrun
  · exact bind_of_ok hrun
  · rw [Stack.kindAt, h]
    rfl
  · rw [Stack.toNumber?, h]
    rfl
  · rw [Stack.toInteger?, h]
    rfl

/-! ## In place -/

/-- What asking for the string at an index of `s` does, with its result and the stack `t` that it leaves. -/
structure ConvertsInPlace (s : Stack) (index : Int) (result : Option Bytes) (t : Stack) : Prop where
  /-- There is a result exactly where there is a string or a number. -/
  isSome_iff : result.isSome = true ↔ s.isString index = true
  /-- A number is replaced by its text, and nothing else changes. -/
  ofNumber : ∀ k v, s.slotOf? index = some k → s.slots[k]? = some v → v.isNumber = true →
    result = some (Utf8.encode v.text)
    ∧ t.slots[k]? = some (.str (Utf8.encode v.text))
    ∧ (∀ j, j ≠ k → t.slots[j]? = s.slots[j]?) ∧ t.top = s.top ∧ t.capacity = s.capacity
  ofString : ∀ bytes, s.get? index = some (.str bytes) → result = some bytes ∧ t = s
  ofNone : result = none → t = s
  /-- A result is there to stay, at the index and, if the height is an index, at its mirror image. -/
  again : ∀ bytes, result = some bytes →
    ∀ other, other = index ∨ s.top < indexBound ∧ other = s.mirrored index → ShowsString t other bytes

/-- Nothing to convert: there is no value, or one of another kind. -/
theorem convertsInPlace_none (hread : s.isString index = false) : ConvertsInPlace s index none s := by
  have hother {v : Value} (hv : s.get? index = some v) :
      ¬ (v.isNumber = true ∨ ∃ bytes, v = .str bytes) := by
    intro hkind
    rw [isString_iff.2 ⟨v, hv, hkind⟩] at hread
    cases hread
  constructor
  case isSome_iff => rw [hread, Option.isSome_none]
  case ofNumber =>
    intro k v hk hv hnumber
    exact absurd (.inl hnumber) (hother (get?_of_slot hk hv))
  case ofString =>
    intro bytes hbytes
    exact absurd (.inr ⟨bytes, rfl⟩) (hother hbytes)
  case ofNone => exact fun _ => rfl
  case again =>
    intro bytes hbytes
    cases hbytes

/-- Nothing to convert: the value is a string already. -/
theorem convertsInPlace_str (hs : s.top ≤ s.capacity) (hget : s.get? index = some (.str bytes)) :
    ConvertsInPlace s index (some bytes) s := by
  obtain ⟨k, hk, hv⟩ := exists_slot_of_get? hget
  constructor
  case isSome_iff => rw [isString_iff.2 ⟨_, hget, .inr ⟨bytes, rfl⟩⟩, Option.isSome_some]
  case ofNumber =>
    intro k' v hk' hv' hnumber
    cases hget.symm.trans (get?_of_slot hk' hv')
    cases hnumber
  case ofString =>
    intro bytes' hbytes
    cases hget.symm.trans hbytes
    exact ⟨rfl, rfl⟩
  case ofNone => exact fun _ => rfl
  case again =>
    intro bytes' hbytes other hother
    cases hbytes
    exact showsString_of_str hs (get?_of_slot (slotOf?_of_index_or_mirrored hk hother) hv)

/-- One slot is written, so the views at its indices are those of the text that is there now. -/
theorem convertsInPlace_number (hs : s.top ≤ s.capacity) (hk : s.slotOf? index = some k)
    (hv : s.slots[k]? = some v) (hnumber : v.isNumber = true) (hlt : k < s.slots.size) :
    ConvertsInPlace s index (some (Utf8.encode v.text))
      { s with slots := s.slots.set k (.str (Utf8.encode v.text)) hlt } := by
  have hget := get?_of_slot hk hv
  constructor
  case isSome_iff => rw [isString_iff.2 ⟨v, hget, .inl hnumber⟩, Option.isSome_some]
  case ofNumber =>
    intro k' v' hk' hv' _
    obtain rfl : k' = k := Option.some.inj (hk'.symm.trans hk)
    obtain rfl : v' = v := Option.some.inj (hv'.symm.trans hv)
    refine ⟨rfl, Array.getElem?_set_self hlt, fun j hj => ?_, rfl, Array.size_set hlt⟩
    exact Array.getElem?_set_ne hlt hj.symm
  case ofString =>
    intro bytes hbytes
    cases hget.symm.trans hbytes
    cases hnumber
  case ofNone =>
    intro hnone
    cases hnone
  case again =>
    -- the indices still reach the slot, and the slot holds the text
    intro bytes hbytes other hother
    cases hbytes
    apply showsString_of_str
    · show s.top ≤ (s.slots.set k _ hlt).size
      rw [Array.size_set]
      exact hs
    · exact get?_of_slot (slotOf?_of_index_or_mirrored hk hother) (Array.getElem?_set_self hlt)

/-- On every stack whose top is within its slots. -/
theorem exists_convertsInPlace (hs : s.top ≤ s.capacity) (index : Int) :
    ∃ result t, toString? index s = .ok result t ∧ ConvertsInPlace s index result t := by
  cases hread : s.isString index with
  | false => exact ⟨none, s, toString?_of_not_isString hs hread, convertsInPlace_none hread⟩
  | true =>
    obtain ⟨v, hget, hkind⟩ := isString_iff.1 hread
    rcases hkind with hnumber | ⟨bytes, rfl⟩
    · obtain ⟨k, hk, hv⟩ := exists_slot_of_get? hget
      obtain ⟨hlt, hrun⟩ := toString?_of_number hs hk hv hnumber
      exact ⟨_, _, hrun, convertsInPlace_number hs hk hv hnumber hlt⟩
    · exact ⟨some bytes, s, toString?_of_str hs hget, convertsInPlace_str hs hget⟩

end StackM

/-- **Numbers turn into strings in place.**  On every stack that a run can reach and for every index, asking for the
    string there succeeds, and does all that `ConvertsInPlace` says. -/
theorem Stack.Reachable.toString?_convertsInPlace {s : Stack} (hs : s.Reachable) (index : Int) :
    ∃ result t, StackM.toString? index s = .ok result t ∧ StackM.ConvertsInPlace s index result t :=
  StackM.exists_convertsInPlace hs.sound.top_le_capacity index

/-- An integer below a boolean, asked for from the top and again from the bottom. -/
theorem Stack.Reachable.toString?_convertsInPlace_fullSample :
    fullSample.Reachable
    ∧ StackM.toString? (-2) fullSample = .ok (some [0x31]) ⟨#[.str [0x31], .bool true], 2⟩
    ∧ fullSample.mirrored (-2) = 1
    ∧ StackM.ShowsString ⟨#[.str [0x31], .bool true], 2⟩ 1 [0x31] := by
  have hreachable : fullSample.Reachable :=
    ⟨2, [.pushInteger 1, .pushBoolean true], by decide +kernel⟩
  obtain ⟨result, t, hrun, hconverts⟩ := hreachable.toString?_convertsInPlace (-2)
  have hslot : fullSample.slotOf? (-2) = some 0 := by decide
  have hsample : StackM.toString? (-2) fullSample = .ok (some [0x31]) ⟨#[.str [0x31], .bool true], 2⟩ :=
    (StackM.toString?_of_number (v := .int 1) (by decide) hslot rfl rfl).2
  cases hrun.symm.trans hsample
  exact ⟨hreachable, hsample, by decide, hconverts.again _ rfl 1 (.inr ⟨by decide, by decide⟩)⟩

end LuaBytecode
