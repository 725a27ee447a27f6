/-
  The reversal of a range of slots, slot by slot and turn by turn.

  1. **A reversed range** — `ReversedBetween lo hi s t` says of every slot of `t` where its value was in
     `s`: within the range at the mirrored place, elsewhere at the same place.  Mirroring twice leads back,
     so a range that is reversed twice is as it was.

  2. **The loop** — its state is the two ends that are next to be exchanged, and the stack.  A turn
     exchanges them and moves both inward.  Ends that have not met lie within those the loop started with,
     and no turn changes the number of slots; so each exchange is in range if the first one is.  The upper
     end is above the lower one when it moves down, hence not zero.

  3. **The operation** — it takes turns until the ends meet.  If the upper end starts outside the row, the
     first exchange fails and the stack is as it was.
-/
import Mathlib.Logic.Relation
import LuaBytecode.Proofs.Stack.Row

namespace LuaBytecode

open Stack StackM Relation

/-! ## A reversed range -/

/-- The second stack is the first with the slots from `lo` to `hi` in reversed order, and with every other
    slot, the top and the capacity as they were. -/
structure Stack.ReversedBetween (lo hi : Nat) (s t : Stack) : Prop where
  top_eq : t.top = s.top
  capacity_eq : t.capacity = s.capacity
  mirrored : ∀ i, lo ≤ i → i ≤ hi → t.slots[i]? = s.slots[lo + hi - i]?
  kept : ∀ i, i < lo ∨ hi < i → t.slots[i]? = s.slots[i]?

/-- A stack with a range cut out of its slots. -/
theorem Stack.exists_stretch {s : Stack} {lo hi : Nat} (hle : lo ≤ hi) (hhi : hi < s.capacity) :
    ∃ below stretch above, s = ⟨(below ++ stretch ++ above).toArray, s.top⟩
      ∧ below.length = lo ∧ below.length + stretch.length - 1 = hi ∧ stretch ≠ [] := by
  have hsize : s.slots.toList.length = s.capacity := Array.length_toList
  refine ⟨s.slots.toList.take lo, (s.slots.toList.drop lo).take (hi + 1 - lo),
    (s.slots.toList.drop lo).drop (hi + 1 - lo), ?_, ?_, ?_, ?_⟩
  · rw [List.append_assoc, List.take_append_drop, List.take_append_drop, Array.toArray_toList]
  · rw [List.length_take]
    omega
  · rw [List.length_take, List.length_take, List.length_drop]
    omega
  · apply List.ne_nil_of_length_pos
    rw [List.length_take, List.length_drop]
    omega

/-- Turning a stretch around mirrors its slots. -/
theorem reversedBetween_stretch {below stretch above : List Value} {top : Nat} (hne : stretch ≠ []) :
    ReversedBetween below.length (below.length + stretch.length - 1)
      ⟨(below ++ stretch ++ above).toArray, top⟩ ⟨(below ++ stretch.reverse ++ above).toArray, top⟩ := by
  have hpos := List.length_pos_iff.2 hne
  have hinner {middle : List Value} {i : Nat} (hlo : below.length ≤ i)
      (hi : i < below.length + middle.length) :
      (below ++ middle ++ above).toArray[i]? = middle[i - below.length]? := by
    rw [List.getElem?_toArray, List.getElem?_append_left (by rw [List.length_append]; exact hi),
      List.getElem?_append_right hlo]
  constructor
  · rfl
  · simp [capacity]
  · intro i hlo hhi
    rw [hinner hlo (by rw [List.length_reverse]; omega), hinner (by omega) (by omega),
      List.getElem?_reverse (by omega)]
    congr 1
    omega
  · intro i houtside
    rw [List.getElem?_toArray, List.getElem?_toArray]
    rcases houtside with hbelow | habove
    · rw [List.append_assoc, List.append_assoc, List.getElem?_append_left hbelow,
        List.getElem?_append_left hbelow]
    · have hlength : (below ++ stretch.reverse).length = (below ++ stretch).length := by simp
      have hle : (below ++ stretch).length ≤ i := by
        rw [List.length_append]
        omega
      rw [List.getElem?_append_right hle, List.getElem?_append_right (by rw [hlength]; exact hle), hlength]

/-! ## The loop -/

/-- The loop between two turns: the ends that are next to be exchanged, and the stack. -/
structure ReversalState where
  lo : Nat
  hi : Nat
  stack : Stack

namespace ReversalState

/-- One turn: unless the ends have met, they are exchanged and move inward. -/
inductive Turn : ReversalState → ReversalState → Prop
  | inward {lo hi : Nat} {s t : Stack} : lo < hi → swap lo hi s = .ok () t →
    Turn ⟨lo, hi, s⟩ ⟨lo + 1, hi - 1, t⟩

/-- The upper end is no higher than `hi`, and there are as many slots as in `s`. -/
structure Under (hi : Nat) (s : Stack) (r : ReversalState) : Prop where
  hi_le : r.hi ≤ hi
  capacity_eq : r.stack.capacity = s.capacity

variable {hi : Nat} {s : Stack} {r r' : ReversalState}

/-- Exchanging two slots keeps their number. -/
theorem capacity_of_swap {i j : Nat} {t : Stack} (h : swap i j s = .ok () t) :
    t.capacity = s.capacity := by
  unfold swap at h
  split at h
  · cases h
    exact Array.size_swap ..
  · cases h

/-- What a turn keeps. -/
theorem Under.turn (hr : Under hi s r) (h : Turn r r') : Under hi s r' := by
  cases h with
  | inward _ hswap =>
    exact ⟨Nat.le_trans (Nat.sub_le _ 1) hr.hi_le, (capacity_of_swap hswap).trans hr.capacity_eq⟩

/-- What any number of turns keeps. -/
theorem Under.turns (hr : Under hi s r) (h : ReflTransGen Turn r r') : Under hi s r' := by
  induction h with
  | refl => exact hr
  | tail _ hturn ih => exact ih.turn hturn

/-- Under an upper end within the row, ends that have not met can be exchanged. -/
theorem Under.exists_turn (hr : Under hi s r) (hhi : hi < s.capacity) (hends : r.lo < r.hi) :
    ∃ r', Turn r r' := by
  have hlast : r.hi < r.stack.slots.size := by
    have := hr.hi_le
    have := hr.capacity_eq
    unfold capacity at *
    omega
  exact ⟨_, .inward hends (by rw [swap, dif_pos ⟨Nat.lt_trans hends hlast, hlast⟩])⟩

end ReversalState

open ReversalState

/-! ## The operation -/

namespace StackM

variable {s t : Stack} {lo hi : Nat}

/-- **The loop.**  While the ends have not met, exchange them and go on with the ends further in. -/
theorem reverse_eq_loop (lo hi : Nat) :
    reverse lo hi = if lo < hi then (do swap lo hi; reverse (lo + 1) (hi - 1)) else pure () := by
  unfold reverse
  split
  · have hcount : (hi + 1 - lo) / 2 = (hi - 1 + 1 - (lo + 1)) / 2 + 1 := by omega
    rw [hcount]
    rfl
  · exact reverse_eq_pure (by omega)

/-- A reversal that succeeds has taken turns until its ends met. -/
theorem turns_of_reverse (h : reverse lo hi s = .ok () t) :
    ∃ r, ReflTransGen Turn ⟨lo, hi, s⟩ r ∧ r.hi ≤ r.lo ∧ r.stack = t := by
  -- by induction on how far the ends are apart, which every turn makes smaller
  induction hgap : hi - lo using Nat.strongRecOn generalizing lo hi s with
  | ind gap ih =>
    rw [reverse_eq_loop] at h
    split at h
    · rename_i hends
      obtain ⟨_, u, hswap, hrest⟩ := bind_eq_ok_iff.1 h
      obtain ⟨r, hturns, hmet, hstack⟩ := ih (hi - 1 - (lo + 1)) (by omega) hrest rfl
      exact ⟨r, .head (.inward hends hswap) hturns, hmet, hstack⟩
    · rename_i hmet
      cases h
      exact ⟨_, .refl, Nat.le_of_not_lt hmet, rfl⟩

/-- Ends that have met leave nothing to do. -/
theorem reverse_of_le (h : hi ≤ lo) : reverse lo hi s = .ok () s := by
  rw [reverse_eq_pure h]
  rfl

/-- An upper end outside the row cannot be exchanged. -/
theorem swap_outside (h : s.capacity ≤ hi) : swap lo hi s = .error .slotOutOfRange s := by
  rw [swap, dif_neg fun hrange => absurd hrange.2 (Nat.not_lt.2 h)]

/-- The first exchange fails, before any slot has changed. -/
theorem reverse_outside (hends : lo < hi) (h : s.capacity ≤ hi) :
    reverse lo hi s = .error .slotOutOfRange s := by
  rw [reverse_eq_loop, if_pos hends, bind_of_error (swap_outside h)]

/-- **Reversal within the row** mirrors the range, keeps the values of the row, and undoes itself. -/
theorem reverse_within (hle : lo ≤ hi) (hhi : hi < s.capacity) :
    ∃ t, reverse lo hi s = .ok () t ∧ ReversedBetween lo hi s t
      ∧ t.slots.toList.Perm s.slots.toList ∧ reverse lo hi t = .ok () s := by
  obtain ⟨below, stretch, above, hs, rfl, rfl, hne⟩ := exists_stretch hle hhi
  rw [hs]
  refine ⟨_, reverse_eq below stretch above s.top, reversedBetween_stretch hne, ?_, ?_⟩
  · exact ((List.reverse_perm stretch).append_left below).append_right above
  · have hback := reverse_eq below stretch.reverse above s.top
    rwa [List.length_reverse, List.reverse_reverse] at hback

/-- **In-place reversal.**  With ends that have met or crossed it changes nothing.  With ends apart and
    within the row it succeeds: the slots of the closed range come out in reversed order, and every other
    slot, the top and the capacity are as they were; a second time restores the stack.  It gets there by
    turns of the loop, and whenever the loop has a turn to take, both its ends are slots of the row and the
    upper one is not zero, so that it can be exchanged and moved down.  With an upper end outside the row
    the first exchange fails, and the stack is as it was. -/
theorem reverse_mirrors_range (s : Stack) (lo hi : Nat) :
    (hi ≤ lo → reverse lo hi s = .ok () s)
    ∧ (lo < hi → hi < s.capacity →
      ∃ t, reverse lo hi s = .ok () t ∧ ReversedBetween lo hi s t
        ∧ (do reverse lo hi; reverse lo hi) s = .ok () s
        ∧ (∃ r, ReflTransGen Turn ⟨lo, hi, s⟩ r ∧ r.hi ≤ r.lo ∧ r.stack = t)
        ∧ ∀ r, ReflTransGen Turn ⟨lo, hi, s⟩ r → r.lo < r.hi →
          r.lo < r.stack.capacity ∧ r.hi < r.stack.capacity ∧ 1 ≤ r.hi ∧ ∃ r', Turn r r')
    ∧ (lo < hi → s.capacity ≤ hi →
      swap lo hi s = .error .slotOutOfRange s ∧ reverse lo hi s = .error .slotOutOfRange s) := by
  refine ⟨reverse_of_le, fun hends hhi => ?_, fun hends hout => ?_⟩
  · obtain ⟨t, ht, hreversed, _, hback⟩ := reverse_within (Nat.le_of_lt hends) hhi
    refine ⟨t, ht, hreversed, ?_, turns_of_reverse ht, fun r hturns hapart => ?_⟩
    · rw [bind_of_ok ht, hback]
    · have hstart : Under hi s ⟨lo, hi, s⟩ := ⟨Nat.le_refl hi, rfl⟩
      have hunder := hstart.turns hturns
      have hlast : r.hi < r.stack.capacity := by
        rw [hunder.capacity_eq]
        exact Nat.lt_of_le_of_lt hunder.hi_le hhi
      exact ⟨Nat.lt_trans hapart hlast, hlast, Nat.one_le_of_lt hapart, hunder.exists_turn hhi hapart⟩
  · exact ⟨swap_outside hout, reverse_outside hends hout⟩

/-- Four live values and a spare slot, with ranges that have no slot to move, that reach above the top, and
    that reach above the row. -/
theorem reverse_mirrors_range_samples :
    reverse 4 0 ⟨#[.int 1, .int 2, .int 3, .int 4, .nil], 4⟩
        = .ok () ⟨#[.int 1, .int 2, .int 3, .int 4, .nil], 4⟩
      ∧ (∃ t, reverse 1 4 ⟨#[.int 1, .int 2, .int 3, .int 4, .nil], 4⟩ = .ok () t
        ∧ t = ⟨#[.int 1, .nil, .int 4, .int 3, .int 2], 4⟩
        ∧ ReversedBetween 1 4 ⟨#[.int 1, .int 2, .int 3, .int 4, .nil], 4⟩ t)
      ∧ reverse 1 5 ⟨#[.int 1, .int 2, .int 3, .int 4, .nil], 4⟩
        = .error .slotOutOfRange ⟨#[.int 1, .int 2, .int 3, .int 4, .nil], 4⟩ := by
  obtain ⟨hmet, _, _⟩ := reverse_mirrors_range ⟨#[.int 1, .int 2, .int 3, .int 4, .nil], 4⟩ 4 0
  obtain ⟨_, hwithin, _⟩ := reverse_mirrors_range ⟨#[.int 1, .int 2, .int 3, .int 4, .nil], 4⟩ 1 4
  obtain ⟨_, _, houtside⟩ := reverse_mirrors_range ⟨#[.int 1, .int 2, .int 3, .int 4, .nil], 4⟩ 1 5
  obtain ⟨t, ht, hreversed, _⟩ := hwithin (by decide) (by decide)
  refine ⟨hmet (by decide), ⟨t, ht, ?_, hreversed⟩, (houtside (by decide) (by decide)).2⟩
  cases ht
  rfl

end StackM

end LuaBytecode
