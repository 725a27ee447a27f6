/-
  The stack as a row of live values and spare slots.

  `row live spare` is the stack whose first slots hold `live` and whose slots above the top hold `spare`.
  A stack whose top is within its slots is such a row, and every operation is an equation between rows:
  pushing moves the top over the first spare slot, popping gives a cleared slot back to the spare ones,
  and so on.  The equations say what happens to every slot, live or not, and no operation on a row reaches
  outside it.

  Reversal is the one loop over slots.  `swapInward_eq` is its invariant, by induction on the number of
  swaps left: what lies outside the two moving ends is final, and swapping the ends leaves a shorter
  stretch to turn around.  From it rotation is two equations on lists: the stretch from the index to the
  top is cut in two, `lower ++ upper`, and comes out as `upper ++ lower`.
-/
import LuaBytecode.Proofs.Sequencing
import LuaBytecode.Stack.Command

namespace LuaBytecode

namespace Stack

/-- The stack with the given live values and, above them, the given spare slots. -/
def row (live spare : List Value) : Stack := ⟨(live ++ spare).toArray, live.length⟩

variable {live spare : List Value}

@[simp] theorem top_row : (row live spare).top = live.length := rfl

@[simp] theorem slots_row : (row live spare).slots = (live ++ spare).toArray := rfl

@[simp] theorem live_row : (row live spare).live = live := by
  simp [Stack.live, row]

@[simp] theorem capacity_row : (row live spare).capacity = live.length + spare.length := by
  simp [capacity, row]

/-- A stack whose top is within its slots is a row. -/
theorem eq_row {s : Stack} (h : s.top ≤ s.capacity) : s = row s.live (s.slots.toList.drop s.top) := by
  have hlive : s.live.length = s.top := by
    rw [live, List.length_take, Array.length_toList]
    exact Nat.min_eq_left h
  have hslots : s.slots = (s.live ++ s.slots.toList.drop s.top).toArray := by
    rw [live, List.take_append_drop, Array.toArray_toList]
  rw [row, hlive, ← hslots]

/-- The same with the two parts of the row named, for a proof that goes on with them. -/
theorem exists_row {s : Stack} (h : s.top ≤ s.capacity) : ∃ live spare, s = row live spare :=
  ⟨_, _, eq_row h⟩

/-- A fresh stack is a row of spare slots. -/
theorem ofSize_eq_row (size : Nat) : ofSize size = row [] (List.replicate size .nil) := by
  simp [ofSize, row]

/-! ## Indices -/

/-- Where an index points among `height` live values, counted from zero: from the bottom if it is
    positive, from the top if it is negative. -/
def position? (height : Nat) (index : Int) : Option Nat :=
  if 1 ≤ index ∧ index ≤ height then some (index - 1).toNat
  else if -(height : Int) ≤ index ∧ index ≤ -1 then some (height + index).toNat
  else none

theorem position?_lt {height k : Nat} {index : Int} (h : position? height index = some k) :
    k < height := by
  unfold position? at h
  split at h
  · cases h
    omega
  · split at h
    · cases h
      omega
    · cases h

/-- Fewer live values than there are indices are counted by an index. -/
theorem topIndex_of_lt {s : Stack} (h : s.top < indexBound) : s.topIndex = s.top := by
  unfold indexBound at h
  unfold topIndex
  exact Int.bmod_eq_of_le (by omega) (by simp only [indexBound]; omega)

/-- From there on they are counted by an index below zero. -/
theorem topIndex_of_ge {s : Stack} (hlow : indexBound ≤ s.top) (hhigh : s.top < 2 * indexBound) :
    s.topIndex = s.top - (2 * indexBound : Nat) := by
  unfold indexBound at hlow hhigh
  unfold topIndex
  rw [← Int.sub_bmod_right]
  exact Int.bmod_eq_of_le (by simp only [indexBound]; omega) (by simp only [indexBound]; omega)

/-- An index that is valid addresses a slot below the top, however the top is counted. -/
theorem slotOf?_lt {s : Stack} {index : Int} {k : Nat} (h : s.slotOf? index = some k) : k < s.top := by
  unfold slotOf? isValid at h
  split at h
  · rename_i hvalid
    have hrange := of_decide_eq_true hvalid
    cases h
    omega
  · cases h

/-- As long as the live values can be counted by an index, an index points where it should. -/
theorem slotOf?_row (hlive : live.length < indexBound) (index : Int) :
    (row live spare).slotOf? index = position? live.length index := by
  have htop : (row live spare).topIndex = live.length := topIndex_of_lt hlive
  simp only [slotOf?, isValid, absIndex, htop, top_row, position?]
  by_cases hneg : index < 0
  · rw [if_pos hneg, if_neg (by omega : ¬ (1 ≤ index ∧ index ≤ live.length))]
    by_cases hvalid : -(live.length : Int) ≤ index
    · have hslot : (index + 1 + live.length - 1).toNat = (live.length + index).toNat := by omega
      rw [if_pos (decide_eq_true (by omega)), if_pos (by omega), hslot]
    · rw [if_neg (by simp only [decide_eq_true_eq]; omega), if_neg (by omega)]
  · rw [if_neg hneg]
    by_cases hvalid : 1 ≤ index ∧ index ≤ live.length
    · rw [if_pos (decide_eq_true (by omega)), if_pos hvalid]
    · rw [if_neg (by simp only [decide_eq_true_eq]; omega), if_neg hvalid, if_neg (by omega)]

/-- A negative index counts from one above the top. -/
theorem absIndex_row (hlive : live.length < indexBound) (index : Int) :
    (row live spare).absIndex index = if index < 0 then live.length + 1 + index else index := by
  have htop : (row live spare).topIndex = live.length := topIndex_of_lt hlive
  unfold absIndex
  rw [htop]
  split <;> omega

/-- What an index addresses is a live value. -/
theorem get?_row (index : Int) :
    (row live spare).get? index = ((row live spare).slotOf? index).bind (live[·]?) := by
  unfold get?
  cases h : (row live spare).slotOf? index with
  | none => rfl
  | some k =>
    have hk : k < live.length := slotOf?_lt h
    show (live ++ spare).toArray[k]? = live[k]?
    rw [List.getElem?_toArray, List.getElem?_append_left hk]

end Stack

namespace StackM

open Stack

variable {α β : Type} {live spare : List Value}

/-! ## Steps in a row -/

theorem get_bind {f : Stack → StackM β} {s : Stack} :
    ((MonadState.get : StackM Stack) >>= f) s = f s s := rfl

theorem require_pos {p : Prop} [Decidable p] {e : StackError} {s : Stack} (hp : p) :
    require p e s = .ok () s := by
  rw [require, if_pos hp]
  rfl

theorem require_neg {p : Prop} [Decidable p] {e : StackError} {s : Stack} (hp : ¬ p) :
    require p e s = .error e s := by
  rw [require, if_neg hp]
  rfl

/-! ## Slots -/

/-- Below the top a slot holds a live value. -/
theorem slotAt_row {k : Nat} (hk : k < live.length) :
    slotAt k (row live spare) = .ok live[k] (row live spare) := by
  unfold slotAt
  rw [slots_row, List.getElem?_toArray, List.getElem?_append_left hk, List.getElem?_eq_getElem hk]

/-- Writing below the top changes a live value. -/
theorem setSlot_row {k : Nat} (hk : k < live.length) (v : Value) :
    setSlot k v (row live spare) = .ok () (row (live.set k v) spare) := by
  have hsize : k < (row live spare).slots.size := by
    rw [slots_row, List.size_toArray, List.length_append]
    omega
  rw [setSlot, dif_pos hsize]
  simp [row, List.set_append_left k v hk]

/-! ## Values -/

/-- Without a spare slot there is no room. -/
theorem push_row_nil (v : Value) : push v (row live []) = .error .overflow (row live []) := by
  rw [push, get_bind]
  exact bind_of_error (require_neg (by simp))

/-- The first spare slot becomes live, whatever was in it. -/
theorem push_row_cons (v x : Value) :
    push v (row live (x :: spare)) = .ok () (row (live ++ [v]) spare) := by
  have hroom : (row live (x :: spare)).top ≠ (row live (x :: spare)).slots.size := by simp
  have hset : setSlot live.length v (row live (x :: spare)) = .ok () (row live (v :: spare)) := by
    have hsize : live.length < (row live (x :: spare)).slots.size := by simp
    rw [setSlot, dif_pos hsize]
    simp [row]
  rw [push, get_bind, bind_of_ok (require_pos hroom), top_row, bind_of_ok hset]
  show EStateM.Result.ok () _ = _
  simp [row]

theorem pop_row_nil : pop (row [] spare) = .error .underflow (row [] spare) := by
  rw [pop, get_bind]
  exact bind_of_error (require_neg (by simp))

/-- The last live slot becomes spare, and is cleared. -/
theorem pop_row_append (v : Value) :
    pop (row (live ++ [v]) spare) = .ok v (row live (.nil :: spare)) := by
  have hpos : (row (live ++ [v]) spare).top ≠ 0 := by simp
  have hlt : live.length < (live ++ [v]).length := by simp
  have htop : (row (live ++ [v]) spare).top - 1 = live.length := by simp
  rw [pop, get_bind, bind_of_ok (require_pos hpos), htop, bind_of_ok (slotAt_row hlt),
    bind_of_ok (setSlot_row hlt .nil)]
  show EStateM.Result.ok _ _ = _
  simp [row]

/-- Making room adds spare slots up to the number asked for, if so many slots can be counted. -/
theorem check_row {n : Nat} (hfits : live.length + n < wordBound ∨ n ≤ spare.length) :
    check n (row live spare)
      = .ok () (row live (spare ++ List.replicate (n - spare.length) .nil)) := by
  have hfree : (row live spare).slots.size - (row live spare).top = spare.length := by simp
  rw [check, get_bind, hfree]
  by_cases hroom : spare.length < n
  · have hcounted : (row live spare).top + n < wordBound := hfits.resolve_right (by omega)
    have hmissing : (row live spare).top + n - (row live spare).slots.size = n - spare.length := by
      simp only [slots_row, top_row, List.size_toArray, List.length_append]
      omega
    rw [if_pos hroom, bind_of_ok (require_pos hcounted)]
    show EStateM.Result.ok () (Stack.mk (_ ++ Array.replicate (_ + n - _) .nil) _) = _
    rw [hmissing]
    simp [row]
  · rw [if_neg hroom, Nat.sub_eq_zero_of_le (by omega)]
    simp [pure, EStateM.pure]

/-- Otherwise it fails, and the stack is as it was. -/
theorem check_overflow {s : Stack} {n : Nat} (hroom : s.capacity - s.top < n)
    (hfits : wordBound ≤ s.top + n) : check n s = .error .arithmeticOverflow s := by
  have hshort : s.slots.size - s.top < n := hroom
  rw [check, get_bind, if_pos hshort]
  exact bind_of_error (require_neg (Nat.not_lt.2 hfits))

theorem load?_row (index : Int) :
    load? index (row live spare)
      = .ok (((row live spare).slotOf? index).bind (live[·]?)) (row live spare) := by
  rw [load?, get_bind]
  cases h : (row live spare).slotOf? index with
  | none => rfl
  | some k =>
    have hk : k < live.length := slotOf?_lt h
    show (slotAt k >>= fun v => pure (some v)) (row live spare) = _
    rw [bind_of_ok (slotAt_row hk), Option.bind_some, List.getElem?_eq_getElem hk]
    rfl

/-- Nil is read where there is no value. -/
theorem load_row (index : Int) :
    load index (row live spare)
      = .ok ((((row live spare).slotOf? index).bind (live[·]?)).getD .nil) (row live spare) := by
  rw [load, bind_of_ok (load?_row index)]
  rfl

/-- The top value is at index `-1`. -/
theorem load_top {v : Value} (hlive : (live ++ [v]).length < indexBound) :
    load (-1) (row (live ++ [v]) spare) = .ok v (row (live ++ [v]) spare) := by
  have hpos : position? (live ++ [v]).length (-1) = some live.length := by
    unfold position?
    rw [List.length_append, List.length_singleton, if_neg (by omega), if_pos (by omega)]
    congr 1
    omega
  rw [load_row, slotOf?_row hlive, hpos, Option.bind_some, List.getElem?_concat_length, Option.getD_some]

/-- Writing at a valid index changes the value there. -/
theorem store_row_some {index : Int} {k : Nat} (h : (row live spare).slotOf? index = some k) (v : Value) :
    store index v (row live spare) = .ok () (row (live.set k v) spare) := by
  rw [store, get_bind, h]
  exact setSlot_row (slotOf?_lt h) v

theorem store_row_none {index : Int} (h : (row live spare).slotOf? index = none) (v : Value) :
    store index v (row live spare) = .error (.invalidIndex index) (row live spare) := by
  rw [store, get_bind, h]
  rfl

/-! ## Reversal -/

theorem exists_append_singleton {xs : List Value} (h : xs ≠ []) : ∃ rest v, xs = rest ++ [v] :=
  ⟨xs.dropLast, xs.getLast h, (List.dropLast_concat_getLast h).symm⟩

/-- Exchanging the two ends of a stretch. -/
theorem swap_ends (below middle above : List Value) (x y : Value) (top : Nat) :
    swap below.length (below.length + middle.length + 1)
        ⟨(below ++ x :: middle ++ y :: above).toArray, top⟩
      = .ok () ⟨(below ++ y :: middle ++ x :: above).toArray, top⟩ := by
  have hlen : (below ++ x :: middle).length = below.length + middle.length + 1 := by
    rw [List.length_append, List.length_cons, Nat.add_assoc]
  have hlen' : (below ++ y :: middle).length = below.length + middle.length + 1 := by
    rw [List.length_append, List.length_cons, Nat.add_assoc]
  have hx : below.length < (below ++ x :: middle ++ y :: above).length := by simp
  have hy : below.length + middle.length + 1 < (below ++ x :: middle ++ y :: above).length := by
    rw [List.length_append, hlen, List.length_cons]
    omega
  have hgetx : (below ++ x :: middle ++ y :: above)[below.length] = x := by simp
  have hgety : (below ++ x :: middle ++ y :: above)[below.length + middle.length + 1] = y := by
    rw [List.getElem_append_right (Nat.le_of_eq hlen)]
    simp [hlen]
  rw [swap, dif_pos ⟨hx, hy⟩]
  simp only [List.swap_toArray, hgetx, hgety]
  rw [List.append_assoc below, List.set_append_right _ _ (Nat.le_refl _), Nat.sub_self,
    List.cons_append, List.set_cons_zero, ← List.cons_append, ← List.append_assoc,
    List.set_append_right _ _ (Nat.le_of_eq hlen'), hlen', Nat.sub_self, List.set_cons_zero]

/-- **The reversal loop.**  With `n` swaps left the ends enclose a stretch of `2 n` or `2 n + 1` slots;
    after them the stretch is turned around and everything else is as it was. -/
theorem swapInward_eq (n : Nat) (below stretch above : List Value) (top : Nat)
    (hn : stretch.length / 2 = n) :
    swapInward n below.length (below.length + stretch.length - 1)
        ⟨(below ++ stretch ++ above).toArray, top⟩
      = .ok () ⟨(below ++ stretch.reverse ++ above).toArray, top⟩ := by
  induction n generalizing below stretch above with
  | zero =>
    -- at most one slot is left, which is its own reversal
    have hrev : stretch.reverse = stretch := by
      match stretch with
      | [] => rfl
      | [x] => rfl
      | x :: y :: rest =>
        rw [List.length_cons, List.length_cons] at hn
        omega
    rw [hrev]
    rfl
  | succ n ih =>
    obtain ⟨x, rest, rfl⟩ : ∃ x rest, stretch = x :: rest := by
      cases stretch with
      | nil => simp at hn
      | cons x rest => exact ⟨x, rest, rfl⟩
    have hrest : rest ≠ [] := by
      rintro rfl
      rw [List.length_singleton] at hn
      omega
    obtain ⟨middle, y, rfl⟩ := exists_append_singleton hrest
    have hhi : below.length + (x :: (middle ++ [y])).length - 1 = below.length + middle.length + 1 := by
      simp only [List.length_append, List.length_cons, List.length_nil]
      omega
    have hslots : below ++ x :: (middle ++ [y]) ++ above = below ++ x :: middle ++ y :: above := by simp
    rw [hhi, hslots, swapInward, bind_of_ok (swap_ends below middle above x y top)]
    -- the ends are final now: they join what lies outside the stretch that is left
    have hmiddle : middle.length / 2 = n := by
      simp only [List.length_append, List.length_cons, List.length_nil] at hn
      omega
    have hrest := ih (below ++ [y]) middle (x :: above) hmiddle
    have hlo : (below ++ [y]).length = below.length + 1 := by simp
    have hhi' : (below ++ [y]).length + middle.length - 1 = below.length + middle.length + 1 - 1 := by
      rw [hlo]; omega
    rw [hlo] at hrest hhi'
    rw [hhi'] at hrest
    simpa using hrest

/-- **Reversal turns around a stretch of slots** and leaves the others as they were. -/
theorem reverse_eq (below stretch above : List Value) (top : Nat) :
    reverse below.length (below.length + stretch.length - 1) ⟨(below ++ stretch ++ above).toArray, top⟩
      = .ok () ⟨(below ++ stretch.reverse ++ above).toArray, top⟩ := by
  have hcount : (below.length + stretch.length - 1 + 1 - below.length) / 2 = stretch.length / 2 := by
    omega
  rw [reverse, hcount]
  exact swapInward_eq _ below stretch above top rfl

/-- A range of at most one slot is left alone. -/
theorem reverse_eq_pure {lo hi : Nat} (h : hi ≤ lo) : reverse lo hi = pure () := by
  have hcount : (hi + 1 - lo) / 2 = 0 := by omega
  rw [reverse, hcount]
  rfl

/-! ## Rotation -/

/-- **Rotation exchanges two neighbouring parts.**  The upper part has `n` values if they move down past
    the lower one, the lower part `-n` if it moves up. -/
theorem rotate_row {below lower upper : List Value} {index n : Int}
    (hindex : (row (below ++ lower ++ upper) spare).slotOf? index = some below.length)
    (hn : (0 ≤ n ∧ n = upper.length) ∨ (n < 0 ∧ -n = lower.length)) :
    rotate index n (row (below ++ lower ++ upper) spare)
      = .ok () (row (below ++ upper ++ lower) spare) := by
  have hsize : (row (below ++ lower ++ upper) spare).top - below.length
      = lower.length + upper.length := by simp
  have hcut : (if 0 ≤ n then lower.length + upper.length - n.natAbs else n.natAbs) = lower.length := by
    split <;> omega
  have hlast : (row (below ++ lower ++ upper) spare).top - 1
      = below.length + (lower ++ upper).length - 1 := by simp
  have hlast' : below.length + (lower ++ upper).length - 1
      = (below ++ lower.reverse).length + upper.length - 1 := by
    rw [List.length_append, List.length_append, List.length_reverse, Nat.add_assoc]
  have hmid : below.length + lower.length = (below ++ lower.reverse).length := by simp
  have hwhole : below.length + (lower ++ upper).length - 1
      = below.length + (lower.reverse ++ upper.reverse).length - 1 := by simp
  -- each part by itself, then both together
  have h1 : reverse below.length (below.length + lower.length - 1) (row (below ++ lower ++ upper) spare)
      = .ok () ⟨(below ++ lower.reverse ++ upper ++ spare).toArray,
          (below ++ lower ++ upper).length⟩ := by
    have h := reverse_eq below lower (upper ++ spare) (below ++ lower ++ upper).length
    simpa [row] using h
  have h2 := reverse_eq (below ++ lower.reverse) upper spare (below ++ lower ++ upper).length
  have h3 := reverse_eq below (lower.reverse ++ upper.reverse) spare (below ++ lower ++ upper).length
  rw [rotate, get_bind, hindex]
  dsimp only
  rw [bind_of_ok (require_pos (by rw [hsize]; omega)), hsize, hcut, bind_of_ok h1, hlast, hmid]
  rw [← hlast'] at h2
  rw [bind_of_ok h2, hwhole]
  rw [← List.append_assoc] at h3
  have hparts : (lower.reverse ++ upper.reverse).reverse = upper ++ lower := by
    rw [List.reverse_append, List.reverse_reverse, List.reverse_reverse]
  have htop : (below ++ lower ++ upper).length = (below ++ upper ++ lower).length := by
    simp only [List.length_append]
    omega
  rw [h3, hparts, htop, ← List.append_assoc]
  rfl

/-- The stretch that rotation by `n` places moves, cut in the two parts that it exchanges. -/
theorem exists_parts {live : List Value} {p : Nat} {n : Int} (hp : p < live.length)
    (hn : n.natAbs ≤ live.length - p) :
    ∃ below lower upper, live = below ++ lower ++ upper ∧ below.length = p
      ∧ ((0 ≤ n ∧ n = upper.length) ∨ (n < 0 ∧ -n = lower.length)) := by
  -- the upper part has `n` values, or all but `-n`
  obtain ⟨cut, hcut, hsign⟩ : ∃ cut, cut ≤ live.length - p
      ∧ ((0 ≤ n ∧ n = ((live.length - p - cut : Nat) : Int)) ∨ (n < 0 ∧ -n = (cut : Int))) := by
    by_cases hpos : 0 ≤ n
    · exact ⟨live.length - p - n.natAbs, by omega, .inl ⟨hpos, by omega⟩⟩
    · exact ⟨n.natAbs, hn, .inr ⟨by omega, by omega⟩⟩
  refine ⟨live.take p, (live.drop p).take cut, (live.drop p).drop cut, ?_, ?_, ?_⟩
  · rw [List.append_assoc, List.take_append_drop, List.take_append_drop]
  · rw [List.length_take]
    omega
  · rw [List.length_drop, List.length_take, List.length_drop, Nat.min_eq_left hcut]
    exact hsign

theorem rotate_row_invalid {index n : Int} (hindex : (row live spare).slotOf? index = none) :
    rotate index n (row live spare) = .error (.invalidIndex index) (row live spare) := by
  rw [rotate, get_bind, hindex]
  rfl

/-- A stretch is not rotated by more than its size. -/
theorem rotate_row_excess {index n : Int} {k : Nat} (hindex : (row live spare).slotOf? index = some k)
    (hn : live.length - k < n.natAbs) :
    rotate index n (row live spare) = .error (.invalidIndex index) (row live spare) := by
  rw [rotate, get_bind, hindex]
  exact bind_of_error (require_neg (by rw [top_row]; omega))

/-! ## Height -/

/-- By induction on the number of values, which take up spare slots from the left. -/
theorem pushNils_row {n : Nat} (hn : n ≤ spare.length) :
    pushNils n (row live spare) = .ok () (row (live ++ List.replicate n .nil) (spare.drop n)) := by
  induction n generalizing live spare with
  | zero => simp [pushNils, pure, EStateM.pure]
  | succ n ih =>
    cases spare with
    | nil => simp at hn
    | cons x spare =>
      rw [pushNils, bind_of_ok (push_row_cons .nil x), ih (by simpa using hn)]
      simp [List.replicate_succ]

/-- By induction on the number of values, which are cleared from the right. -/
theorem drop_row {n : Nat} (hn : n ≤ live.length) :
    StackM.drop n (row live spare)
      = .ok () (row (live.take (live.length - n)) (List.replicate n .nil ++ spare)) := by
  induction n generalizing live spare with
  | zero => simp [StackM.drop, pure, EStateM.pure]
  | succ n ih =>
    have hlive : live ≠ [] := by
      rintro rfl
      exact absurd hn (Nat.not_succ_le_zero n)
    obtain ⟨rest, v, rfl⟩ := exists_append_singleton hlive
    have hrest : n ≤ rest.length := by simpa using hn
    have hcut : (rest ++ [v]).length - (n + 1) = rest.length - n := by simp
    rw [StackM.drop, bind_of_ok (pop_row_append v), ih hrest, hcut,
      List.take_append_of_le_length (by omega), List.replicate_succ']
    simp

/-- A height below the bottom is refused before anything else. -/
theorem setTop_row_underflow {index : Int} (h : (row live spare).absIndex index < 0) :
    setTop index (row live spare) = .error .underflow (row live spare) := by
  rw [setTop, get_bind]
  exact bind_of_error (require_neg (by omega))

/-- Going up to height `k`: nil is pushed, into spare slots and into new ones if they run out. -/
theorem setTop_row_grow {index : Int} {k : Nat} (hlive : live.length < indexBound)
    (h : (row live spare).absIndex index = k) (hk : live.length < k) (hfits : k < wordBound) :
    setTop index (row live spare)
      = .ok () (row (live ++ List.replicate (k - live.length) .nil)
          ((spare ++ List.replicate (k - live.length - spare.length) Value.nil).drop (k - live.length))) := by
  have htop : (row live spare).topIndex = live.length := topIndex_of_lt hlive
  have hmissing : ((k : Int) - live.length).toNat = k - live.length := by omega
  rw [setTop, get_bind, h, bind_of_ok (require_pos (Int.natCast_nonneg k)), htop,
    if_pos (Int.ofNat_lt.2 hk), hmissing, bind_of_ok (check_row (.inl (by omega)))]
  apply pushNils_row
  rw [List.length_append, List.length_replicate]
  omega

/-- Going down to height `k`: the slots above it are cleared. -/
theorem setTop_row_shrink {index : Int} {k : Nat} (hlive : live.length < indexBound)
    (h : (row live spare).absIndex index = k) (hk : k ≤ live.length) :
    setTop index (row live spare)
      = .ok () (row (live.take k) (List.replicate (live.length - k) .nil ++ spare)) := by
  have htop : (row live spare).topIndex = live.length := topIndex_of_lt hlive
  have hexcess : ((live.length : Int) - k).toNat = live.length - k := by omega
  have hcut : live.length - (live.length - k) = k := by omega
  rw [setTop, get_bind, h, bind_of_ok (require_pos (Int.natCast_nonneg k)), htop, if_neg (by omega),
    hexcess, drop_row (by omega), hcut]

end StackM

end LuaBytecode
