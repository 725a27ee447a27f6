/-
  Rotation as arithmetic on positions.

  1. **Where a value goes** — among `size` values, rotation by `n` places takes the one at `j` to
     `destination size n j`, which is `j + n` modulo `size`, taken non-negative.  Going on by `m` places is
     going by any number of places that is `n + m` modulo `size`, so a rotation can be undone.

  2. **A rotated stack** — `RotatedFrom p n s t` says of every slot of `t` where its value was in `s`: from
     slot `p` to the top the values have gone to their destinations, and everything else stands where it
     stood.  As every slot is the destination of one value, this leaves no choice for `t`
     (`RotatedFrom.unique`), and rotations in a row are one rotation (`RotatedFrom.trans`).

  3. **The operation** — three reversals exchange the two parts of the stretch, `lower ++ upper`, and a value
     of either part comes to stand `upper.length` places further on modulo the length of both.  That is
     `n` modulo this length for both signs of `n`: the upper part has `n` values, or the lower part `-n`.
     The same three reversals can be told by the last slot of the lower part, the pivot, with the two that
     may be empty left out (`rotate_eq_pivot`).
-/
import LuaBytecode.Proofs.Stack.Refinement

namespace LuaBytecode

open Stack StackM

/-! ## Where a value goes -/

/-- Where rotation by `n` places takes the value at `j` of `size` values: `j + n` modulo `size`. -/
def destination (size : Nat) (n : Int) (j : Nat) : Nat := ((j + n) % (size : Int)).toNat

section Destination

variable {size j : Nat} {n m r : Int}

theorem destination_cast (hsize : 0 < size) : (destination size n j : Int) = (j + n) % (size : Int) :=
  Int.toNat_of_nonneg (Int.emod_nonneg _ (by omega))

/-- Destinations are among the places that there are. -/
theorem destination_lt (hsize : 0 < size) : destination size n j < size := by
  have hlt : (j + n) % (size : Int) < size := Int.emod_lt_of_pos _ (by omega)
  rw [← destination_cast hsize] at hlt
  omega

theorem destination_zero (hj : j < size) : destination size 0 j = j := by
  unfold destination
  rw [Int.add_zero, Int.emod_eq_of_lt (by omega) (by omega), Int.toNat_natCast]

/-- Going on from a destination is going by a sum of places, or by any number congruent to it. -/
theorem destination_destination (hsize : 0 < size) (hr : r % (size : Int) = (n + m) % (size : Int)) :
    destination size m (destination size n j) = destination size r j := by
  have hsum : (destination size n j + m) % (size : Int) = (j + r) % (size : Int) := by
    calc ((destination size n j : Int) + m) % (size : Int)
        = ((j + n) % (size : Int) + m) % (size : Int) := by rw [destination_cast hsize]
      _ = (j + (n + m)) % (size : Int) := by rw [Int.emod_add_emod, Int.add_assoc]
      _ = (j + (n + m) % (size : Int)) % (size : Int) := by rw [Int.add_emod_emod]
      _ = (j + r) % (size : Int) := by rw [← hr, Int.add_emod_emod]
  unfold destination at hsum ⊢
  rw [hsum]

/-- Every place is a destination. -/
theorem exists_destination_eq (hj : j < size) : ∃ i, i < size ∧ destination size n i = j := by
  have hsize : 0 < size := by omega
  refine ⟨destination size (-n) j, destination_lt hsize, ?_⟩
  have hback : (0 : Int) % (size : Int) = (-n + n) % (size : Int) := by rw [Int.add_left_neg]
  rw [destination_destination hsize hback, destination_zero hj]

/-- Places that differ by a whole turn lead to the same destination. -/
theorem destination_eq_mod {places : Nat} (h : n = places ∨ n + size = places) :
    destination size n j = (j + places) % size := by
  have hint : (j + n) % (size : Int) = ((j + places : Nat) : Int) % (size : Int) := by
    rcases h with rfl | h
    · rw [Int.natCast_add]
    · rw [Int.natCast_add, ← h, ← Int.add_assoc, Int.add_emod_right]
  unfold destination
  rw [hint, ← Int.natCast_emod, Int.toNat_natCast]

end Destination

/-! ## A rotated stack -/

/-- The second stack is the first with the live values from slot `p` on taken to their destinations under
    rotation by `n` places, and with every other slot, the top and the capacity as they were. -/
structure Stack.RotatedFrom (p : Nat) (n : Int) (s t : Stack) : Prop where
  top_eq : t.top = s.top
  capacity_eq : t.capacity = s.capacity
  moved : ∀ j, j < s.top - p → t.slots[p + destination (s.top - p) n j]? = s.slots[p + j]?
  kept : ∀ i, i < p ∨ s.top ≤ i → t.slots[i]? = s.slots[i]?

namespace Stack.RotatedFrom

variable {p : Nat} {n m r : Int} {s t u : Stack}

/-- Where every value went is all there is to know of a rotated stack. -/
theorem unique (ht : RotatedFrom p n s t) (hu : RotatedFrom p n s u) : t = u := by
  have hslots : t.slots = u.slots := by
    apply Array.ext_getElem?
    intro i
    by_cases houtside : i < p ∨ s.top ≤ i
    · rw [ht.kept i houtside, hu.kept i houtside]
    · obtain ⟨j, hj, hdest⟩ := exists_destination_eq (n := n) (show i - p < s.top - p by omega)
      have hi : p + destination (s.top - p) n j = i := by omega
      rw [← hi, ht.moved j hj, hu.moved j hj]
  have htop : t.top = u.top := ht.top_eq.trans hu.top_eq.symm
  obtain ⟨slots, top⟩ := t
  obtain ⟨slots', top'⟩ := u
  cases hslots
  cases htop
  rfl

/-- Two rotations in a row are one, by any number of places congruent to the sum. -/
theorem trans (hst : RotatedFrom p n s t) (htu : RotatedFrom p m t u)
    (hr : r % ((s.top - p : Nat) : Int) = (n + m) % ((s.top - p : Nat) : Int)) :
    RotatedFrom p r s u where
  top_eq := htu.top_eq.trans hst.top_eq
  capacity_eq := htu.capacity_eq.trans hst.capacity_eq
  moved := by
    intro j hj
    have hsize : 0 < s.top - p := by omega
    have hnext := htu.moved (destination (s.top - p) n j)
    rw [hst.top_eq] at hnext
    rw [← destination_destination hsize hr, hnext (destination_lt hsize), hst.moved j hj]
  kept := by
    intro i houtside
    have houtside' : i < p ∨ t.top ≤ i := by rw [hst.top_eq]; exact houtside
    rw [htu.kept i houtside', hst.kept i houtside]

end Stack.RotatedFrom

/-! ## The operation -/

/-- In two exchanged parts every value stands as many places further on as the upper part is long,
    counted around. -/
theorem getElem?_exchanged {α : Type} (lower upper : List α) {j : Nat}
    (hj : j < lower.length + upper.length) :
    (upper ++ lower)[(j + upper.length) % (lower.length + upper.length)]? = (lower ++ upper)[j]? := by
  rcases Nat.lt_or_ge j lower.length with hlower | hupper
  · rw [Nat.mod_eq_of_lt (by omega), List.getElem?_append_right (by omega), Nat.add_sub_cancel,
      List.getElem?_append_left hlower]
  · have hplace : (j + upper.length) % (lower.length + upper.length) = j - lower.length := by
      rw [show j + upper.length = j - lower.length + (lower.length + upper.length) by omega,
        Nat.add_mod_right, Nat.mod_eq_of_lt (by omega)]
    rw [hplace, List.getElem?_append_left (by omega), List.getElem?_append_right hupper]

/-- Exchanging the two parts of the stretch above `below` takes its values to their destinations. -/
theorem rotatedFrom_row {below lower upper spare : List Value} {n : Int}
    (hn : (0 ≤ n ∧ n = upper.length) ∨ (n < 0 ∧ -n = lower.length)) :
    RotatedFrom below.length n (row (below ++ lower ++ upper) spare)
      (row (below ++ upper ++ lower) spare) := by
  have hsize : (row (below ++ lower ++ upper) spare).top - below.length
      = lower.length + upper.length := by simp
  have htop : (row (below ++ upper ++ lower) spare).top = (row (below ++ lower ++ upper) spare).top := by
    simp only [top_row, List.length_append]
    omega
  constructor
  · exact htop
  · simp only [capacity_row, List.length_append]
    omega
  · intro j hj
    rw [hsize] at hj ⊢
    have hplaces : n = upper.length ∨ n + (lower.length + upper.length : Nat) = upper.length := by omega
    have hdest := destination_lt (n := n) (j := j) (show 0 < lower.length + upper.length by omega)
    -- both slots are in the stretch, so nothing below or above it is looked at
    have hslot {first second : List Value} {i : Nat} (hi : i < first.length + second.length) :
        (row (below ++ first ++ second) spare).slots[below.length + i]? = (first ++ second)[i]? := by
      rw [slots_row, List.getElem?_toArray, List.getElem?_append_left (by simp only [List.length_append]; omega),
        List.append_assoc, List.getElem?_append_right (by omega), Nat.add_sub_cancel_left]
    rw [hslot (by omega), hslot hj, destination_eq_mod hplaces, getElem?_exchanged lower upper hj]
  · intro i houtside
    rw [slots_row, slots_row, List.getElem?_toArray, List.getElem?_toArray]
    rcases houtside with hbelow | habove
    · simp only [List.append_assoc]
      rw [List.getElem?_append_left hbelow, List.getElem?_append_left hbelow]
    · have habove' := habove
      rw [← htop, top_row] at habove'
      rw [top_row] at habove
      rw [List.getElem?_append_right habove', List.getElem?_append_right habove]
      congr 1
      simp only [List.length_append]
      omega

/-- **Rotation by no more places than there are values** takes every value to its destination. -/
theorem StackM.rotate_of_le {s : Stack} {index n : Int} {p : Nat} (hs : s.top ≤ s.capacity)
    (htop : s.top < indexBound) (hindex : position? s.top index = some p) (hn : n.natAbs ≤ s.top - p) :
    ∃ t, rotate index n s = .ok () t ∧ RotatedFrom p n s t ∧ t.live.Perm s.live := by
  obtain ⟨live, spare, rfl⟩ := exists_row hs
  rw [top_row] at hindex hn
  rw [← slotOf?_row htop] at hindex
  obtain ⟨below, lower, upper, rfl, rfl, hparts⟩ := exists_parts (slotOf?_lt hindex) hn
  refine ⟨row (below ++ upper ++ lower) spare, rotate_row hindex hparts, rotatedFrom_row hparts, ?_⟩
  rw [live_row, live_row, List.append_assoc, List.append_assoc]
  exact List.perm_append_comm.append_left below

/-- Any other rotation is refused. -/
theorem StackM.rotate_of_not_le {s : Stack} {index n : Int} (hs : s.top ≤ s.capacity)
    (htop : s.top < indexBound) (h : ¬ ∃ p, position? s.top index = some p ∧ n.natAbs ≤ s.top - p) :
    rotate index n s = .error (.invalidIndex index) s := by
  obtain ⟨live, spare, rfl⟩ := exists_row hs
  rw [top_row] at h
  have hslot : (row live spare).slotOf? index = _ := slotOf?_row htop index
  cases hindex : position? live.length index with
  | none => exact rotate_row_invalid (hslot.trans hindex)
  | some p =>
    refine rotate_row_excess (hslot.trans hindex) ?_
    apply Nat.lt_of_not_le
    intro hle
    exact h ⟨p, hindex, hle⟩

/-! ## The pivot -/

/-- So a reversal may be left out unless its range has two slots. -/
theorem StackM.reverse_guarded {p : Prop} [Decidable p] {lo hi : Nat} {rest : StackM Unit}
    (h : ¬ p → hi ≤ lo) : (if p then (do reverse lo hi; rest) else rest) = (do reverse lo hi; rest) := by
  split
  · rfl
  · rename_i hp
    rw [reverse_eq_pure (h hp)]
    rfl

/-- The cut between the two parts, `cut` values above slot `p`, is right above the pivot `m = p + cut - 1`. -/
theorem StackM.reversals_eq_pivot {top p : Nat} {n : Int} (hp : p < top) (hn : n.natAbs ≤ top - p) :
    (do
      let cut := if 0 ≤ n then top - p - n.natAbs else n.natAbs
      reverse p (p + cut - 1)
      reverse (p + cut) (top - 1)
      reverse p (top - 1)) = (do
      let t : Int := top - 1
      let m : Int := if 0 ≤ n then t - n else p - n - 1
      if p ≤ m then reverse p m.toNat
      if m < t then reverse (m + 1).toNat t.toNat
      reverse p t.toNat : StackM Unit) := by
  dsimp only
  have ht : ((top : Int) - 1).toNat = top - 1 := by omega
  generalize hcut : (if 0 ≤ n then top - p - n.natAbs else n.natAbs) = cut
  have hm : (if 0 ≤ n then (top : Int) - 1 - n else p - n - 1) = p + cut - 1 := by
    split at hcut <;> rename_i hsign
    · rw [if_pos hsign]
      omega
    · rw [if_neg hsign]
      omega
  have hlower : ((p : Int) + cut - 1).toNat = p + cut - 1 := by omega
  have hupper : ((p : Int) + cut - 1 + 1).toNat = p + cut := by omega
  rw [hm, ht, hlower, hupper, reverse_guarded (by omega), reverse_guarded (by omega)]

/-- **The pivot.**  Rotation is refused unless the index is valid and there are that many values from slot
    `p` to the topmost one, `t`.  Otherwise it reverses from `p` to the pivot and from above the pivot to
    `t`, each only if there is such a range, and then all of it. -/
theorem StackM.rotate_eq_pivot (index n : Int) :
    rotate index n = (do
      let s ← get
      require (s.isValid index = true) (.invalidIndex index)
      let t : Int := s.top - 1
      let p : Int := s.absIndex index - 1
      require (n.natAbs ≤ t - p + 1) (.invalidIndex index)
      let m : Int := if 0 ≤ n then t - n else p - n - 1
      if p ≤ m then reverse p.toNat m.toNat
      if m < t then reverse (m + 1).toNat t.toNat
      reverse p.toNat t.toNat) := by
  funext s
  rw [rotate, get_bind, get_bind, slotOf?]
  by_cases hvalid : s.isValid index = true
  · obtain ⟨hpos, hle⟩ := of_decide_eq_true hvalid
    obtain ⟨p, hp⟩ : ∃ p : Nat, s.absIndex index - 1 = p := ⟨(s.absIndex index - 1).toNat, by omega⟩
    rw [if_pos hvalid, bind_of_ok (require_pos hvalid), hp, Int.toNat_natCast]
    dsimp only
    by_cases hn : n.natAbs ≤ s.top - p
    · rw [bind_of_ok (require_pos hn), bind_of_ok (require_pos (by omega))]
      exact congrFun (reversals_eq_pivot (by omega) hn) s
    · rw [bind_of_error (require_neg hn), bind_of_error (require_neg (by omega))]
  · rw [if_neg hvalid, bind_of_error (require_neg hvalid)]
    rfl

/-! ## Positions -/

/-- **Three reversals are a rotation.**  On every stack whose top is within its slots and is an index,
    rotation succeeds exactly if the index is that of a live value, at slot `p` say, and the number of
    places is at most the number `k` of values from there on, and otherwise it refuses the index.  If it
    succeeds, the value `j` places above `p` comes to stand `(j + n) mod k` places above `p`, nothing else
    changes, and the live values are those that were there, each as often.  Rotation by `n` and then by
    `m` places is rotation by any number of places within `k` that is `n + m` modulo `k`. -/
theorem StackM.rotate_moves_modulo {s : Stack} (hs : s.top ≤ s.capacity) (htop : s.top < indexBound)
    (index n : Int) :
    ((∃ t, rotate index n s = .ok () t)
      ↔ ∃ p, position? s.top index = some p ∧ n.natAbs ≤ s.top - p)
    ∧ (∀ e t, rotate index n s = .error e t → e = .invalidIndex index ∧ t = s)
    ∧ ∀ p, position? s.top index = some p →
      (∀ t, rotate index n s = .ok () t → RotatedFrom p n s t ∧ t.live.Perm s.live)
      ∧ ∀ m r : Int, n.natAbs ≤ s.top - p → m.natAbs ≤ s.top - p → r.natAbs ≤ s.top - p →
        r % ((s.top - p : Nat) : Int) = (n + m) % ((s.top - p : Nat) : Int) →
        (do rotate index n; rotate index m) s = rotate index r s := by
  have hverdict : (∃ t, rotate index n s = .ok () t)
      ↔ ∃ p, position? s.top index = some p ∧ n.natAbs ≤ s.top - p := by
    constructor
    · rintro ⟨t, ht⟩
      by_cases h : ∃ p, position? s.top index = some p ∧ n.natAbs ≤ s.top - p
      · exact h
      · rw [rotate_of_not_le hs htop h] at ht
        cases ht
    · rintro ⟨p, hindex, hn⟩
      obtain ⟨t, ht, _⟩ := rotate_of_le hs htop hindex hn
      exact ⟨t, ht⟩
  refine ⟨hverdict, ?_, fun p hindex => ⟨?_, ?_⟩⟩
  · intro e t ht
    have hrefused : ¬ ∃ p, position? s.top index = some p ∧ n.natAbs ≤ s.top - p := by
      intro h
      obtain ⟨u, hu⟩ := hverdict.2 h
      rw [hu] at ht
      cases ht
    cases (rotate_of_not_le hs htop hrefused).symm.trans ht
    exact ⟨rfl, rfl⟩
  · intro t ht
    obtain ⟨q, hq, hn⟩ := hverdict.1 ⟨t, ht⟩
    obtain rfl : q = p := Option.some.inj (hq.symm.trans hindex)
    obtain ⟨u, hu, hrotated⟩ := rotate_of_le hs htop hindex hn
    cases hu.symm.trans ht
    exact hrotated
  · intro m r hn hm hr hsum
    obtain ⟨t, ht, hst, _⟩ := rotate_of_le hs htop hindex hn
    -- the second rotation finds the same height, so the same slot and the same stretch
    have hs' : t.top ≤ t.capacity := by rw [hst.top_eq, hst.capacity_eq]; exact hs
    have htop' : t.top < indexBound := by rw [hst.top_eq]; exact htop
    have hindex' : position? t.top index = some p := by rw [hst.top_eq]; exact hindex
    obtain ⟨u, hu, htu, _⟩ := rotate_of_le hs' htop' hindex' (n := m) (by rw [hst.top_eq]; exact hm)
    obtain ⟨v, hv, hsv, _⟩ := rotate_of_le hs htop hindex hr
    have hsame : u = v := (hst.trans htu hsum).unique hsv
    rw [bind_of_ok ht, hu, hv, hsame]

/-- Five values and a spare slot. -/
def rotationSample : Stack := ⟨#[.int 1, .int 2, .int 3, .int 4, .int 5, .nil], 5⟩

/-- Down by one place and up by three, among the four values from the second on: as far as down by two. -/
theorem StackM.rotate_moves_modulo_sample :
    rotationSample.top ≤ rotationSample.capacity
      ∧ rotationSample.top < indexBound
      ∧ (∃ t, rotate 2 (-1) rotationSample = .ok () t
        ∧ RotatedFrom 1 (-1) rotationSample t ∧ t.live.Perm rotationSample.live)
      ∧ (do rotate 2 (-1); rotate 2 3) rotationSample = rotate 2 (-2) rotationSample := by
  have hs : rotationSample.top ≤ rotationSample.capacity := by decide
  have htop : rotationSample.top < indexBound := by decide
  obtain ⟨hverdict, _, hmoves⟩ := rotate_moves_modulo hs htop 2 (-1)
  obtain ⟨hrotated, hsum⟩ := hmoves 1 rfl
  obtain ⟨t, ht⟩ := hverdict.2 ⟨1, rfl, by decide⟩
  exact ⟨hs, htop, ⟨t, ht, hrotated t ht⟩, hsum 3 (-2) (by decide) (by decide) (by decide) (by decide)⟩

end LuaBytecode
