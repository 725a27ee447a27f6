/-
  The stack is a plain list with a capacity.

  1. **The list machine** — `ListStack` holds the live values, bottom first, and the number of slots.  Its
     operations are the obvious ones on lists: append, set, insert, erase, rotate, take and pad.  A failed
     operation leaves the list as it is, by construction.

  2. **One operation** — `Performs op spec` says that on every row of slots `op` succeeds exactly if `spec`
     does, with the new live values and capacity in the slots, and otherwise fails with the same error
     and leaves every slot as it was.  Operations that are built from others (erasing is a rotation and a
     pop, popping is a change of height, replacing is a load, a store and a pop) are taken apart here once.

  3. **A run** — `stackRun` and the list machine go in step: by induction on the commands, after each of
     them the stack is a row whose live values and capacity are those of the list machine.

  The list machine knows nothing of words.  So the two agree as long as the run is `Bounded`: there are
  always fewer values than indices, every reservation is for a number of slots that can be counted, and
  every height and every number of values to pop is an index.
-/
import LuaBytecode.Proofs.Stack.Row

namespace LuaBytecode

/-! ## The list machine -/

/-- Live values, bottom first, and the number of values there is room for. -/
structure ListStack where
  values : List Value
  capacity : Nat
  deriving DecidableEq

namespace ListStack

/-- No values, and room for `size`. -/
def ofSize (size : Nat) : ListStack := ⟨[], size⟩

/-- Where an index points, counted from zero. -/
def position? (l : ListStack) (index : Int) : Option Nat := Stack.position? l.values.length index

/-- The value at an index. -/
def get? (l : ListStack) (index : Int) : Option Value := (l.position? index).bind (l.values[·]?)

/-- The value at an index, nil where there is none. -/
def get (l : ListStack) (index : Int) : Value := (l.get? index).getD .nil

/-- The last value. -/
def last (l : ListStack) : Value := l.values.getLast?.getD .nil

/-- Appends a value if there is room. -/
def push (l : ListStack) (v : Value) : Except StackError ListStack :=
  if l.values.length = l.capacity then .error .overflow else .ok { l with values := l.values ++ [v] }

/-- Changes the values at a valid index. -/
def update (l : ListStack) (index : Int) (change : Nat → List Value) : Except StackError ListStack :=
  match l.position? index with
  | some k => .ok { l with values := change k }
  | none => .error (.invalidIndex index)

/-- Stores a value at an index. -/
def store (l : ListStack) (index : Int) (v : Value) : Except StackError ListStack :=
  l.update index fun k => l.values.set k v

/-- Stores the last value at an index and drops it. -/
def replace (l : ListStack) (index : Int) : Except StackError ListStack :=
  if l.values = [] then .error .underflow
  else l.update index fun k => (l.values.set k l.last).dropLast

/-- Moves the last value to an index; the values from there on move up. -/
def insert (l : ListStack) (index : Int) : Except StackError ListStack :=
  l.update index fun k => l.values.dropLast.insertIdx k l.last

/-- Erases the value at an index. -/
def remove (l : ListStack) (index : Int) : Except StackError ListStack :=
  l.update index fun k => l.values.eraseIdx k

/-- Rotates the values from an index on, toward the end for positive `n`, by no more places than there
    are values. -/
def rotate (l : ListStack) (index n : Int) : Except StackError ListStack :=
  match l.position? index with
  | some k =>
    if n.natAbs ≤ l.values.length - k then
      .ok { l with values := l.values.take k
              ++ if 0 ≤ n then (l.values.drop k).rotateRight n.natAbs
                 else (l.values.drop k).rotateLeft n.natAbs }
    else .error (.invalidIndex index)
  | none => .error (.invalidIndex index)

/-- The height that an index stands for. -/
def heightAt (l : ListStack) (index : Int) : Int :=
  if index < 0 then l.values.length + 1 + index else index

/-- Cuts the values off at a height, or fills them up to it with nil. -/
def setTop (l : ListStack) (index : Int) : Except StackError ListStack :=
  if l.heightAt index < 0 then .error .underflow
  else
    let k := (l.heightAt index).toNat
    .ok ⟨l.values.take k ++ List.replicate (k - l.values.length) .nil, Nat.max l.capacity k⟩

/-- Makes room for `n` more values. -/
def reserve (l : ListStack) (n : Nat) : ListStack :=
  { l with capacity := Nat.max l.capacity (l.values.length + n) }

/-- A string as it is, a number as its text. -/
def stringOf? : Value → Option Bytes
  | .str bytes => some bytes
  | v => v.numberText?.map Utf8.encode

/-- The string at an index, which is stored there if it was a number. -/
def toString? (l : ListStack) (index : Int) : Option Bytes × ListStack :=
  match l.position? index, (l.get? index).bind stringOf? with
  | some k, some bytes => (some bytes, { l with values := l.values.set k (.str bytes) })
  | _, _ => (none, l)

/-- The outcome of an operation that yields nothing. -/
def done (l : ListStack) : Except StackError ListStack → Except StackError StackResult × ListStack
  | .ok l' => (.ok .done, l')
  | .error e => (.error e, l)

/-- Carries out a command. -/
def step (l : ListStack) : StackCommand → Except StackError StackResult × ListStack
  | .pushNil => l.done (l.push .nil)
  | .pushBoolean b => l.done (l.push (.bool b))
  | .pushInteger n => l.done (l.push (.int n))
  | .pushNumber f => l.done (l.push (.float f))
  | .pushString bytes => l.done (l.push (.str bytes))
  | .pushValue index => l.done (l.push (l.get index))
  | .pop n => l.done (l.setTop (-n - 1))
  | .copy source target => l.done (l.store target (l.get source))
  | .replace index => l.done (l.replace index)
  | .insert index => l.done (l.insert index)
  | .remove index => l.done (l.remove index)
  | .rotate index n => l.done (l.rotate index n)
  | .setTop index => l.done (l.setTop index)
  | .checkStack n => (.ok (.bool true), l.reserve n)
  | .getTop => (.ok (.index l.values.length), l)
  | .absIndex index => (.ok (.index (l.heightAt index)), l)
  | .toString? index => (.ok (.string? (l.toString? index).1), (l.toString? index).2)
  | .toStringD index => (.ok (.string ((l.toString? index).1.getD [])), (l.toString? index).2)
  | .inspect index => (.ok (.view index), l)

/-- The command stays within words: the slots that it reserves can be counted, and the height that it asks
    for is an index, as is the negative of a number of values to pop. -/
def Admits (l : ListStack) : StackCommand → Prop
  | .checkStack n => l.values.length + n < Stack.wordBound
  | .pop n => -n < Stack.indexBound
  | .setTop index => index < Stack.indexBound
  | _ => True

/-- The run stays within words: there are always fewer values than indices, and all its commands stay
    within words. -/
def Bounded : ListStack → List StackCommand → Prop
  | l, [] => l.values.length < Stack.indexBound
  | l, c :: rest => l.values.length < Stack.indexBound ∧ l.Admits c ∧ Bounded (l.step c).2 rest

instance decidableAdmits (l : ListStack) : (c : StackCommand) → Decidable (l.Admits c)
  | .checkStack n => inferInstanceAs (Decidable (l.values.length + n < Stack.wordBound))
  | .pop n => inferInstanceAs (Decidable (-n < Stack.indexBound))
  | .setTop index => inferInstanceAs (Decidable (index < Stack.indexBound))
  | .pushNil | .pushBoolean _ | .pushInteger _ | .pushNumber _ | .pushString _ | .pushValue _
  | .copy _ _ | .replace _ | .insert _ | .remove _ | .rotate _ _ | .getTop | .absIndex _
  | .toString? _ | .toStringD _ | .inspect _ => instDecidableTrue

instance decidableBounded : (l : ListStack) → (commands : List StackCommand) → Decidable (l.Bounded commands)
  | l, [] => inferInstanceAs (Decidable (l.values.length < Stack.indexBound))
  | l, c :: rest =>
    have := decidableBounded (l.step c).2 rest
    inferInstanceAs (Decidable (_ ∧ _ ∧ _))

/-- A bounded run starts from fewer values than indices. -/
theorem Bounded.length_lt {l : ListStack} {commands : List StackCommand} (h : l.Bounded commands) :
    l.values.length < Stack.indexBound := by
  cases commands with
  | nil => exact h
  | cons c rest => exact h.1

/-- The outcome of every command of a run. -/
def run : ListStack → List StackCommand → List (Except StackError StackResult × ListStack)
  | _, [] => []
  | l, c :: rest => l.step c :: run (l.step c).2 rest

end ListStack

/-! ## Rows as lists -/

/-- The live values and the capacity of a stack. -/
def Stack.view (s : Stack) : ListStack := ⟨s.live, s.capacity⟩

/-- What a row is to the list machine. -/
def listOf (live spare : List Value) : ListStack := ⟨live, live.length + spare.length⟩

@[simp] theorem Stack.view_row (live spare : List Value) : (row live spare).view = listOf live spare := by
  simp [view, listOf]

theorem position?_listOf (live spare : List Value) (index : Int) :
    (listOf live spare).position? index = Stack.position? live.length index := rfl

/-- What a fresh stack is to the list machine. -/
theorem listOf_fresh (size : Nat) : listOf [] (List.replicate size .nil) = ListStack.ofSize size := by
  simp [listOf, ListStack.ofSize]

/-- What can be seen of an outcome: the result and the live values and capacity afterwards. -/
def observe {α : Type} : EStateM.Result StackError Stack α → Except StackError α × ListStack
  | .ok r s => (.ok r, s.view)
  | .error e s => (.error e, s.view)

open Stack StackM

/-! ## One operation -/

/-- The outcome of an operation on a row: success with another row, or failure with the same one. -/
inductive Performed (live spare : List Value) :
    EStateM.Result StackError Stack Unit → Except StackError ListStack → Prop
  | ok (live' spare' : List Value) :
    Performed live spare (.ok () (row live' spare')) (.ok (listOf live' spare'))
  | error (e : StackError) : Performed live spare (.error e (row live spare)) (.error e)

/-- On every row with fewer values than indices the operation does what `spec` does to the list, and a
    failure changes no slot. -/
def Performs (op : StackM Unit) (spec : ListStack → Except StackError ListStack) : Prop :=
  ∀ live spare, live.length < indexBound →
    Performed live spare (op (row live spare)) (spec (listOf live spare))

/-- It is enough to compare values and capacity. -/
theorem Performed.of_eq {live spare live' spare' : List Value} {l : ListStack}
    (hvalues : l.values = live') (hcapacity : l.capacity = live'.length + spare'.length) :
    Performed live spare (.ok () (row live' spare')) (.ok l) := by
  have : l = listOf live' spare' := by
    obtain ⟨values, capacity⟩ := l
    rw [listOf, ← hcapacity, ← hvalues]
  rw [this]
  exact .ok live' spare'

/-- A push takes up the first spare slot, if there is one. -/
theorem performs_push (v : Value) : Performs (push v) (·.push v) := by
  intro live spare _
  show Performed live spare _ ((listOf live spare).push v)
  cases spare with
  | nil =>
    rw [push_row_nil, ListStack.push, if_pos (by simp [listOf])]
    exact .error .overflow
  | cons x spare =>
    rw [push_row_cons, ListStack.push, if_neg (by simp [listOf])]
    refine .of_eq rfl ?_
    simp only [listOf, List.length_append, List.length_cons, List.length_nil]
    omega

/-- The value at an index of a row is that of the list. -/
theorem load_listOf {live : List Value} (hlive : live.length < indexBound) (spare : List Value)
    (index : Int) : load index (row live spare) = .ok ((listOf live spare).get index) (row live spare) := by
  rw [load_row, slotOf?_row hlive]
  rfl

/-- Reading changes nothing, so what was read is pushed on the same row. -/
theorem performs_pushValue (index : Int) : Performs (pushValue index) fun l => l.push (l.get index) := by
  intro live spare hlive
  rw [pushValue, bind_of_ok (load_listOf hlive spare index)]
  exact performs_push _ live spare hlive

section Update

variable {live spare : List Value} {index : Int} {change : Nat → List Value}

/-- A valid index changes the values and not the capacity. -/
theorem update_listOf_some {k : Nat} (h : Stack.position? live.length index = some k) :
    (listOf live spare).update index change = .ok ⟨change k, live.length + spare.length⟩ := by
  rw [ListStack.update, position?_listOf, h]
  rfl

theorem update_listOf_none (h : Stack.position? live.length index = none) :
    (listOf live spare).update index change = .error (.invalidIndex index) := by
  rw [ListStack.update, position?_listOf, h]

end Update

/-- The index is valid for the stack exactly if it is for the list. -/
theorem performs_store (index : Int) (v : Value) : Performs (store index v) (·.store index v) := by
  intro live spare hlive
  show Performed live spare _ ((listOf live spare).store index v)
  have hslot : (row live spare).slotOf? index = _ := slotOf?_row hlive index
  cases h : Stack.position? live.length index with
  | none =>
    rw [store_row_none (hslot.trans h), ListStack.store, update_listOf_none h]
    exact .error (.invalidIndex index)
  | some k =>
    rw [store_row_some (hslot.trans h), ListStack.store, update_listOf_some h]
    exact .of_eq rfl (by simp)

/-- Where there is no value to copy, nil is stored. -/
theorem performs_copy (source target : Int) :
    Performs (copy source target) fun l => l.store target (l.get source) := by
  intro live spare hlive
  rw [copy, bind_of_ok (load_listOf hlive spare source)]
  exact performs_store target _ live spare hlive

/-- Replacing checks for emptiness before it looks at the index. -/
theorem performs_replace (index : Int) : Performs (replace index) (·.replace index) := by
  intro live spare hlive
  show Performed live spare _ ((listOf live spare).replace index)
  by_cases hempty : live = []
  · subst hempty
    have hnil : (listOf [] spare).values = [] := rfl
    rw [replace, get_bind, bind_of_error (require_neg (by simp)), ListStack.replace, if_pos hnil]
    exact .error .underflow
  · obtain ⟨below, v, rfl⟩ := exists_append_singleton hempty
    have hne : (listOf (below ++ [v]) spare).values ≠ [] := by simp [listOf]
    have hv : (listOf (below ++ [v]) spare).last = v := by simp [listOf, ListStack.last]
    rw [replace, get_bind, bind_of_ok (require_pos (by simp)), bind_of_ok (load_top hlive), ListStack.replace,
      if_neg hne]
    have hslot : (row (below ++ [v]) spare).slotOf? index = _ := slotOf?_row hlive index
    cases h : Stack.position? (below ++ [v]).length index with
    | none =>
      rw [bind_of_error (store_row_none (hslot.trans h) v), update_listOf_none h]
      exact .error (.invalidIndex index)
    | some k =>
      rw [bind_of_ok (store_row_some (hslot.trans h) v), update_listOf_some h, hv]
      -- the top slot still holds a value to pop, whichever slot was written
      have hkept : (below ++ [v]).set k v ≠ [] := by simp
      obtain ⟨below', v', hset⟩ := exists_append_singleton hkept
      have hlen : below'.length = below.length := by
        have := congrArg List.length hset
        simpa using this.symm
      rw [hset, bind_of_ok (pop_row_append v')]
      refine .of_eq ?_ ?_
      · show ((below ++ [v]).set k v).dropLast = below'
        rw [hset, List.dropLast_concat]
      · simp only [hlen, List.length_append, List.length_cons, List.length_nil]
        omega

/-! ## Rotation and what is made of it -/

/-- Rotating by no more than the length is cutting in two and exchanging the parts. -/
theorem rotateRight_eq {α : Type} {xs : List α} {n : Nat} (hn : n ≤ xs.length) :
    xs.rotateRight n = xs.drop (xs.length - n) ++ xs.take (xs.length - n) := by
  unfold List.rotateRight
  dsimp only
  split
  · -- at most one value: every cut leaves the list
    rcases Nat.eq_zero_or_pos n with rfl | hpos
    · simp
    · rw [show xs.length - n = 0 by omega]
      simp
  · rcases Nat.lt_or_eq_of_le hn with hlt | rfl
    · rw [Nat.mod_eq_of_lt hlt]
    · simp

theorem rotateLeft_eq {α : Type} {xs : List α} {n : Nat} (hn : n ≤ xs.length) :
    xs.rotateLeft n = xs.drop n ++ xs.take n := by
  unfold List.rotateLeft
  dsimp only
  split
  · rcases Nat.eq_zero_or_pos n with rfl | hpos
    · simp
    · rw [show n = xs.length by omega]
      simp
  · rcases Nat.lt_or_eq_of_le hn with hlt | rfl
    · rw [Nat.mod_eq_of_lt hlt]
    · simp

theorem length_rotateRight {α : Type} {xs : List α} {n : Nat} (hn : n ≤ xs.length) :
    (xs.rotateRight n).length = xs.length := by
  rw [rotateRight_eq hn, List.length_append, List.length_drop, List.length_take]
  omega

theorem length_rotateLeft {α : Type} {xs : List α} {n : Nat} (hn : n ≤ xs.length) :
    (xs.rotateLeft n).length = xs.length := by
  rw [rotateLeft_eq hn, List.length_append, List.length_drop, List.length_take]
  omega

/-- Rotation of a row, the moved values being those from the index on. -/
theorem rotate_row_drop {live spare : List Value} {index n : Int} {k : Nat}
    (hindex : (row live spare).slotOf? index = some k) (hn : n.natAbs ≤ live.length - k) :
    rotate index n (row live spare)
      = .ok () (row (live.take k
          ++ if 0 ≤ n then (live.drop k).rotateRight n.natAbs else (live.drop k).rotateLeft n.natAbs)
        spare) := by
  obtain ⟨below, lower, upper, rfl, rfl, hparts⟩ := exists_parts (slotOf?_lt hindex) hn
  rw [rotate_row hindex hparts, List.append_assoc below lower, List.take_left, List.drop_left,
    List.append_assoc]
  rcases hparts with ⟨hup, hplaces⟩ | ⟨hdown, hplaces⟩
  · have hupper : n.natAbs = upper.length := by omega
    rw [if_pos hup, hupper, rotateRight_eq (by simp), List.length_append, Nat.add_sub_cancel,
      List.take_left, List.drop_left]
  · have hlower : n.natAbs = lower.length := by omega
    rw [if_neg (by omega), hlower, rotateLeft_eq (by simp), List.take_left, List.drop_left]

/-- Rotation keeps the height. -/
theorem length_rotated {live : List Value} {k : Nat} {n : Int} (hn : n.natAbs ≤ live.length - k) :
    (live.take k ++ if 0 ≤ n then (live.drop k).rotateRight n.natAbs
      else (live.drop k).rotateLeft n.natAbs).length = live.length := by
  have hmoved : n.natAbs ≤ (live.drop k).length := by rw [List.length_drop]; exact hn
  have hsame : (if 0 ≤ n then (live.drop k).rotateRight n.natAbs
      else (live.drop k).rotateLeft n.natAbs).length = (live.drop k).length := by
    split
    · exact length_rotateRight hmoved
    · exact length_rotateLeft hmoved
  rw [List.length_append, hsame, ← List.length_append, List.take_append_drop]

/-- The stretch is cut where the list is, and refused where the list refuses. -/
theorem performs_rotate (index n : Int) : Performs (rotate index n) (·.rotate index n) := by
  intro live spare hlive
  show Performed live spare _ ((listOf live spare).rotate index n)
  have hslot : (row live spare).slotOf? index = _ := slotOf?_row hlive index
  cases h : Stack.position? live.length index with
  | none =>
    rw [rotate_row_invalid (hslot.trans h), ListStack.rotate, position?_listOf, h]
    exact .error (.invalidIndex index)
  | some k =>
    rw [ListStack.rotate, position?_listOf, h]
    show Performed live spare _ (if n.natAbs ≤ live.length - k then _ else _)
    by_cases hn : n.natAbs ≤ live.length - k
    · rw [rotate_row_drop (hslot.trans h) hn, if_pos hn]
      exact .of_eq rfl (by rw [length_rotated hn]; rfl)
    · rw [rotate_row_excess (hslot.trans h) (by omega), if_neg hn]
      exact .error (.invalidIndex index)

theorem insertIdx_length_append {α : Type} (below lower : List α) (v : α) :
    (below ++ lower).insertIdx below.length v = below ++ v :: lower := by
  induction below with
  | nil => rfl
  | cons x below ih => rw [List.cons_append, List.length_cons, List.insertIdx_succ_cons, ih, List.cons_append]

/-- Inserting rotates one place up, so the last value comes to stand below those from the index on. -/
theorem performs_insert (index : Int) : Performs (StackM.insert index) (·.insert index) := by
  intro live spare hlive
  show Performed live spare (rotate index 1 (row live spare)) ((listOf live spare).insert index)
  have hslot : (row live spare).slotOf? index = _ := slotOf?_row hlive index
  cases h : Stack.position? live.length index with
  | none =>
    rw [rotate_row_invalid (hslot.trans h), ListStack.insert, update_listOf_none h]
    exact .error (.invalidIndex index)
  | some k =>
    have hk := position?_lt h
    rw [ListStack.insert, update_listOf_some h]
    obtain ⟨below, lower, v, rfl, rfl⟩ :
        ∃ below lower v, live = below ++ lower ++ [v] ∧ k = below.length := by
      have hmoved : live.drop k ≠ [] := by
        intro hnil
        rw [List.drop_eq_nil_iff] at hnil
        omega
      obtain ⟨lower, v, hdrop⟩ := exists_append_singleton hmoved
      refine ⟨live.take k, lower, v, ?_, by rw [List.length_take]; omega⟩
      rw [List.append_assoc, ← hdrop, List.take_append_drop]
    have hvalues : (listOf (below ++ lower ++ [v]) spare).values.dropLast.insertIdx below.length
        (listOf (below ++ lower ++ [v]) spare).last = below ++ [v] ++ lower := by
      rw [listOf, ListStack.last, List.dropLast_concat, List.getLast?_concat, Option.getD_some,
        insertIdx_length_append, List.append_assoc, List.singleton_append]
    have hrotate : rotate index 1 (row (below ++ lower ++ [v]) spare)
        = .ok () (row (below ++ [v] ++ lower) spare) :=
      rotate_row (hslot.trans h) (.inl ⟨by omega, rfl⟩)
    rw [hrotate, hvalues]
    exact .of_eq rfl (by simp)

/-! ## Height -/

theorem heightAt_listOf {live : List Value} (hlive : live.length < indexBound) (spare : List Value)
    (index : Int) : (row live spare).absIndex index = (listOf live spare).heightAt index :=
  absIndex_row hlive index

/-- A height that is asked for by an index can be counted. -/
theorem heightAt_lt_wordBound {live : List Value} {index : Int} (hlive : live.length < indexBound)
    (spare : List Value) (hindex : index < indexBound) : (listOf live spare).heightAt index < wordBound := by
  unfold indexBound at hlive hindex
  simp only [ListStack.heightAt, listOf, wordBound]
  split <;> omega

/-- Up, down, or below the bottom; growing pushes nil into slots that are there or are made. -/
theorem performs_setTop {index : Int} (hindex : index < indexBound) :
    Performs (setTop index) (·.setTop index) := by
  intro live spare hlive
  show Performed live spare _ ((listOf live spare).setTop index)
  rw [ListStack.setTop]
  have h := heightAt_listOf hlive spare index
  have hfits := heightAt_lt_wordBound hlive spare hindex
  by_cases hneg : (listOf live spare).heightAt index < 0
  · rw [setTop_row_underflow (by rw [h]; exact hneg), if_pos hneg]
    exact .error .underflow
  · obtain ⟨k, hk⟩ := Int.eq_ofNat_of_zero_le (Int.not_lt.1 hneg)
    -- from here on the new height is a natural number
    rw [if_neg hneg, hk, Int.toNat_natCast]
    rw [hk] at h hfits
    have hcap : (listOf live spare).capacity = live.length + spare.length := rfl
    show Performed live spare _ (.ok ⟨live.take k ++ List.replicate (k - live.length) .nil, _⟩)
    rcases Nat.lt_or_ge live.length k with hlt | hge
    · rw [setTop_row_grow hlive h hlt (Int.ofNat_lt.1 hfits)]
      refine .of_eq (by rw [List.take_of_length_le (by omega)]) ?_
      simp only [hcap, Nat.max_def, List.length_append, List.length_replicate, List.length_drop]
      split <;> omega
    · rw [setTop_row_shrink hlive h hge]
      refine .of_eq (by simp [Nat.sub_eq_zero_of_le hge]) ?_
      simp only [hcap, Nat.max_def, List.length_append, List.length_replicate, List.length_take]
      split <;> omega

/-- Popping as many values as can be counted down to is a change of height. -/
theorem performs_popMany {n : Int} (hn : -n < indexBound) : Performs (popMany n) (·.setTop (-n - 1)) := by
  intro live spare hlive
  rw [popMany, bind_of_ok (require_pos hn)]
  exact performs_setTop (by omega) live spare hlive

/-- Popping one value is setting the height to one less. -/
theorem popMany_one_row {live : List Value} {v : Value} (hlive : (live ++ [v]).length < indexBound)
    (spare : List Value) : popMany 1 (row (live ++ [v]) spare) = .ok () (row live (.nil :: spare)) := by
  have hheight : (row (live ++ [v]) spare).absIndex (-2) = live.length := by
    rw [absIndex_row hlive, if_pos (by decide), List.length_append, List.length_singleton]
    omega
  rw [popMany, bind_of_ok (require_pos (by decide))]
  show setTop (-2) (row (live ++ [v]) spare) = _
  rw [setTop_row_shrink hlive hheight (by simp)]
  simp

/-- Erasing rotates one place down, so the value comes to stand last, and is popped there. -/
theorem performs_remove (index : Int) : Performs (remove index) (·.remove index) := by
  intro live spare hlive
  show Performed live spare _ ((listOf live spare).remove index)
  have hslot : (row live spare).slotOf? index = _ := slotOf?_row hlive index
  cases h : Stack.position? live.length index with
  | none =>
    rw [remove, bind_of_error (rotate_row_invalid (hslot.trans h)), ListStack.remove, update_listOf_none h]
    exact .error (.invalidIndex index)
  | some k =>
    have hk := position?_lt h
    rw [ListStack.remove, update_listOf_some h]
    obtain ⟨below, v, upper, rfl, rfl⟩ :
        ∃ below v upper, live = below ++ [v] ++ upper ∧ k = below.length := by
      refine ⟨live.take k, live[k], live.drop (k + 1), ?_, by rw [List.length_take]; omega⟩
      rw [List.append_assoc, List.singleton_append, List.getElem_cons_drop, List.take_append_drop]
    have hvalues : (listOf (below ++ [v] ++ upper) spare).values.eraseIdx below.length = below ++ upper := by
      rw [listOf, List.append_assoc, List.eraseIdx_append_of_length_le (Nat.le_refl _), Nat.sub_self]
      rfl
    have hrotate : rotate index (-1) (row (below ++ [v] ++ upper) spare)
        = .ok () (row (below ++ upper ++ [v]) spare) :=
      rotate_row (hslot.trans h) (.inr ⟨by omega, rfl⟩)
    have hrotated : (below ++ upper ++ [v]).length < indexBound := by
      simp only [List.length_append] at hlive ⊢
      omega
    rw [remove, bind_of_ok hrotate, popMany_one_row hrotated, hvalues]
    refine .of_eq rfl ?_
    simp only [List.length_append, List.length_cons, List.length_nil]
    omega

/-! ## Reading strings -/

/-- A number that is read as a string becomes that string; nothing else changes. -/
theorem toString?_row {live : List Value} (hlive : live.length < indexBound) (spare : List Value)
    (index : Int) :
    ∃ live', toString? index (row live spare)
        = .ok ((listOf live spare).toString? index).1 (row live' spare)
      ∧ ((listOf live spare).toString? index).2 = listOf live' spare := by
  have hslot : (row live spare).slotOf? index = _ := slotOf?_row hlive index
  cases h : Stack.position? live.length index with
  | none =>
    have hload : load? index (row live spare) = .ok none (row live spare) := by
      rw [load?_row, hslot, h]
      rfl
    rw [toString?, bind_of_ok hload, ListStack.toString?, position?_listOf, h]
    exact ⟨live, rfl, rfl⟩
  | some k =>
    have hk := position?_lt h
    have hget : (listOf live spare).get? index = live[k]? := by
      rw [ListStack.get?, position?_listOf, h]
      rfl
    have hload : load? index (row live spare) = .ok live[k]? (row live spare) := by
      rw [load?_row, hslot, h, Option.bind_some]
    rw [toString?, bind_of_ok hload, ListStack.toString?, position?_listOf, h, hget]
    have hstore (bytes : Bytes) := @store_row_some live spare index k (hslot.trans h) (.str bytes)
    have hset (bytes : Bytes) : listOf (live.set k (.str bytes)) spare
        = ⟨live.set k (.str bytes), live.length + spare.length⟩ := by
      rw [listOf, List.length_set]
    cases hv : live[k]? with
    | none => exact absurd (List.getElem?_eq_none_iff.1 hv) (by omega)
    | some v =>
      cases v with
      | nil => exact ⟨live, rfl, rfl⟩
      | bool b => exact ⟨live, rfl, rfl⟩
      | str bytes =>
        -- the string is stored over itself
        have hself : live.set k (.str bytes) = live := by
          rw [List.getElem?_eq_getElem hk, Option.some_inj] at hv
          rw [← hv, List.set_getElem_self]
        exact ⟨live.set k (.str bytes), by rw [hself]; rfl, (hset bytes).symm⟩
      | int n => exact ⟨_, bind_of_ok (hstore _), (hset _).symm⟩
      | float f => exact ⟨_, bind_of_ok (hstore _), (hset _).symm⟩

/-! ## A run -/

/-- An outcome that leaves a row, beside the result and the list of the list machine. -/
inductive Matches : EStateM.Result StackError Stack StackResult →
    Except StackError StackResult × ListStack → Prop
  | ok (r : StackResult) (live spare : List Value) :
    Matches (.ok r (row live spare)) (.ok r, listOf live spare)
  | error (e : StackError) (live spare : List Value) :
    Matches (.error e (row live spare)) (.error e, listOf live spare)

/-- An operation that yields nothing, as a command. -/
theorem matches_done {op : StackM Unit} {spec : ListStack → Except StackError ListStack}
    (h : Performs op spec) {live : List Value} (hlive : live.length < indexBound) (spare : List Value) :
    Matches ((do op; return StackResult.done : StackM StackResult) (row live spare))
      ((listOf live spare).done (spec (listOf live spare))) := by
  have hperformed := h live spare hlive
  generalize hop : op (row live spare) = outcome at hperformed
  generalize spec (listOf live spare) = expected at hperformed ⊢
  cases hperformed with
  | ok live' spare' =>
    rw [bind_of_ok hop]
    exact .ok .done live' spare'
  | error e =>
    rw [bind_of_error hop]
    exact .error e live spare

/-- One command does to a row what it does to the list. -/
theorem matches_step {c : StackCommand} {live spare : List Value} (hlive : live.length < indexBound)
    (hc : (listOf live spare).Admits c) :
    Matches (c.run (row live spare)) ((listOf live spare).step c) := by
  cases c with
  | pushNil => exact matches_done (performs_push _) hlive spare
  | pushBoolean b => exact matches_done (performs_push _) hlive spare
  | pushInteger n => exact matches_done (performs_push _) hlive spare
  | pushNumber f => exact matches_done (performs_push _) hlive spare
  | pushString bytes => exact matches_done (performs_push _) hlive spare
  | pushValue index => exact matches_done (performs_pushValue index) hlive spare
  | pop n => exact matches_done (performs_popMany hc) hlive spare
  | copy source target => exact matches_done (performs_copy source target) hlive spare
  | replace index => exact matches_done (performs_replace index) hlive spare
  | insert index => exact matches_done (performs_insert index) hlive spare
  | remove index => exact matches_done (performs_remove index) hlive spare
  | rotate index n => exact matches_done (performs_rotate index n) hlive spare
  | setTop index => exact matches_done (performs_setTop hc) hlive spare
  | checkStack n =>
    have hreserve : (listOf live spare).reserve n
        = listOf live (spare ++ List.replicate (n - spare.length) .nil) := by
      simp only [ListStack.reserve, listOf, Nat.max_def, List.length_append, List.length_replicate]
      congr 1
      split <;> omega
    have hfits : live.length + n < wordBound := hc
    rw [StackCommand.run, bind_of_ok (check_row (.inl hfits)), ListStack.step, hreserve]
    exact .ok (.bool true) live _
  | getTop =>
    have htop : (row live spare).topIndex = live.length := topIndex_of_lt hlive
    show Matches (.ok (.index (row live spare).topIndex) (row live spare)) _
    rw [htop]
    exact .ok (.index live.length) live spare
  | absIndex index =>
    rw [ListStack.step, ← heightAt_listOf hlive]
    exact .ok _ live spare
  | toString? index =>
    obtain ⟨live', hrun, hlist⟩ := toString?_row hlive spare index
    rw [StackCommand.run, bind_of_ok hrun, ListStack.step, hlist]
    exact .ok _ live' spare
  | toStringD index =>
    obtain ⟨live', hrun, hlist⟩ := toString?_row hlive spare index
    have hrunD : toStringD index (row live spare)
        = .ok (((listOf live spare).toString? index).1.getD []) (row live' spare) := bind_of_ok hrun
    rw [StackCommand.run, bind_of_ok hrunD, ListStack.step, hlist]
    exact .ok _ live' spare
  | inspect index => exact .ok (.view index) live spare

/-- Induction on the commands: each starts from the row that the one before it left. -/
theorem stackRun_row {commands : List StackCommand} {live spare : List Value}
    (hbounded : (listOf live spare).Bounded commands) :
    (stackRun StackCommand.run (row live spare) commands).map observe
        = (listOf live spare).run commands
      ∧ ∀ outcome ∈ stackRun StackCommand.run (row live spare) commands,
          ∃ live' spare', stackAfter outcome = row live' spare' ∧ live'.length < indexBound := by
  induction commands generalizing live spare with
  | nil => exact ⟨rfl, fun _ h => absurd h (List.not_mem_nil)⟩
  | cons c rest ih =>
    obtain ⟨hlive, hc, hrest⟩ := hbounded
    have hmatches : Matches (c.run (row live spare)) _ := matches_step hlive hc
    -- however the step ended it left a row, and the rest of the run starts from that
    rw [stackRun, ListStack.run]
    generalize c.run (row live spare) = outcome at hmatches ⊢
    generalize (listOf live spare).step c = expected at hmatches hrest ⊢
    obtain ⟨live', spare', hafter, hlist, hobserve⟩ : ∃ live' spare', stackAfter outcome = row live' spare'
        ∧ expected.2 = listOf live' spare' ∧ observe outcome = expected := by
      cases hmatches with
      | ok r live' spare' => exact ⟨live', spare', rfl, rfl, by rw [observe, view_row]⟩
      | error e live' spare' => exact ⟨live', spare', rfl, rfl, by rw [observe, view_row]⟩
    rw [hlist] at hrest
    obtain ⟨hmap, hrows⟩ := ih hrest
    rw [List.map_cons, hobserve, hafter, hmap, hlist]
    refine ⟨rfl, fun o ho => ?_⟩
    rcases List.mem_cons.1 ho with rfl | ho
    · exact ⟨live', spare', hafter, hrest.length_lt⟩
    · exact hrows o ho

/-- **The stack refines a list with a capacity.**  In every run from a fresh stack of any size that stays
    within words, each command yields the result, live values and capacity that the list machine yields,
    and what any index shows of the stack afterwards is what it shows of the list. -/
theorem stackRun_refines_listStack (size : Nat) (commands : List StackCommand)
    (hbounded : (ListStack.ofSize size).Bounded commands) :
    (stackRun StackCommand.run (Stack.ofSize size) commands).map observe
        = (ListStack.ofSize size).run commands
      ∧ ∀ outcome ∈ stackRun StackCommand.run (Stack.ofSize size) commands, ∀ index : Int,
          (stackAfter outcome).get? index = (stackAfter outcome).view.get? index := by
  rw [← listOf_fresh] at hbounded ⊢
  obtain ⟨hmap, hrows⟩ := stackRun_row hbounded
  rw [ofSize_eq_row, hmap]
  refine ⟨rfl, fun outcome houtcome index => ?_⟩
  obtain ⟨live, spare, hrow, hlive⟩ := hrows outcome houtcome
  rw [hrow, get?_row, slotOf?_row hlive, view_row]
  rfl

/-- Two values are pushed where there is room for one, room is made, and they come to stand the other way
    round; the second is then read as a string, and the height goes up and down. -/
def boundedSample : List StackCommand :=
  [.pushInteger 1, .pushNil, .checkStack 3, .pushBoolean true, .insert (-2), .toString? (-1), .setTop 3,
    .pop 2, .remove 5]

/-- The run stays within words, and both machines have the same heights along it. -/
theorem stackRun_refines_listStack_boundedSample :
    (ListStack.ofSize 1).Bounded boundedSample
      ∧ (stackRun StackCommand.run (Stack.ofSize 1) boundedSample).map observe
        = (ListStack.ofSize 1).run boundedSample
      ∧ ((ListStack.ofSize 1).run boundedSample).map (·.2.values.length) = [1, 1, 1, 2, 2, 2, 3, 1, 1] := by
  have hbounded : (ListStack.ofSize 1).Bounded boundedSample := by decide
  exact ⟨hbounded, (stackRun_refines_listStack 1 boundedSample hbounded).1, by decide⟩

end LuaBytecode
