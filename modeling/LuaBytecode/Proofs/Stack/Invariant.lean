/-
  The invariant of the stack, over whole runs.

  1. **The invariant** — a stack is `Sound` if its top is within its slots and every slot at or above the
     top is nil; as a row, if all its spare slots are nil.

  2. **One operation** — `Keeps op` says that on a sound stack, whether `op` succeeds or fails, it leaves
     a sound stack with no fewer slots and no more than a word can count, and that it never reached for a
     slot outside the row.  However high the stack is, this holds, and it passes
     through sequencing, so only the operations that touch slots are looked at by themselves.  Pushing
     is one of them: between writing a value and moving the top over it the stack is not sound.  Rotation
     is another: reversal knows nothing of the top, and the invariant holds because the three ranges that
     rotation turns around lie in the live part.

  3. **A run** — by induction on the commands, every stack of a run is sound, capacities never go down
     along it, and no command reaches outside the row.  If the run is also bounded it follows the list
     machine, which knows no arithmetic that could fail.
-/
import LuaBytecode.Proofs.Stack.Refinement

namespace LuaBytecode

/-! ## The invariant -/

namespace Stack

/-- The top is within the slots, and every slot at or above it is nil. -/
structure Sound (s : Stack) : Prop where
  top_le_capacity : s.top ≤ s.capacity
  nil_above : ∀ i, s.top ≤ i → i < s.capacity → s.slots[i]? = some .nil

/-- Of a row only the spare slots are in question. -/
theorem sound_row_iff {live spare : List Value} : (row live spare).Sound ↔ ∀ v ∈ spare, v = .nil := by
  constructor
  · rintro ⟨_, habove⟩ v hv
    obtain ⟨j, hj, rfl⟩ := List.getElem_of_mem hv
    have hslot := habove (live.length + j) (by simp) (by simpa using hj)
    rw [slots_row, List.getElem?_toArray, List.getElem?_append_right (by omega), Nat.add_sub_cancel_left,
      List.getElem?_eq_getElem hj, Option.some.injEq] at hslot
    exact hslot
  · intro hspare
    refine ⟨by simp, fun i hlo hhi => ?_⟩
    rw [top_row] at hlo
    rw [capacity_row] at hhi
    have hj : i - live.length < spare.length := by omega
    rw [slots_row, List.getElem?_toArray, List.getElem?_append_right hlo, List.getElem?_eq_getElem hj,
      hspare _ (List.getElem_mem hj)]

/-- A sound stack is a row whose spare slots are nil. -/
theorem Sound.exists_row {s : Stack} (hs : s.Sound) :
    ∃ live spare, s = row live spare ∧ ∀ v ∈ spare, v = .nil := by
  have hrow := eq_row hs.top_le_capacity
  rw [hrow, sound_row_iff] at hs
  exact ⟨_, _, hrow, hs⟩

/-- A fresh stack has no live values, and all its slots are nil. -/
theorem sound_ofSize (size : Nat) : (ofSize size).Sound := by
  rw [ofSize_eq_row, sound_row_iff]
  intro v hv
  exact List.eq_of_mem_replicate hv

end Stack

open Stack

/-! ## One operation -/

/-- However a step ended that started from `s`: the stack is sound, it has no fewer slots and not too many
    to be counted, and no slot outside the row was reached for. -/
structure Kept {α : Type} (s : Stack) (outcome : EStateM.Result StackError Stack α) : Prop where
  sound : (stackAfter outcome).Sound
  capacity_le : s.capacity ≤ (stackAfter outcome).capacity
  capacity_lt : s.capacity < wordBound → (stackAfter outcome).capacity < wordBound
  inRange : ∀ t, outcome ≠ .error .slotOutOfRange t

namespace StackM

/-- The operation keeps the invariant, gives up no slot and stays within the row. -/
def Keeps {α : Type} (m : StackM α) : Prop := ∀ s, s.Sound → Kept s (m s)

section Keeps

variable {α β : Type} {m : StackM α} {live spare live' spare' : List Value}

/-- Most operations take up no new slot. -/
theorem kept_ok {s t : Stack} (x : α) (ht : t.Sound) (hcapacity : s.capacity = t.capacity) :
    Kept s (.ok x t) :=
  ⟨ht, Nat.le_of_eq hcapacity, fun h => hcapacity ▸ h, fun _ h => by cases h⟩

/-- A failure that leaves the stack alone keeps everything. -/
theorem kept_error {s : Stack} {e : StackError} (hs : s.Sound) (he : e ≠ .slotOutOfRange) :
    Kept s (.error e s : EStateM.Result StackError Stack α) :=
  ⟨hs, Nat.le_refl _, id, fun _ h => he (by cases h; rfl)⟩

theorem kept_row (x : α) (hspare : ∀ v ∈ spare', v = .nil)
    (hlength : live.length + spare.length = live'.length + spare'.length) :
    Kept (row live spare) (.ok x (row live' spare')) :=
  kept_ok x (sound_row_iff.2 hspare) (by rw [capacity_row, capacity_row]; exact hlength)

/-- It is enough to look at rows whose spare slots are nil. -/
theorem Keeps.of_row
    (h : ∀ live spare, (∀ v ∈ spare, v = .nil) → Kept (row live spare) (m (row live spare))) : Keeps m := by
  intro s hs
  obtain ⟨live, spare, rfl, hspare⟩ := hs.exists_row
  exact h live spare hspare

theorem keeps_pure (x : α) : Keeps (pure x : StackM α) := fun _ hs => kept_ok x hs rfl

theorem keeps_throw {e : StackError} (he : e ≠ .slotOutOfRange) : Keeps (throw e : StackM α) :=
  fun _ hs => kept_error hs he

/-- **Keeping passes through sequencing**: the second step starts from what the first has left, and a
    failure of the first ends both. -/
theorem keeps_bind {f : α → StackM β} (hm : Keeps m) (hf : ∀ x, Keeps (f x)) : Keeps (m >>= f) := by
  intro s hs
  have hkept := hm s hs
  cases h : m s with
  | ok x t =>
    rw [h] at hkept
    have hrest := hf x t hkept.sound
    rw [bind_of_ok h]
    exact ⟨hrest.sound, Nat.le_trans hkept.capacity_le hrest.capacity_le,
      fun hs => hrest.capacity_lt (hkept.capacity_lt hs), hrest.inRange⟩
  | error e t =>
    rw [h] at hkept
    rw [bind_of_error h]
    exact ⟨hkept.sound, hkept.capacity_le, hkept.capacity_lt, fun u hu => hkept.inRange t (by cases hu; rfl)⟩

theorem keeps_get_bind {f : Stack → StackM β} (hf : ∀ s, Keeps (f s)) :
    Keeps ((MonadState.get : StackM Stack) >>= f) :=
  fun s hs => hf s s hs

theorem keeps_require {p : Prop} [Decidable p] {e : StackError} (he : e ≠ .slotOutOfRange) :
    Keeps (require p e) := by
  unfold require
  split
  · exact keeps_pure ()
  · exact keeps_throw he

end Keeps

/-! ## Operations that touch slots -/

/-- The slot that a push writes is the first spare one, and then no longer spare. -/
theorem keeps_push (v : Value) : Keeps (push v) := by
  refine .of_row fun live spare hspare => ?_
  cases spare with
  | nil =>
    rw [push_row_nil]
    exact kept_error (sound_row_iff.2 hspare) (by decide)
  | cons x spare =>
    rw [push_row_cons]
    refine kept_row () (fun w hw => hspare w (List.mem_cons_of_mem x hw)) ?_
    simp only [List.length_append, List.length_cons, List.length_nil]
    omega

/-- The slot that becomes spare has been cleared. -/
theorem keeps_pop : Keeps pop := by
  refine .of_row fun live spare hspare => ?_
  by_cases hlive : live = []
  · subst hlive
    rw [pop_row_nil]
    exact kept_error (sound_row_iff.2 hspare) (by decide)
  · obtain ⟨rest, v, rfl⟩ := exists_append_singleton hlive
    rw [pop_row_append]
    refine kept_row v (List.forall_mem_cons.2 ⟨rfl, hspare⟩) ?_
    simp only [List.length_append, List.length_cons, List.length_nil]
    omega

/-- Reserving room is the one operation that takes up new slots: no more than can be counted, for otherwise
    it fails before it has begun. -/
theorem keeps_check (n : Nat) : Keeps (check n) := by
  refine .of_row fun live spare hspare => ?_
  by_cases hfits : live.length + n < wordBound ∨ n ≤ spare.length
  · rw [check_row hfits]
    refine ⟨sound_row_iff.2 fun v hv => ?_, ?_, fun hword => ?_, fun _ h => by cases h⟩
    · rcases List.mem_append.1 hv with hv | hv
      · exact hspare v hv
      · exact List.eq_of_mem_replicate hv
    · simp only [stackAfter, capacity_row, List.length_append]
      omega
    · simp only [stackAfter, capacity_row, List.length_append, List.length_replicate] at hword ⊢
      omega
  · have hroom : (row live spare).capacity - (row live spare).top < n := by
      rw [capacity_row, top_row]
      omega
    rw [check_overflow hroom (by rw [top_row]; omega)]
    exact kept_error (sound_row_iff.2 hspare) (by decide)

/-- Reading looks at slots below the top. -/
theorem keeps_load? (index : Int) : Keeps (load? index) := by
  refine .of_row fun live spare hspare => ?_
  rw [load?_row]
  exact kept_row _ hspare rfl

/-- Writing does too. -/
theorem keeps_store (index : Int) (v : Value) : Keeps (store index v) := by
  refine .of_row fun live spare hspare => ?_
  cases h : (row live spare).slotOf? index with
  | none =>
    rw [store_row_none h]
    exact kept_error (sound_row_iff.2 hspare) (fun he => by cases he)
  | some k =>
    rw [store_row_some h]
    exact kept_row () hspare (by rw [List.length_set])

/-- Rotation moves live values among themselves and leaves the spare slots alone. -/
theorem keeps_rotate (index n : Int) : Keeps (rotate index n) := by
  refine .of_row fun live spare hspare => ?_
  have hrow : (row live spare).Sound := sound_row_iff.2 hspare
  cases h : (row live spare).slotOf? index with
  | none =>
    rw [rotate_row_invalid h]
    exact kept_error hrow (fun he => by cases he)
  | some k =>
    by_cases hn : n.natAbs ≤ live.length - k
    · rw [rotate_row_drop h hn]
      exact kept_row () hspare (by rw [length_rotated hn])
    · rw [rotate_row_excess h (by omega)]
      exact kept_error hrow (fun he => by cases he)

/-! ## Operations made of others -/

theorem keeps_load (index : Int) : Keeps (load index) :=
  keeps_bind (keeps_load? index) fun _ => keeps_pure _

/-- Replacing is made of reading, writing and popping. -/
theorem keeps_replace (index : Int) : Keeps (replace index) := by
  refine keeps_get_bind fun s => keeps_bind (keeps_require (by decide)) fun _ => ?_
  refine keeps_bind (keeps_load (-1)) fun v => keeps_bind (keeps_store index v) fun _ => ?_
  exact keeps_bind keeps_pop fun _ => keeps_pure ()

theorem keeps_pushNils (n : Nat) : Keeps (pushNils n) := by
  induction n with
  | zero => exact keeps_pure ()
  | succ n ih => exact keeps_bind (keeps_push .nil) fun _ => ih

theorem keeps_drop (n : Nat) : Keeps (StackM.drop n) := by
  induction n with
  | zero => exact keeps_pure ()
  | succ n ih => exact keeps_bind keeps_pop fun _ => ih

/-- Whatever the heights are, only pushes and pops follow, so nothing need be known of how many. -/
theorem keeps_setTop (index : Int) : Keeps (setTop index) := by
  refine keeps_get_bind fun s => keeps_bind (keeps_require (by decide)) fun _ => ?_
  split
  · exact keeps_bind (keeps_check _) fun _ => keeps_pushNils _
  · exact keeps_drop _

theorem keeps_popMany (n : Int) : Keeps (popMany n) :=
  keeps_bind (keeps_require (by decide)) fun _ => keeps_setTop _

/-- One value is read, and at most that one is written. -/
theorem keeps_toString? (index : Int) : Keeps (toString? index) := by
  refine keeps_bind (keeps_load? index) fun v => ?_
  split
  · exact keeps_pure _
  · split
    · exact keeps_bind (keeps_store index _) fun _ => keeps_pure _
    · exact keeps_pure none
  · exact keeps_pure none

end StackM

open StackM

/-- **One command**: whatever it is and however it ends, it keeps the invariant. -/
theorem StackCommand.keeps_run (c : StackCommand) : Keeps c.run := by
  have hdone {op : StackM Unit} (h : Keeps op) :
      Keeps (do op; return StackResult.done : StackM StackResult) :=
    keeps_bind h fun _ => keeps_pure _
  cases c with
  | pushNil | pushBoolean b | pushInteger n | pushNumber f | pushString bytes =>
    exact hdone (keeps_push _)
  | pushValue index => exact hdone (keeps_bind (keeps_load index) fun v => keeps_push v)
  | pop n => exact hdone (keeps_popMany n)
  | copy source target => exact hdone (keeps_bind (keeps_load source) fun v => keeps_store target v)
  | replace index => exact hdone (keeps_replace index)
  | insert index => exact hdone (keeps_rotate index 1)
  | remove index => exact hdone (keeps_bind (keeps_rotate index (-1)) fun _ => keeps_popMany 1)
  | rotate index n => exact hdone (keeps_rotate index n)
  | setTop index => exact hdone (keeps_setTop index)
  | checkStack n => exact keeps_bind (keeps_check n) fun _ => keeps_pure _
  | getTop => exact keeps_get_bind fun s => keeps_pure _
  | absIndex index => exact keeps_get_bind fun s => keeps_pure _
  | toString? index => exact keeps_bind (keeps_toString? index) fun _ => keeps_pure _
  | toStringD index =>
    exact keeps_bind (keeps_bind (keeps_toString? index) fun _ => keeps_pure _) fun _ => keeps_pure _
  | inspect index => exact keeps_pure _

/-! ## A run -/

/-- The stacks of a run, the one it starts from first. -/
def stackStates (s : Stack) (commands : List StackCommand) : List Stack :=
  s :: (stackRun StackCommand.run s commands).map stackAfter

theorem stackStates_cons (s : Stack) (c : StackCommand) (rest : List StackCommand) :
    stackStates s (c :: rest) = s :: stackStates (stackAfter (c.run s)) rest := rfl

/-- Induction on the commands: each keeps what the one before it left. -/
theorem stackStates_of_sound {s : Stack} (hs : s.Sound) (commands : List StackCommand) :
    (∀ t ∈ stackStates s commands, t.Sound)
      ∧ (stackStates s commands).Pairwise (fun t u => t.capacity ≤ u.capacity)
      ∧ ∀ outcome ∈ stackRun StackCommand.run s commands, ∀ t, outcome ≠ .error .slotOutOfRange t := by
  induction commands generalizing s with
  | nil =>
    refine ⟨fun t ht => ?_, List.pairwise_singleton _ _, fun _ h => absurd h List.not_mem_nil⟩
    rw [List.mem_singleton.1 ht]
    exact hs
  | cons c rest ih =>
    have hkept := c.keeps_run s hs
    obtain ⟨hsound, hcapacity, hrange⟩ := ih hkept.sound
    rw [stackStates_cons]
    refine ⟨List.forall_mem_cons.2 ⟨hs, hsound⟩, List.pairwise_cons.2 ⟨fun t ht => ?_, hcapacity⟩, ?_⟩
    · -- the next stack has no fewer slots, and every later one no fewer than that
      rcases List.mem_cons.1 ht with rfl | ht
      · exact hkept.capacity_le
      · exact Nat.le_trans hkept.capacity_le ((List.pairwise_cons.1 hcapacity).1 t ht)
    · exact List.forall_mem_cons.2 ⟨hkept.inRange, hrange⟩

namespace ListStack

theorem done_ne_arithmeticOverflow {l : ListStack} {outcome : Except StackError ListStack}
    (h : outcome ≠ .error .arithmeticOverflow) : (l.done outcome).1 ≠ .error .arithmeticOverflow := by
  cases outcome with
  | ok l' => exact fun hdone => by cases hdone
  | error e =>
    intro hdone
    cases hdone
    exact h rfl

/-- A push compares numbers and does not add them. -/
theorem push_ne_arithmeticOverflow (l : ListStack) (v : Value) : l.push v ≠ .error .arithmeticOverflow := by
  unfold push
  split <;> simp

theorem update_ne_arithmeticOverflow (l : ListStack) (index : Int) (f : Nat → List Value) :
    l.update index f ≠ .error .arithmeticOverflow := by
  unfold update
  split <;> simp

/-- The list machine has no arithmetic that could fail. -/
theorem step_ne_arithmeticOverflow (l : ListStack) (c : StackCommand) :
    (l.step c).1 ≠ .error .arithmeticOverflow := by
  have hsetTop (index : Int) : l.setTop index ≠ .error .arithmeticOverflow := by
    unfold setTop
    split <;> simp
  cases c with
  | checkStack | getTop | absIndex | toString? | toStringD | inspect => exact fun h => by cases h
  | pushNil | pushBoolean | pushInteger | pushNumber | pushString | pushValue =>
    exact done_ne_arithmeticOverflow (l.push_ne_arithmeticOverflow _)
  | copy | insert | remove => exact done_ne_arithmeticOverflow (l.update_ne_arithmeticOverflow _ _)
  | pop | setTop => exact done_ne_arithmeticOverflow (hsetTop _)
  | replace index =>
    refine done_ne_arithmeticOverflow ?_
    unfold replace
    split
    · simp
    · exact l.update_ne_arithmeticOverflow _ _
  | rotate index n =>
    refine done_ne_arithmeticOverflow ?_
    unfold rotate
    split
    · split <;> simp
    · simp

/-- By induction on the commands. -/
theorem ne_arithmeticOverflow_of_mem_run {l : ListStack} {commands : List StackCommand}
    {outcome : Except StackError StackResult × ListStack} (h : outcome ∈ l.run commands) :
    outcome.1 ≠ .error .arithmeticOverflow := by
  induction commands generalizing l with
  | nil => exact absurd h List.not_mem_nil
  | cons c rest ih =>
    rcases List.mem_cons.1 h with rfl | h
    · exact l.step_ne_arithmeticOverflow c
    · exact ih h

end ListStack

/-- A run that stays within words follows the list machine, so none of its sums fails to fit. -/
theorem ne_arithmeticOverflow_of_bounded {size : Nat} {commands : List StackCommand}
    (hbounded : (ListStack.ofSize size).Bounded commands)
    {outcome : EStateM.Result StackError Stack StackResult}
    (houtcome : outcome ∈ stackRun StackCommand.run (Stack.ofSize size) commands) (t : Stack) :
    outcome ≠ .error .arithmeticOverflow t := by
  rintro rfl
  rw [← listOf_fresh] at hbounded
  have hobserved := List.mem_map_of_mem (f := observe) houtcome
  rw [ofSize_eq_row, (stackRun_row hbounded).1] at hobserved
  exact ListStack.ne_arithmeticOverflow_of_mem_run hobserved rfl

/-- **The representation invariant over whole runs.**  From a fresh stack of any size, through any
    commands that stay within words, succeeding or failing: after every step the top is within the
    capacity and every slot at or above it is nil; capacities never go down; no step reaches for a slot
    outside the row, and no sum fails to fit its word. -/
theorem stackRun_keeps_invariant (size : Nat) (commands : List StackCommand)
    (hbounded : (ListStack.ofSize size).Bounded commands) :
    (∀ s ∈ stackStates (Stack.ofSize size) commands,
        s.top ≤ s.capacity ∧ ∀ i, s.top ≤ i → i < s.capacity → s.slots[i]? = some .nil)
      ∧ (stackStates (Stack.ofSize size) commands).Pairwise (fun s t => s.capacity ≤ t.capacity)
      ∧ ∀ outcome ∈ stackRun StackCommand.run (Stack.ofSize size) commands,
          ∀ t, outcome ≠ .error .slotOutOfRange t ∧ outcome ≠ .error .arithmeticOverflow t := by
  obtain ⟨hsound, hcapacity, hrange⟩ := stackStates_of_sound (sound_ofSize size) commands
  refine ⟨fun s hs => ⟨(hsound s hs).top_le_capacity, (hsound s hs).nil_above⟩, hcapacity, ?_⟩
  exact fun outcome houtcome t =>
    ⟨hrange outcome houtcome t, ne_arithmeticOverflow_of_bounded hbounded houtcome t⟩

/-- Values are pushed, turned around and popped again: no slot is given up, and the popped ones are nil. -/
theorem stackRun_keeps_invariant_boundedSample :
    (ListStack.ofSize 1).Bounded boundedSample
      ∧ (⟨#[.bool true, .nil, .nil, .nil], 1⟩ : Stack) ∈ stackStates (Stack.ofSize 1) boundedSample
      ∧ (stackStates (Stack.ofSize 1) boundedSample).Pairwise (fun s t => s.capacity ≤ t.capacity) := by
  have hbounded : (ListStack.ofSize 1).Bounded boundedSample := by decide
  exact ⟨hbounded, by decide +kernel, (stackRun_keeps_invariant 1 boundedSample hbounded).2.1⟩

end LuaBytecode
