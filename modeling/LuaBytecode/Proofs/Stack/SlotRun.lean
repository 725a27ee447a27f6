/-
  Which runs on the bare row keep the slots above the top clear.

  1. **One reversal** — reversal looks at slots and not at the top.  A range that reaches above the top may
     bring a live value up there and nil down in its place: it `Lifts` one.  On a sound stack this is the
     only way for a reversal to do harm, and three things are the same: it lifts nothing, it leaves a sound
     stack, and it permutes the live values.  The last two agree because the row as a whole is permuted, so
     the live values are permuted exactly if what stands above them is, and that is nil in every slot.

  2. **One command** — every other command keeps the invariant.

  3. **A run** — by induction on the commands: the slots above the top are clear all along a run exactly if
     none of its steps lifts a value, and its reversals permute the live values exactly then.  One push and
     one reversal within the row are a run that does lift one.
-/
import LuaBytecode.Proofs.Stack.Invariant
import LuaBytecode.Proofs.Stack.Reversal

namespace LuaBytecode

open Stack StackM

/-! ## One reversal -/

/-- The command turns a range within the row around, and brings a value other than nil to a slot at or above
    the top. -/
def SlotCommand.Lifts (s : Stack) : SlotCommand → Prop
  | .reverse lo hi => hi < s.capacity
    ∧ ∃ i, lo ≤ i ∧ i ≤ hi ∧ s.top ≤ i ∧ s.slots[lo + hi - i]? ≠ some .nil
  | _ => False

/-- Of two rows with the same values, as many of them live, the live ones are the same exactly if the spare
    ones are. -/
theorem perm_live_iff {live spare live' spare' : List Value}
    (h : (live' ++ spare').Perm (live ++ spare)) :
    live'.Perm live ↔ spare'.Perm spare := by
  constructor
  · intro hlive
    exact (List.perm_append_left_iff live').1 (h.trans (hlive.symm.append_right spare))
  · intro hspare
    exact (List.perm_append_right_iff spare').1 (h.trans (hspare.symm.append_left live))

/-- **A permuted row is sound exactly if the live values are permuted among themselves.** -/
theorem Stack.Sound.sound_iff_perm {s t : Stack} (hs : s.Sound) (htop : t.top = s.top)
    (hslots : t.slots.toList.Perm s.slots.toList) : t.Sound ↔ t.live.Perm s.live := by
  have hcapacity : t.capacity = s.capacity := by
    simpa [capacity] using hslots.length_eq
  have hwithin : t.top ≤ t.capacity := by
    rw [htop, hcapacity]
    exact hs.top_le_capacity
  obtain ⟨live', spare', rfl⟩ := Stack.exists_row hwithin
  obtain ⟨live, spare, rfl, hspare⟩ := hs.exists_row
  have hlength : spare'.length = spare.length := by
    rw [top_row, top_row] at htop
    rw [capacity_row, capacity_row] at hcapacity
    omega
  rw [sound_row_iff, live_row, live_row, perm_live_iff hslots]
  constructor
  · intro hspare'
    rw [List.eq_replicate_of_mem hspare, List.eq_replicate_of_mem hspare', hlength]
  · intro hperm v hv
    exact hspare v (hperm.mem_iff.1 hv)

/-- What a reversal brings above the top decides whether the stack is sound after it. -/
theorem Stack.ReversedBetween.sound_iff {s t : Stack} {lo hi : Nat} (h : ReversedBetween lo hi s t)
    (hs : s.Sound) (hhi : hi < s.capacity) : t.Sound ↔ ¬ SlotCommand.Lifts s (.reverse lo hi) := by
  constructor
  · rintro ht ⟨_, i, hlo, hi, habove, hvalue⟩
    apply hvalue
    rw [← h.mirrored i hlo hi]
    exact ht.nil_above i (by rw [h.top_eq]; exact habove) (by rw [h.capacity_eq]; omega)
  · intro hlifts
    refine ⟨by rw [h.top_eq, h.capacity_eq]; exact hs.top_le_capacity, fun i habove hrange => ?_⟩
    rw [h.top_eq] at habove
    rw [h.capacity_eq] at hrange
    by_cases hinside : lo ≤ i ∧ i ≤ hi
    · rw [h.mirrored i hinside.1 hinside.2]
      apply Classical.byContradiction
      intro hvalue
      exact hlifts ⟨hhi, i, hinside.1, hinside.2, habove, hvalue⟩
    · rw [h.kept i (by omega)]
      exact hs.nil_above i habove hrange

/-- A reversal that changes nothing lifts nothing. -/
theorem Stack.Sound.not_lifts {s : Stack} (hs : s.Sound) {lo hi : Nat}
    (h : hi ≤ lo ∨ s.capacity ≤ hi) : ¬ SlotCommand.Lifts s (.reverse lo hi) := by
  rintro ⟨hrange, i, hlo, hhi, habove, hvalue⟩
  apply hvalue
  rw [show lo + hi - i = i by omega]
  exact hs.nil_above i habove (by omega)

/-- **One reversal on a sound stack.**  However it ends, the top stays within the row; and that it leaves a
    sound stack, that it permutes the live values and that it lifts nothing are the same. -/
theorem Stack.Sound.after_reverse {s : Stack} (hs : s.Sound) (lo hi : Nat) :
    (stackAfter (reverse lo hi s)).top ≤ (stackAfter (reverse lo hi s)).capacity
      ∧ ((stackAfter (reverse lo hi s)).Sound ↔ ¬ SlotCommand.Lifts s (.reverse lo hi))
      ∧ ((stackAfter (reverse lo hi s)).live.Perm s.live ↔ ¬ SlotCommand.Lifts s (.reverse lo hi)) := by
  by_cases hrange : lo < hi ∧ hi < s.capacity
  · obtain ⟨hends, hhi⟩ := hrange
    obtain ⟨t, ht, hreversed, hperm, _⟩ := reverse_within (Nat.le_of_lt hends) hhi
    have hsound := hreversed.sound_iff hs hhi
    rw [ht]
    refine ⟨?_, hsound, (hs.sound_iff_perm hreversed.top_eq hperm).symm.trans hsound⟩
    show t.top ≤ t.capacity
    rw [hreversed.top_eq, hreversed.capacity_eq]
    exact hs.top_le_capacity
  · have hsame : stackAfter (reverse lo hi s) = s := by
      by_cases hends : lo < hi
      · rw [reverse_outside hends (by omega)]
        rfl
      · rw [reverse_of_le (by omega)]
        rfl
    have hlifts : ¬ SlotCommand.Lifts s (.reverse lo hi) := hs.not_lifts (by omega)
    rw [hsame]
    exact ⟨hs.top_le_capacity, iff_of_true hs hlifts, iff_of_true (.refl _) hlifts⟩

/-! ## One command -/

/-- A step whose result is only wrapped up leaves the same stack. -/
theorem stackAfter_map {α β : Type} (m : StackM α) (f : α → β) (s : Stack) :
    stackAfter ((m >>= fun x => pure (f x)) s) = stackAfter (m s) := by
  cases h : m s with
  | ok x t => rw [bind_of_ok h]; rfl
  | error e t => rw [bind_of_error h]; rfl

/-- Every command but a reversal keeps the invariant. -/
theorem SlotCommand.keeps_run {c : SlotCommand} (hc : ∀ lo hi, c ≠ .reverse lo hi) : Keeps c.run := by
  cases c with
  | push v => exact keeps_bind (keeps_push v) fun _ => keeps_pure _
  | pop => exact keeps_bind keeps_pop fun _ => keeps_pure _
  | check n => exact keeps_bind (keeps_check n) fun _ => keeps_pure _
  | absIndex index => exact keeps_get_bind fun _ => keeps_pure _
  | isValid index => exact keeps_get_bind fun _ => keeps_pure _
  | get index => exact keeps_bind (keeps_load index) fun _ => keeps_pure _
  | get? index => exact keeps_bind (keeps_load? index) fun _ => keeps_pure _
  | set index v => exact keeps_bind (keeps_store index v) fun _ => keeps_pure _
  | reverse lo hi => exact absurd rfl (hc lo hi)

/-- The command is no reversal, or it permutes the live values. -/
def SlotCommand.PermutesLive (s : Stack) (c : SlotCommand) : Prop :=
  ∀ lo hi, c = .reverse lo hi → (stackAfter (c.run s)).live.Perm s.live

/-- **One command on a sound stack.**  However it ends, the top stays within the row; and that it leaves a
    sound stack, that it permutes the live values if it is a reversal, and that it lifts nothing are the
    same. -/
theorem SlotCommand.after_run {s : Stack} (hs : s.Sound) (c : SlotCommand) :
    (stackAfter (c.run s)).top ≤ (stackAfter (c.run s)).capacity
      ∧ ((stackAfter (c.run s)).Sound ↔ ¬ c.Lifts s) ∧ (c.PermutesLive s ↔ ¬ c.Lifts s) := by
  by_cases hc : ∃ lo hi, c = .reverse lo hi
  · obtain ⟨lo, hi, rfl⟩ := hc
    obtain ⟨htop, hsound, hperm⟩ := hs.after_reverse lo hi
    have hafter : stackAfter ((SlotCommand.reverse lo hi).run s) = stackAfter (StackM.reverse lo hi s) :=
      stackAfter_map _ _ s
    rw [PermutesLive, hafter]
    refine ⟨htop, hsound, ⟨fun h => hperm.1 (h lo hi rfl), fun h _ _ _ => hperm.2 h⟩⟩
  · have hother : ∀ lo hi, c ≠ .reverse lo hi := fun lo hi h => hc ⟨lo, hi, h⟩
    have hkept := (keeps_run hother s hs).sound
    have hlifts : ¬ c.Lifts s := by
      cases c with
      | reverse lo hi => exact absurd rfl (hother lo hi)
      | _ => exact id
    exact ⟨hkept.top_le_capacity, iff_of_true hkept hlifts,
      iff_of_true (fun lo hi h => absurd h (hother lo hi)) hlifts⟩

/-! ## A run -/

/-- The stacks of a run on the bare row, the one it starts from first. -/
def slotStates (s : Stack) (commands : List SlotCommand) : List Stack :=
  s :: (stackRun SlotCommand.run s commands).map stackAfter

/-- The commands of a run, each with the stack that it found. -/
def slotSteps (s : Stack) (commands : List SlotCommand) : List (Stack × SlotCommand) :=
  (slotStates s commands).zip commands

theorem slotStates_cons (s : Stack) (c : SlotCommand) (rest : List SlotCommand) :
    slotStates s (c :: rest) = s :: slotStates (stackAfter (c.run s)) rest := rfl

theorem slotSteps_cons (s : Stack) (c : SlotCommand) (rest : List SlotCommand) :
    slotSteps s (c :: rest) = (s, c) :: slotSteps (stackAfter (c.run s)) rest := rfl

/-- Induction on the commands: up to the first step that lifts a value every stack is sound, so that each
    step before it can be judged by itself. -/
theorem slotStates_of_sound {s : Stack} (hs : s.Sound) (commands : List SlotCommand) :
    ((∀ t ∈ slotStates s commands, ∀ i, t.top ≤ i → i < t.capacity → t.slots[i]? = some .nil)
        ↔ ∀ step ∈ slotSteps s commands, ¬ step.2.Lifts step.1)
      ∧ ((∀ step ∈ slotSteps s commands, step.2.PermutesLive step.1)
        ↔ ∀ step ∈ slotSteps s commands, ¬ step.2.Lifts step.1) := by
  induction commands generalizing s with
  | nil =>
    have hnone {P : Stack × SlotCommand → Prop} : ∀ step ∈ slotSteps s [], P step :=
      fun _ h => absurd h List.not_mem_nil
    refine ⟨iff_of_true (fun t ht => ?_) hnone, iff_of_true hnone hnone⟩
    rw [List.mem_singleton.1 ht]
    exact hs.nil_above
  | cons c rest ih =>
    obtain ⟨htop, hsound, hperm⟩ := c.after_run hs
    rw [slotStates_cons, slotSteps_cons, List.forall_mem_cons, List.forall_mem_cons, List.forall_mem_cons]
    constructor
    · constructor
      · rintro ⟨_, hclear⟩
        -- the next stack is clear above its top, hence sound
        have hnext := hclear (stackAfter (c.run s)) (List.mem_cons_self ..)
        exact ⟨hsound.1 ⟨htop, hnext⟩, (ih ⟨htop, hnext⟩).1.1 hclear⟩
      · rintro ⟨hlifts, hrest⟩
        exact ⟨hs.nil_above, (ih (hsound.2 hlifts)).1.2 hrest⟩
    · constructor
      · rintro ⟨hfirst, hrest⟩
        have hlifts := hperm.1 hfirst
        exact ⟨hlifts, (ih (hsound.2 hlifts)).2.1 hrest⟩
      · rintro ⟨hlifts, hrest⟩
        exact ⟨hperm.2 hlifts, (ih (hsound.2 hlifts)).2.2 hrest⟩

/-- **Clear slots above the top, over whole runs on the bare row.**  From a fresh stack of any size, through
    any commands, succeeding or failing: every slot at or above the top is nil after every step exactly if
    no step lifts a value, and every reversal permutes the live values exactly then. -/
theorem slotRun_clear_iff_lifts_nothing (size : Nat) (commands : List SlotCommand) :
    ((∀ s ∈ slotStates (ofSize size) commands, ∀ i, s.top ≤ i → i < s.capacity → s.slots[i]? = some .nil)
        ↔ ∀ step ∈ slotSteps (ofSize size) commands, ¬ step.2.Lifts step.1)
      ∧ ((∀ step ∈ slotSteps (ofSize size) commands, ∀ lo hi, step.2 = .reverse lo hi →
          (stackAfter (step.2.run step.1)).live.Perm step.1.live)
        ↔ ∀ step ∈ slotSteps (ofSize size) commands, ¬ step.2.Lifts step.1) :=
  slotStates_of_sound (sound_ofSize size) commands

/-- One value and a spare slot, turned around. -/
def liftingSample : List SlotCommand := [.push (.int 1), .reverse 0 1]

/-- The range is within the row and reaches above the top: the live value comes to stand above the top, and
    nil is live in its place. -/
theorem slotRun_lifts_a_live_value :
    slotStates (ofSize 2) liftingSample
        = [⟨#[.nil, .nil], 0⟩, ⟨#[.int 1, .nil], 1⟩, ⟨#[.nil, .int 1], 1⟩]
      ∧ (¬ ∀ s ∈ slotStates (ofSize 2) liftingSample,
          ∀ i, s.top ≤ i → i < s.capacity → s.slots[i]? = some .nil)
      ∧ ¬ (stackAfter ((SlotCommand.reverse 0 1).run ⟨#[.int 1, .nil], 1⟩)).live.Perm [.int 1] := by
  have hstates : slotStates (ofSize 2) liftingSample
      = [⟨#[.nil, .nil], 0⟩, ⟨#[.int 1, .nil], 1⟩, ⟨#[.nil, .int 1], 1⟩] := rfl
  refine ⟨hstates, fun hclear => ?_, by decide⟩
  have habove := hclear ⟨#[.nil, .int 1], 1⟩ (by rw [hstates]; simp) 1 (by decide) (by decide)
  exact absurd habove (by decide)

end LuaBytecode
