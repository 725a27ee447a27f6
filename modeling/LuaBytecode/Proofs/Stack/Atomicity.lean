/-
  A failed operation changes nothing.

  Most operations check first and act afterwards, so they have nothing to undo.  Some act in several
  steps that could each fail: erasing rotates and pops, replacing stores and pops, changing the height
  makes room and pushes, or pops value after value.  None of them fails once it has begun to act.

  That the stack is the same after a failure takes no second look at the operations.  The list machine
  leaves its list alone when it fails; the stack shows the live values and the capacity of that list, and
  its spare slots are nil before and after.  Live values, capacity and nil above them are the whole stack.

  The stack follows the list machine only as long as its height is an index.  On a higher stack an index
  below zero is resolved against the height modulo the range of indices, and there erasing does fail after
  its rotation (`remove_first_of_high`).
-/
import LuaBytecode.Proofs.Stack.Invariant

namespace LuaBytecode

open Stack StackM

/-- A stack that some run from a fresh stack passes through. -/
def Stack.Reachable (s : Stack) : Prop :=
  ∃ size commands, s ∈ stackStates (Stack.ofSize size) commands

/-- What a run can reach keeps the invariant. -/
theorem Stack.Reachable.sound {s : Stack} (hs : s.Reachable) : s.Sound := by
  obtain ⟨size, commands, hmem⟩ := hs
  exact (stackStates_of_sound (sound_ofSize size) commands).1 s hmem

/-! ## A failed command -/

namespace ListStack

theorem done_error {l : ListStack} {outcome : Except StackError ListStack} {e : StackError}
    (h : (l.done outcome).1 = .error e) : (l.done outcome).2 = l := by
  cases outcome with
  | ok l' => cases h
  | error e' => rfl

/-- The list machine leaves its list alone when it fails. -/
theorem step_error {l : ListStack} {c : StackCommand} {e : StackError} (h : (l.step c).1 = .error e) :
    (l.step c).2 = l := by
  cases c with
  | checkStack | getTop | absIndex | toString? | toStringD | inspect => cases h
  | pushNil | pushBoolean | pushInteger | pushNumber | pushString | pushValue | pop | copy | replace
  | insert | remove | rotate | setTop => exact done_error h

end ListStack

/-- Two rows with nil above the same live values, and of one capacity, are one row. -/
theorem row_eq_of_listOf_eq {live spare live' spare' : List Value} (hspare : ∀ v ∈ spare, v = .nil)
    (hspare' : ∀ v ∈ spare', v = .nil) (h : listOf live' spare' = listOf live spare) :
    row live' spare' = row live spare := by
  simp only [listOf, ListStack.mk.injEq] at h
  obtain ⟨rfl, hlength⟩ := h
  have hsame : spare'.length = spare.length := by omega
  rw [List.eq_replicate_of_mem hspare, List.eq_replicate_of_mem hspare', hsame]

/-- **A failed command leaves every slot as it was**, live or not. -/
theorem StackCommand.run_error_of_sound {s t : Stack} {c : StackCommand} {e : StackError}
    (hs : s.Sound) (htop : s.top < indexBound) (hc : s.view.Admits c) (h : c.run s = .error e t) :
    t = s := by
  have hsound := (c.keeps_run s hs).sound
  obtain ⟨live, spare, rfl, hspare⟩ := hs.exists_row
  rw [view_row] at hc
  have hmatches := matches_step htop hc
  have hlist := ListStack.step_error (l := listOf live spare) (c := c) (e := e)
  rw [h] at hsound hmatches
  generalize (listOf live spare).step c = expected at hmatches hlist
  cases hmatches with
  | error _ live' spare' => exact row_eq_of_listOf_eq hspare (sound_row_iff.1 hsound) (hlist rfl)

/-! ## Operations that act in several steps -/

section Composite

variable {s t : Stack} {index : Int} {e : StackError}

/-- An operation that succeeds on the list does not fail on the stack. -/
theorem not_error_of_performs {op : StackM Unit} {spec : ListStack → Except StackError ListStack}
    (hop : Performs op spec) {live spare : List Value} (hlive : live.length < indexBound) {l : ListStack}
    (hspec : spec (listOf live spare) = .ok l) : op (row live spare) ≠ .error e t := by
  intro h
  have hperformed := hop live spare hlive
  rw [h, hspec] at hperformed
  cases hperformed

/-- Erasing fails only if its rotation does. -/
theorem rotate_error_of_remove_error (hs : s.Sound) (htop : s.top < indexBound)
    (h : remove index s = .error e t) : rotate index (-1) s = .error e t := by
  obtain ⟨live, spare, rfl, -⟩ := hs.exists_row
  have hslot : (row live spare).slotOf? index = _ := slotOf?_row htop index
  cases hindex : Stack.position? live.length index with
  | none =>
    have hrotate : rotate index (-1) (row live spare) = .error (.invalidIndex index) (row live spare) :=
      rotate_row_invalid (hslot.trans hindex)
    rw [remove, bind_of_error hrotate] at h
    rw [hrotate, h]
  | some k =>
    have hspec : (listOf live spare).remove index = .ok _ := update_listOf_some hindex
    exact absurd h (not_error_of_performs (performs_remove index) htop hspec)

/-- Replacing fails only on an empty stack or if its store does. -/
theorem store_error_of_replace_error (hs : s.Sound) (htop : s.top < indexBound)
    (h : replace index s = .error e t) : s.top = 0 ∨ store index (s.get (-1)) s = .error e t := by
  obtain ⟨live, spare, rfl, -⟩ := hs.exists_row
  have hslot : (row live spare).slotOf? index = _ := slotOf?_row htop index
  by_cases hlive : live = []
  · exact .inl (by rw [hlive]; rfl)
  · cases hindex : Stack.position? live.length index with
    | none =>
      have hnonempty : (row live spare).top ≠ 0 := fun hzero => hlive (List.length_eq_zero_iff.1 hzero)
      have hstore (v : Value) :
          store index v (row live spare) = .error (.invalidIndex index) (row live spare) :=
        store_row_none (hslot.trans hindex) v
      rw [replace, get_bind, bind_of_ok (require_pos hnonempty), bind_of_ok (load_row (-1)),
        bind_of_error (hstore _)] at h
      exact .inr (by rw [hstore, h])
    | some k =>
      have hvalues : (listOf live spare).values ≠ [] := hlive
      obtain ⟨l, hspec⟩ : ∃ l, (listOf live spare).replace index = .ok l :=
        ⟨_, by rw [ListStack.replace, if_neg hvalues, update_listOf_some hindex]⟩
      exact absurd h (not_error_of_performs (performs_replace index) htop hspec)

/-- Changing the height fails only if the height is negative, before anything is pushed or popped. -/
theorem absIndex_neg_of_setTop_error (hs : s.Sound) (htop : s.top < indexBound)
    (hindex : index < indexBound) (h : setTop index s = .error e t) : s.absIndex index < 0 := by
  obtain ⟨live, spare, rfl, -⟩ := hs.exists_row
  rw [heightAt_listOf htop]
  by_cases hneg : (listOf live spare).heightAt index < 0
  · exact hneg
  · obtain ⟨l, hspec⟩ : ∃ l, (listOf live spare).setTop index = .ok l :=
      ⟨_, by rw [ListStack.setTop, if_neg hneg]⟩
    exact absurd h (not_error_of_performs (performs_setTop hindex) htop hspec)

/-- Erasing on a stack that is higher than its indices reach: the rotation is done, and then the height
    that popping asks for comes out below zero. -/
theorem remove_first_of_high {first : Value} {rest spare : List Value}
    (hlow : indexBound ≤ rest.length) (hhigh : rest.length + 1 < 2 * indexBound) :
    remove 1 (row (first :: rest) spare) = .error .underflow (row (rest ++ [first]) spare) := by
  have hvalid : (row ([] ++ [first] ++ rest) spare).isValid 1 = true := by
    simp only [isValid, absIndex, top_row, List.length_append, List.length_singleton, decide_eq_true_eq]
    omega
  have hslot : (row ([] ++ [first] ++ rest) spare).slotOf? 1 = some ([] : List Value).length := by
    rw [slotOf?, if_pos hvalid]
    rfl
  have hrotate := rotate_row (n := -1) hslot (.inr ⟨by decide, rfl⟩)
  have htop : (row (rest ++ [first]) spare).top = rest.length + 1 := by simp
  have hheight : (row (rest ++ [first]) spare).absIndex (-2) < 0 := by
    rw [absIndex, if_pos (by decide), topIndex_of_ge (by omega) (by omega), htop]
    omega
  rw [List.nil_append, List.nil_append, List.singleton_append] at hrotate
  rw [remove, bind_of_ok hrotate, popMany, bind_of_ok (require_pos (by decide))]
  exact setTop_row_underflow hheight

end Composite

/-- **Failed operations change nothing.**  On every stack that a run can reach and whose height is an
    index, a command that stays within words and fails leaves the top, the capacity and every slot as they
    were; erasing fails only if its rotation does, replacing only on an empty stack or if its store does,
    and changing the height only before it begins. -/
theorem Stack.Reachable.failure_changes_nothing {s : Stack} (hs : s.Reachable)
    (htop : s.top < indexBound) :
    (∀ (c : StackCommand) e t, s.view.Admits c → c.run s = .error e t → t = s)
      ∧ (∀ index e t, remove index s = .error e t → rotate index (-1) s = .error e t)
      ∧ (∀ index e t, replace index s = .error e t →
          s.top = 0 ∨ store index (s.get (-1)) s = .error e t)
      ∧ ∀ (index : Int) e t, index < indexBound → setTop index s = .error e t → s.absIndex index < 0 :=
  ⟨fun _ _ _ => StackCommand.run_error_of_sound hs.sound htop,
    fun _ _ _ => rotate_error_of_remove_error hs.sound htop,
    fun _ _ _ => store_error_of_replace_error hs.sound htop,
    fun _ _ _ => absIndex_neg_of_setTop_error hs.sound htop⟩

/-- A stack without a spare slot. -/
def fullSample : Stack := ⟨#[.int 1, .bool true], 2⟩

/-- A push without room, two indices that are not valid, and a height below the bottom. -/
theorem Stack.Reachable.failure_changes_nothing_fullSample :
    fullSample.Reachable
      ∧ fullSample.top < indexBound
      ∧ (∃ t, StackCommand.pushNil.run fullSample = .error .overflow t ∧ t = fullSample)
      ∧ (∃ t, remove 3 fullSample = .error (.invalidIndex 3) t
        ∧ rotate 3 (-1) fullSample = .error (.invalidIndex 3) t)
      ∧ (∃ t, replace 0 fullSample = .error (.invalidIndex 0) t
        ∧ (fullSample.top = 0 ∨ store 0 (fullSample.get (-1)) fullSample = .error (.invalidIndex 0) t))
      ∧ fullSample.absIndex (-4) < 0 := by
  have hreachable : fullSample.Reachable :=
    ⟨2, [.pushInteger 1, .pushBoolean true], by decide +kernel⟩
  have htop : fullSample.top < indexBound := by decide
  obtain ⟨hrun, hremove, hreplace, hsetTop⟩ := hreachable.failure_changes_nothing htop
  have hrow : fullSample = row ([.int 1] ++ [.bool true]) [] := rfl
  have hreplaced : replace 0 fullSample = .error (.invalidIndex 0) fullSample := by
    rw [hrow, replace, get_bind, bind_of_ok (require_pos (by decide)), bind_of_ok (load_top (by decide))]
    exact bind_of_error (store_row_none (by decide) _)
  have hlowered : setTop (-4) fullSample = .error .underflow fullSample := by
    rw [hrow]
    exact setTop_row_underflow (by decide)
  exact ⟨hreachable, htop, ⟨fullSample, rfl, hrun .pushNil .overflow fullSample trivial rfl⟩,
    ⟨fullSample, rfl, hremove 3 (.invalidIndex 3) fullSample rfl⟩,
    ⟨fullSample, hreplaced, hreplace 0 (.invalidIndex 0) fullSample hreplaced⟩,
    hsetTop (-4) .underflow fullSample (by decide) hlowered⟩

end LuaBytecode
