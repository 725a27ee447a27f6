/-
  The nesting limit acts only as a limit.

  1. **Two runs** — `CappedBy limit m n`: from every cursor the step `m` does what the step `n` does,
     unless it stops because functions nest beyond `limit`.  The relation passes through sequencing, and
     the steps of a function before and behind its children do not know the limit; so a function read with
     less room is capped by the same function read with more (`cappedBy_prototype`, by induction on the
     lesser room).  A sibling behind a deep subtree is read from the same cursor with the same room in
     both runs, or not at all.

  2. **Two derivations** — the grammar asks of a limit that no function be deeper, and nothing else.  So a
     derivation within one limit is one within every limit that the tree keeps (`of_depth_le`).

  A run decides between two outcomes, and the depth of the tree decides which of them it is: a tree that
  keeps a limit is loaded by the second part, and one that does not cannot be loaded, since what is loaded
  keeps the limit, so that by the first part the run has stopped at it.
-/
import LuaBytecode.Proofs.Chunk.RoundTrip
import LuaBytecode.Proofs.Chunk.Truncation

namespace LuaBytecode

namespace ReadM

/-! ## Two runs under different limits -/

section CappedBy

variable {α β : Type} {limit : Nat} {m n : ReadM α}

/-- From every cursor the first step does what the second does, or stops at the limit. -/
def CappedBy (limit : Nat) (m n : ReadM α) : Prop :=
  ∀ c, m c = n c ∨ ∃ d, m c = .error (.nestingTooDeep limit) d

theorem CappedBy.refl (m : ReadM α) : CappedBy limit m m := fun _ => .inl rfl

/-- A run that is refused for its depth is capped by any other. -/
theorem cappedBy_throw (n : ReadM α) : CappedBy limit (throw (.nestingTooDeep limit)) n :=
  fun c => .inr ⟨c, rfl⟩

/-- **Capping passes through sequencing**: if the first step was refused for its depth so are both, and
    otherwise the second starts where the other run's does. -/
theorem CappedBy.bind {f g : α → ReadM β} (hm : CappedBy limit m n)
    (hf : ∀ x, CappedBy limit (f x) (g x)) : CappedBy limit (m >>= f) (n >>= g) := by
  intro c
  rcases hm c with hsame | ⟨d, hstop⟩
  · cases hn : n c with
    | ok x d =>
      -- both go on from the same value and the same cursor
      rw [bind_of_ok (hsame.trans hn), bind_of_ok hn]
      exact hf x d
    | error e d =>
      rw [bind_of_error (hsame.trans hn), bind_of_error hn]
      exact .inl rfl
  · exact .inr ⟨d, bind_of_error hstop⟩

/-- By induction on the number of repetitions. -/
theorem CappedBy.times (h : CappedBy limit m n) (k : Nat) :
    CappedBy limit (times m k) (times n k) := by
  induction k with
  | zero => exact .refl _
  | succ k ih => exact h.bind fun x => ih.bind fun xs => .refl _

/-- One level is capped if the levels below it are. -/
theorem cappedBy_prototypeBody {child child' : String → ReadM Prototype}
    (hchild : ∀ source, CappedBy limit (child source) (child' source)) (parent : String) :
    CappedBy limit (prototypeBody child parent) (prototypeBody child' parent) := by
  rw [prototypeBody_eq, prototypeBody_eq]
  refine (CappedBy.refl (opening parent)).bind fun o => ?_
  exact ((hchild o.head.source).times o.childCount).bind fun children => .refl (closing o children)

/-- **Less room only stops earlier.**  The limits that the two runs report may differ. -/
theorem cappedBy_prototype {limit' room room' : Nat} (h : room ≤ room') (parent : String) :
    CappedBy limit (prototype limit room parent) (prototype limit' room' parent) := by
  induction room generalizing room' parent with
  | zero => exact cappedBy_throw _
  | succ room ih =>
    obtain ⟨room', rfl⟩ : ∃ k, room' = k + 1 := ⟨room' - 1, by omega⟩
    exact cappedBy_prototypeBody (fun source => ih (by omega) source) parent

/-- Header and trailing bytes are read alike under every limit. -/
theorem cappedBy_chunk {limit' : Nat} (h : limit ≤ limit') :
    CappedBy limit (chunk limit) (chunk limit') := by
  refine (CappedBy.refl header).bind fun _ => (CappedBy.refl byte).bind fun upvalueCount => ?_
  exact (cappedBy_prototype h "").bind fun main => .refl _

end CappedBy

end ReadM

/-! ## Two derivations within different limits -/

/-- Forms that are forms of each element in another sense too. -/
theorem RepeatedForm.imp {α : Type} {G H : Form α} {forms : Bytes} {xs : List α}
    (h : RepeatedForm G forms xs) (himp : ∀ form, ∀ x ∈ xs, G form x → H form x) :
    RepeatedForm H forms xs := by
  induction h with
  | nil => exact .nil
  | cons hx _ ih =>
    refine .cons (himp _ _ (List.mem_cons_self ..) hx) (ih fun form y hy => ?_)
    exact himp form y (List.mem_cons_of_mem _ hy)

/-- **The grammar knows a limit only as a bound on the depth.** -/
theorem PrototypeForm.of_depth_le {limit limit' depth : Nat} {parent : String} {form : Bytes}
    {p : Prototype} (h : PrototypeForm limit depth parent form p)
    (hdepth : p.depth + depth ≤ limit' + 1) : PrototypeForm limit' depth parent form p := by
  induction p using Prototype.induction_on generalizing depth parent form with
  | step f cs ih =>
    have hpos := Prototype.one_le_depth (.node f cs)
    have hchildren : ∀ c ∈ cs, c.depth + (depth + 1) ≤ limit' + 1 := by
      intro c hc
      have := Prototype.depth_lt_of_mem (f := f) hc
      omega
    cases h with
    | node _ hsource hown hcode hconstants hupvalues hcount hnested hlineInfo hlines hlocals hnames =>
      have hnested' := (siblingForms_iff.1 hnested).imp fun part c hc hpart =>
        ih c hc hpart (hchildren c hc)
      exact .node (by omega) hsource hown hcode hconstants hupvalues hcount
        (siblingForms_iff.2 hnested') hlineInfo hlines hlocals hnames

/-! ## Loading -/

namespace Chunk

open ReadM

variable {limit limit' : Nat} {bytes : Bytes} {c : Chunk}

/-- Under a lesser limit the outcome is the same, or it is that the limit was reached. -/
theorem loadWithin_eq_or_tooDeep (h : limit ≤ limit') (bytes : Bytes) :
    loadWithin limit bytes = loadWithin limit' bytes
      ∨ loadWithin limit bytes = .error (.nestingTooDeep limit) := by
  unfold loadWithin
  rcases cappedBy_chunk h (.ofBytes bytes) with hsame | ⟨d, hstop⟩
  · rw [hsame]
    exact .inl rfl
  · rw [hstop]
    exact .inr rfl

/-- A chunk that was loaded under one limit is loaded under every limit that it is within. -/
theorem loadWithin_of_depth_le (h : loadWithin limit bytes = .ok c) (hdepth : c.main.depth ≤ limit') :
    loadWithin limit' bytes = .ok c := by
  obtain ⟨form, hform, hbytes⟩ := chunk_eq_ok_iff.1 (loadWithin_eq_ok.1 h)
  have hform' : PrototypeForm limit' 1 "" form c.main := hform.of_depth_le (by omega)
  exact loadWithin_eq_ok.2 (chunk_eq_ok_iff.2 ⟨form, hform', hbytes⟩)

/-- It is refused as too deep under every other. -/
theorem loadWithin_of_lt_depth (h : loadWithin limit bytes = .ok c) (hdepth : limit' < c.main.depth) :
    loadWithin limit' bytes = .error (.nestingTooDeep limit') := by
  have hkeeps := depth_le_of_loadWithin h
  rcases loadWithin_eq_or_tooDeep (show limit' ≤ limit by omega) bytes with hsame | hstop
  · -- what is loaded under the lesser limit would be within it
    have := depth_le_of_loadWithin (hsame.trans h)
    omega
  · exact hstop

/-- **The nesting limit acts only as a limit.**  What loads under one limit loads as the same chunk under
    every limit that it is within, and is refused as too deep under every other; and what is refused for
    another reason than nesting is refused for that reason under every greater limit. -/
theorem loadWithin_under_another_limit (bytes : Bytes) (limit limit' : Nat) :
    (∀ c, loadWithin limit bytes = .ok c →
      loadWithin limit' bytes
        = if c.main.depth ≤ limit' then .ok c else .error (.nestingTooDeep limit'))
    ∧ ∀ e, loadWithin limit bytes = .error e → (∀ l, e ≠ .nestingTooDeep l) → limit ≤ limit' →
      loadWithin limit' bytes = .error e := by
  constructor
  · intro c hc
    by_cases hdepth : c.main.depth ≤ limit'
    · rw [if_pos hdepth]
      exact loadWithin_of_depth_le hc hdepth
    · rw [if_neg hdepth]
      exact loadWithin_of_lt_depth hc (Nat.lt_of_not_le hdepth)
  · intro e he hother hle
    rcases loadWithin_eq_or_tooDeep hle bytes with hsame | hstop
    · exact hsame.symm.trans he
    · cases he.symm.trans hstop
      exact absurd rfl (hother limit)

/-- Two levels load under the limits two and nine and not under one; a chunk with another fault has it under
    every limit. -/
theorem loadWithin_under_another_limit_samples :
    unwrittenSampleChunk.main.depth = 2
      ∧ loadWithin 2 unwrittenSample = .ok unwrittenSampleChunk
      ∧ loadWithin 9 unwrittenSample = .ok unwrittenSampleChunk
      ∧ loadWithin 1 unwrittenSample = .error (.nestingTooDeep 1)
      ∧ loadWithin 7 strangeTagSample = .error (.unknownConstantTag 0x07 54) := by
  have hdepth : unwrittenSampleChunk.main.depth = 2 := by decide +kernel
  have hload : loadWithin 2 unwrittenSample = .ok unwrittenSampleChunk :=
    eq_ok_of_toOption (by decide +kernel)
  have hmore := (loadWithin_under_another_limit unwrittenSample 2 9).1 _ hload
  have hless := (loadWithin_under_another_limit unwrittenSample 2 1).1 _ hload
  rw [if_pos (by omega)] at hmore
  rw [if_neg (by omega)] at hless
  have hstrange : loadWithin 1 strangeTagSample = .error (.unknownConstantTag 0x07 54) := rfl
  refine ⟨hdepth, hload, hmore, hless, ?_⟩
  refine (loadWithin_under_another_limit strangeTagSample 1 7).2 _ hstrange ?_ (by omega)
  intro l h
  cases h

end Chunk

end LuaBytecode
