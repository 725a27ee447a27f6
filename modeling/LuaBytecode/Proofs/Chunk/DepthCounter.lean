/-
  Reading functions with a depth counter, and what the input alone bounds.

  1. **The counter** — `DepthM` is reading with a counter of the functions that have begun and not ended.
     A function counts up when it begins, is refused if the count is then beyond the limit, and counts down
     when it ends, in success and in failure (`deeper`).  Beside the counter stands the most it has been,
     at which no step looks.

  2. **The recursion** — `DepthM.prototype` recurses on the number of unread bytes.  Before a function
     nested in it begins, a function takes 28 bytes: at least one for its source, eight for its lines,
     three more, and four counts.  So every inner call has 28 unread bytes fewer, and whatever is put in
     the place of other calls is never asked for (`prototype_eq_guarded`).  No limit is needed for that.

  3. **The counter follows the levels** — a run with the counter at `depth` does what `ReadM.prototype` does
     with `limit - depth` levels left, and leaves the counter as it found it.  A function that begins at
     depth `k` begins 28 bytes further into the input for each level above it, which bounds the counter; and
     a refusal for nesting means that the counter has been beyond the limit, which bounds the limits that
     can be reached at all.
-/
import LuaBytecode.Proofs.Chunk.NestingLimit

namespace LuaBytecode

/-! ## Reading with a counter -/

/-- A place in the input, the number of functions that have begun there and not ended, and the most that
    number has been. -/
structure DepthState where
  cursor : Cursor
  depth : Nat
  peak : Nat

namespace DepthState

/-- The start of an input. -/
def ofBytes (bytes : Bytes) : DepthState := ⟨.ofBytes bytes, 0, 0⟩

/-- A function begins. -/
def enter (s : DepthState) : DepthState :=
  { s with depth := s.depth + 1, peak := max s.peak (s.depth + 1) }

/-- A function ends. -/
def leave (s : DepthState) : DepthState := { s with depth := s.depth - 1 }

end DepthState

/-- A reading step that carries a counter. -/
abbrev DepthM := EStateM LoadError DepthState

namespace DepthM

section Steps

variable {α : Type}

/-- The state after a step, however the step ended. -/
def stateAfter : EStateM.Result LoadError DepthState α → DepthState
  | .ok _ s => s
  | .error _ s => s

/-- The outcome of a step without the counter. -/
def uncounted : EStateM.Result LoadError DepthState α → EStateM.Result LoadError Cursor α
  | .ok x s => .ok x s.cursor
  | .error e s => .error e s.cursor

/-- A step that begins no function. -/
def read (m : ReadM α) : DepthM α := fun s =>
  match m s.cursor with
  | .ok x c => .ok x { s with cursor := c }
  | .error e c => .error e { s with cursor := c }

/-- The same outcome after the end of a function. -/
def ended : EStateM.Result LoadError DepthState α → EStateM.Result LoadError DepthState α
  | .ok x s => .ok x s.leave
  | .error e s => .error e s.leave

/-- A step within a function that begins here, or a refusal if that is too deep.  The function ends
    with the step, whether the step succeeds or fails. -/
def deeper (limit : Nat) (m : DepthM α) : DepthM α := fun s =>
  ended (if limit < s.enter.depth then .error (.nestingTooDeep limit) s.enter else m s.enter)

/-- The same step `n` times. -/
def times (element : DepthM α) : Nat → DepthM (List α)
  | 0 => return []
  | n + 1 => do
    let x ← element
    let xs ← times element n
    return x :: xs

end Steps

/-- One function, `child` being the step for a nested one. -/
def prototypeBody (child : String → DepthM Prototype) (parent : String) : DepthM Prototype := do
  let o ← read (ReadM.opening parent)
  let children ← times (child o.head.source) o.childCount
  read (ReadM.closing o children)

/-- A function, by recursion on the number of unread bytes.  A call that does not have fewer of them is
    not made by any run. -/
def prototype (limit : Nat) (parent : String) (s : DepthState) :
    EStateM.Result LoadError DepthState Prototype :=
  deeper limit (prototypeBody (fun source t =>
    if t.cursor.unread.length < s.cursor.unread.length then prototype limit source t
    else .error (.nestingTooDeep limit) t) parent) s
termination_by s.cursor.unread.length

/-- A whole chunk. -/
def chunk (limit : Nat) : DepthM Chunk := do
  read ReadM.header
  let upvalueCount ← read ReadM.byte
  let main ← prototype limit ""
  read (ReadM.finish ⟨upvalueCount, main⟩)

end DepthM

/-! ## How far steps move -/

namespace ReadM

section Advances

variable {α β : Type} {m : ReadM α} {width : Nat}

/-- Where it succeeds, the step takes at least `width` bytes. -/
def Advances (width : Nat) (m : ReadM α) : Prop :=
  ∀ c x d, m c = .ok x d → d.unread.length + width ≤ c.unread.length

theorem advances_pure (x : α) : Advances 0 (pure x : ReadM α) := by
  intro c y d h
  cases h
  exact Nat.le_refl _

/-- A step moves over the form that it accepts, so a bound on its forms is a bound on how far it moves. -/
theorem Accepts.advances {G : Form α} (hm : Accepts m G)
    (hwidth : ∀ form x, G form x → width ≤ form.length) : Advances width m := by
  intro c x d h
  obtain ⟨form, hform, hunread, _⟩ := (hm c x d).1 h
  have := hwidth form x hform
  rw [hunread, List.length_append]
  omega

/-- What two steps move over adds up. -/
theorem Advances.bind {width' : Nat} {f : α → ReadM β} (hm : Advances width m)
    (hf : ∀ x, Advances width' (f x)) : Advances (width + width') (m >>= f) := by
  intro c y e h
  obtain ⟨x, d, h1, h2⟩ := bind_eq_ok_iff.1 h
  have := hm c x d h1
  have := hf x d y e h2
  omega

theorem advances_byte : Advances 1 byte := by
  refine accepts_byte.advances fun form b h => ?_
  rw [h]
  exact Nat.le_refl 1

theorem advances_word32 : Advances 4 word32 :=
  accepts_word32.advances fun _ _ => Word32Form.width_le

/-- The header is 33 bytes wide. -/
theorem advances_header : Advances 33 header := by
  refine accepts_header.advances fun form _ h => ?_
  subst h
  exact Nat.le_of_eq Format.length_header.symm

/-- A count is four bytes wide; that it also looks at what follows does not move it. -/
theorem advances_count (s : Segment) : Advances 4 (count s) := by
  intro c n d h
  obtain ⟨_, _, hunread, _⟩ := (count_eq_ok_iff s c d n).1 h
  rw [hunread, List.length_append, length_toLittleEndian]
  omega

/-- A segment moves over its count at least. -/
theorem advances_segment {s : Segment} {G : Form α} (hm : Accepts (segment s m) (SegmentForm G)) :
    Advances 4 (segment s m) :=
  hm.advances fun _ _ => SegmentForm.four_le_length

/-- **28 bytes a level**: what a function takes before a function nested in it begins. -/
theorem advances_opening (parent : String) : Advances 28 (opening parent) := by
  have hname : Advances 1 name := accepts_name.advances fun _ _ => NameForm.one_le_length
  have hcode : Advances 4 (segment .code instruction) :=
    advances_segment (accepts_segment .code accepts_instruction fun _ _ => InstructionForm.width_le)
  have hconstants : Advances 4 (segment .constants constant) :=
    advances_segment (accepts_segment .constants accepts_constant fun _ _ => ConstantForm.width_le)
  have hupvalues : Advances 4 (segment .upvalues upvalue) :=
    advances_segment (accepts_segment .upvalues accepts_upvalue fun _ _ => UpvalueForm.width_le)
  show Advances (1 + (4 + (4 + (1 + (1 + (1 + (4 + (4 + (4 + (4 + 0)))))))))) (opening parent)
  refine hname.bind fun own => ?_
  refine advances_word32.bind fun firstLine => advances_word32.bind fun lastLine => ?_
  refine advances_byte.bind fun parameterCount => advances_byte.bind fun varargFlag =>
    advances_byte.bind fun slotCount => ?_
  refine hcode.bind fun code => hconstants.bind fun constants => hupvalues.bind fun upvalues => ?_
  exact (advances_count .prototypes).bind fun childCount => advances_pure _

end Advances

/-- A step that only moves forward takes nothing back. -/
theorem Located.advances {α : Type} {m : ReadM α} {limit : Nat} (hm : Located limit m) :
    Advances 0 m := by
  intro c x d h
  obtain ⟨read, hunread, _⟩ := (hm c).ok (Cursor.LeadsTo.refl c) h
  rw [hunread, List.length_append]
  omega

end ReadM

namespace DepthM

section Recursion

variable {α β : Type} {m n : DepthM α} {limit : Nat}

theorem read_of_ok {m : ReadM α} {s : DepthState} {x : α} {c : Cursor} (h : m s.cursor = .ok x c) :
    read m s = .ok x { s with cursor := c } := by
  rw [read, h]

theorem read_of_error {m : ReadM α} {s : DepthState} {e : LoadError} {c : Cursor}
    (h : m s.cursor = .error e c) : read m s = .error e { s with cursor := c } := by
  rw [read, h]

/-- Reading under the counter is reading, and touches the cursor only. -/
theorem read_eq_ok {m : ReadM α} {s t : DepthState} {x : α} (h : read m s = .ok x t) :
    m s.cursor = .ok x t.cursor ∧ t = { s with cursor := t.cursor } := by
  cases hs : m s.cursor with
  | ok y c =>
    cases (read_of_ok hs).symm.trans h
    exact ⟨rfl, rfl⟩
  | error e c => cases (read_of_error hs).symm.trans h

/-- Below the limit the counter goes up, the step runs, and the counter goes down again. -/
theorem deeper_of_lt {s : DepthState} (h : s.depth < limit) :
    deeper limit m s = ended (m s.enter) := by
  have hdepth : ¬ limit < s.enter.depth := Nat.not_lt.2 h
  rw [deeper, if_neg hdepth]

/-- At the limit nothing is read.  The peak has been raised all the same, as the check comes after the
    count. -/
theorem deeper_of_le {s : DepthState} (h : limit ≤ s.depth) :
    deeper limit m s = .error (.nestingTooDeep limit) s.enter.leave := by
  have hdepth : limit < s.enter.depth := Nat.lt_succ_of_le h
  rw [deeper, if_pos hdepth]
  rfl

/-! ## The recursion -/

/-- Where it succeeds, the step has not moved back. -/
def Forward (m : DepthM α) : Prop :=
  ∀ s x t, m s = .ok x t → t.cursor.unread.length ≤ s.cursor.unread.length

theorem forward_read {m : ReadM α} (hm : ReadM.Advances 0 m) : Forward (read m) :=
  fun s x t h => hm s.cursor x t.cursor (read_eq_ok h).1

/-- What each of two steps does not undo, both together do not. -/
theorem Forward.bind {f : α → DepthM β} (hm : Forward m) (hf : ∀ x, Forward (f x)) :
    Forward (m >>= f) := by
  intro s y u h
  obtain ⟨x, t, h1, h2⟩ := bind_eq_ok_iff.1 h
  exact Nat.le_trans (hf x t y u h2) (hm s x t h1)

/-- By induction on the number of repetitions. -/
theorem Forward.times (hm : Forward m) (k : Nat) : Forward (times m k) := by
  induction k with
  | zero =>
    intro s x t h
    cases h
    exact Nat.le_refl _
  | succ k ih =>
    refine hm.bind fun x => ih.bind fun xs => ?_
    intro s y t h
    cases h
    exact Nat.le_refl _

/-- Leaving a level gives back the depth and not the cursor. -/
theorem Forward.deeper (hm : Forward m) : Forward (deeper limit m) := by
  intro s x t h
  by_cases hdepth : s.depth < limit
  · rw [deeper_of_lt hdepth] at h
    cases hs : m s.enter with
    | ok y u =>
      rw [hs] at h
      cases h
      exact hm s.enter x u hs
    | error e u =>
      rw [hs] at h
      cases h
  · rw [deeper_of_le (Nat.le_of_not_lt hdepth)] at h
    cases h

/-- A function reads on only through steps that move forward, its nested functions included. -/
theorem forward_prototypeBody {child : String → DepthM Prototype}
    (hchild : ∀ source, Forward (child source)) (parent : String) :
    Forward (prototypeBody child parent) := by
  have hlaw := ReadM.stepLaw_located 0
  refine (forward_read (hlaw.opening parent).advances).bind fun o => ?_
  refine ((hchild o.head.source).times o.childCount).bind fun children => ?_
  exact forward_read (hlaw.closing o children).advances

/-- A step that fails except where it does not move back. -/
theorem forward_guarded {p : DepthState → Prop} [DecidablePred p] {e : LoadError}
    (hm : ∀ s x t, p s → m s = .ok x t → t.cursor.unread.length ≤ s.cursor.unread.length) :
    Forward (fun s => if p s then m s else .error e s) := by
  intro s x t h
  by_cases hp : p s
  · exact hm s x t hp ((if_pos hp).symm.trans h)
  · cases (if_neg hp).symm.trans h

/-- A reader of functions never moves back: by recursion the calls that it makes do not, and the place of
    those that it does not make is taken by a failure. -/
theorem forward_prototype (limit : Nat) (parent : String) : Forward (prototype limit parent) := by
  intro s
  induction hsize : s.cursor.unread.length using Nat.strongRecOn generalizing s parent with
  | ind size ih =>
    subst hsize
    rw [prototype]
    refine (forward_prototypeBody (fun source => forward_guarded ?_) parent).deeper s
    intro t x u hless h
    exact ih _ hless source t rfl x u h

/-- Repetition asks for a step only from where it stands on. -/
theorem times_congr (hm : Forward m) {size : Nat}
    (hagree : ∀ s, s.cursor.unread.length ≤ size → m s = n s) (k : Nat) (s : DepthState)
    (hs : s.cursor.unread.length ≤ size) : times m k s = times n k s := by
  induction k generalizing s with
  | zero => rfl
  | succ k ih =>
    rw [times, times]
    cases hfirst : m s with
    | ok x t =>
      have hsame : n s = .ok x t := (hagree s hs).symm.trans hfirst
      have hrest : times m k t = times n k t := ih t (Nat.le_trans (hm s x t hfirst) hs)
      rw [bind_of_ok hfirst, bind_of_ok hsame]
      exact bind_of_eq hrest
    | error e t =>
      have hsame : n s = .error e t := (hagree s hs).symm.trans hfirst
      rw [bind_of_error hfirst, bind_of_error hsame]

/-- **A function asks for nested ones only 28 bytes further on.** -/
theorem prototypeBody_congr {child child' : String → DepthM Prototype} {parent : String}
    {s : DepthState} (hchild : ∀ source, Forward (child source))
    (hagree : ∀ source t, t.cursor.unread.length + 28 ≤ s.cursor.unread.length →
      child source t = child' source t) :
    prototypeBody child parent s = prototypeBody child' parent s := by
  unfold prototypeBody
  cases hopen : ReadM.opening parent s.cursor with
  | ok o c =>
    have hmoved := ReadM.advances_opening parent _ _ _ hopen
    rw [bind_of_ok (read_of_ok hopen), bind_of_ok (read_of_ok hopen)]
    have hnested : times (child o.head.source) o.childCount { s with cursor := c }
        = times (child' o.head.source) o.childCount { s with cursor := c } := by
      refine times_congr (hchild _) (fun t ht => hagree _ t ?_) _ _ (Nat.le_refl c.unread.length)
      exact Nat.le_trans (Nat.add_le_add_right ht 28) hmoved
    exact bind_of_eq hnested
  | error e c => rw [bind_of_error (read_of_error hopen), bind_of_error (read_of_error hopen)]

/-- **The recursion is on the unread bytes**: a function is read by reading nested ones with at least 28
    unread bytes fewer, whatever would be done in the place of other calls. -/
theorem prototype_eq_guarded (limit : Nat) (parent : String) (s : DepthState)
    (other : String → DepthM Prototype) :
    prototype limit parent s = deeper limit (prototypeBody (fun source t =>
      if t.cursor.unread.length + 28 ≤ s.cursor.unread.length then prototype limit source t
      else other source t) parent) s := by
  rw [prototype]
  have hbody : prototypeBody (fun source t =>
        if t.cursor.unread.length < s.cursor.unread.length then prototype limit source t
        else .error (.nestingTooDeep limit) t) parent s.enter
      = prototypeBody (fun source t =>
        if t.cursor.unread.length + 28 ≤ s.cursor.unread.length then prototype limit source t
        else other source t) parent s.enter := by
    refine prototypeBody_congr (fun source => forward_guarded fun t x u _ h => ?_) fun source t ht => ?_
    · exact forward_prototype limit source t x u h
    · have hfewer : t.cursor.unread.length + 28 ≤ s.cursor.unread.length := ht
      rw [if_pos hfewer, if_pos (by omega)]
  by_cases hdepth : s.depth < limit
  · rw [deeper_of_lt hdepth, deeper_of_lt hdepth, hbody]
  · rw [deeper_of_le (by omega), deeper_of_le (by omega)]

/-- The recursive equation, without regard to unread bytes. -/
theorem prototype_eq (limit : Nat) (parent : String) :
    prototype limit parent = deeper limit (prototypeBody (prototype limit) parent) := by
  funext s
  rw [prototype_eq_guarded limit parent s (prototype limit)]
  simp only [ite_self]

end Recursion

end DepthM

namespace ReadM

/-! ## Steps that begin no function -/

/-- A step that begins no function: it moves forward, and never refuses for nesting. -/
structure Flat {α : Type} (m : ReadM α) : Prop where
  ok {c d : Cursor} {x : α} : m c = .ok x d → c.LeadsTo d
  error {c d : Cursor} {e : LoadError} : m c = .error e d → c.LeadsTo d ∧ ∀ l, e ≠ .nestingTooDeep l

/-- A refusal for nesting states the limit; so a step that knows no limit makes none. -/
theorem flat_of_located {α : Type} {m : ReadM α} (hm : ∀ limit, Located limit m) : Flat m where
  ok h := (hm 0 _).ok (Cursor.LeadsTo.refl _) h
  error {c d e} h := by
    refine ⟨((hm 0 c).error (Cursor.LeadsTo.refl c) h).1, ?_⟩
    rintro l rfl
    have hstated : l = l + 1 := ((hm (l + 1) c).error (Cursor.LeadsTo.refl c) h).2
    omega

/-- The check for trailing bytes consumes nothing and begins no function. -/
theorem flat_finish (c : Chunk) : Flat (finish c) where
  ok {d d' x} h := by
    rw [finish_eq] at h
    split at h
    · cases h
      exact .refl d
    · cases h
  error {d d' e} h := by
    rw [finish_eq] at h
    split at h
    · cases h
    · cases h
      exact ⟨.refl d, fun l heq => by cases heq⟩

end ReadM

namespace DepthM

/-! ## The counter follows the levels -/

/-- Every level below the peak begins 28 bytes behind the one around it, the first at `base`, and all of
    them within the input. -/
def PeakWithin (base : Nat) (s : DepthState) : Prop :=
  ∀ k, k < s.peak → base + 28 * k ≤ s.cursor.position + s.cursor.unread.length

/-- A place where a function may begin: 28 bytes behind `base` for every function around it. -/
structure Placed (base : Nat) (s : DepthState) : Prop where
  depth_le : base + 28 * s.depth ≤ s.cursor.position
  peak : PeakWithin base s

/-- From the state `s` a step came to `r`, which is `q` with a counter: it moved forward, left the counter
    as it found it and the peak within the input, and refused for nesting only if the counter has been
    beyond the limit. -/
structure Tracks {α : Type} (limit base : Nat) (s : DepthState)
    (r : EStateM.Result LoadError DepthState α) (q : EStateM.Result LoadError Cursor α) : Prop where
  outcome : uncounted r = q
  leadsTo : s.cursor.LeadsTo (stateAfter r).cursor
  depth_eq : (stateAfter r).depth = s.depth
  peak : PeakWithin base (stateAfter r)
  tooDeep {l : Nat} {t : DepthState} : r = .error (.nestingTooDeep l) t → limit < t.peak

section Tracks

variable {α β : Type} {limit base : Nat} {m : DepthM α} {n : ReadM α} {s t : DepthState}

/-- Moving forward leaves the end of the input where it is. -/
theorem PeakWithin.of_leadsTo {c : Cursor} (h : PeakWithin base s) (hleads : s.cursor.LeadsTo c) :
    PeakWithin base { s with cursor := c } := by
  intro k hk
  have hstop := hleads.end_eq
  have hlevel := h k hk
  show base + 28 * k ≤ c.position + c.unread.length
  omega

/-- Where a function may begin it does not take the peak out of the input. -/
theorem Placed.peakWithin_enter (hs : Placed base s) : PeakWithin base s.enter := by
  intro k hk
  have hk : k < max s.peak (s.depth + 1) := hk
  have hdepth := hs.depth_le
  show base + 28 * k ≤ s.cursor.position + s.cursor.unread.length
  rcases Nat.lt_or_ge k s.peak with hbefore | hnew
  · exact hs.peak k hbefore
  · omega

/-- After a step that keeps track, functions may begin where they might before. -/
theorem Tracks.placed {x : α} {q : EStateM.Result LoadError Cursor α}
    (h : Tracks limit base s (.ok x t) q) (hs : Placed base s) : t.depth = s.depth ∧ Placed base t := by
  have hdepth : t.depth = s.depth := h.depth_eq
  have hpos : s.cursor.position ≤ t.cursor.position := h.leadsTo.position_le
  have hstart := hs.depth_le
  refine ⟨hdepth, ?_, h.peak⟩
  rw [hdepth]
  omega

/-- A step that begins no function leaves the counter alone, so the two runs end alike. -/
theorem tracks_read (limit : Nat) (hn : ReadM.Flat n) (hpeak : PeakWithin base s) :
    Tracks limit base s (read n s) (n s.cursor) := by
  unfold read
  cases hs : n s.cursor with
  | ok x c =>
    have hleads := hn.ok hs
    exact ⟨rfl, hleads, rfl, hpeak.of_leadsTo hleads, fun h => by cases h⟩
  | error e c =>
    obtain ⟨hleads, hother⟩ := hn.error hs
    refine ⟨rfl, hleads, rfl, hpeak.of_leadsTo hleads, fun h => ?_⟩
    cases h
    exact absurd rfl (hother _)

theorem tracks_pure (x : α) (hpeak : PeakWithin base s) :
    Tracks limit base s ((pure x : DepthM α) s) ((pure x : ReadM α) s.cursor) :=
  ⟨rfl, .refl _, rfl, hpeak, fun h => by cases h⟩

/-- **Following passes through sequencing**: the second of two steps starts where both runs of the first
    have stopped. -/
theorem Tracks.bind {f : α → DepthM β} {g : α → ReadM β}
    (hm : Tracks limit base s (m s) (n s.cursor))
    (hf : ∀ x t, m s = .ok x t → Tracks limit base t (f x t) (g x t.cursor)) :
    Tracks limit base s ((m >>= f) s) ((n >>= g) s.cursor) := by
  cases hs : m s with
  | ok x t =>
    rw [hs] at hm
    have hplain : n s.cursor = .ok x t.cursor := hm.outcome.symm
    have hrest := hf x t hs
    rw [bind_of_ok hs, bind_of_ok hplain]
    exact ⟨hrest.outcome, hm.leadsTo.trans hrest.leadsTo, hrest.depth_eq.trans hm.depth_eq,
      hrest.peak, hrest.tooDeep⟩
  | error e t =>
    rw [hs] at hm
    have hplain : n s.cursor = .error e t.cursor := hm.outcome.symm
    rw [bind_of_error hs, bind_of_error hplain]
    refine ⟨rfl, hm.leadsTo, hm.depth_eq, hm.peak, fun h => ?_⟩
    cases h
    exact hm.tooDeep rfl

/-- Siblings are all read at the depth of the first. -/
theorem tracks_times {depth : Nat}
    (hm : ∀ t, t.depth = depth → Placed base t → Tracks limit base t (m t) (n t.cursor)) (k : Nat)
    (hdepth : s.depth = depth) (hs : Placed base s) :
    Tracks limit base s (times m k s) (ReadM.times n k s.cursor) := by
  induction k generalizing s with
  | zero => exact tracks_pure [] hs.peak
  | succ k ih =>
    have hfirst := hm s hdepth hs
    refine hfirst.bind fun x t hx => ?_
    rw [hx] at hfirst
    obtain ⟨htdepth, ht⟩ := hfirst.placed hs
    have hrest := ih (htdepth.trans hdepth) ht
    refine hrest.bind fun xs u hxs => ?_
    rw [hxs] at hrest
    exact tracks_pure (x :: xs) hrest.peak

/-- The end of a function takes back its beginning, in success and in failure. -/
theorem Tracks.ended {r : EStateM.Result LoadError DepthState α}
    {q : EStateM.Result LoadError Cursor α} (h : Tracks limit base s.enter r q) :
    Tracks limit base s (ended r) q := by
  have hinside : (stateAfter r).depth = s.depth + 1 := h.depth_eq
  have houtside : (stateAfter r).depth - 1 = s.depth := by omega
  cases r with
  | ok x t => exact ⟨h.outcome, h.leadsTo, houtside, h.peak, fun heq => by cases heq⟩
  | error e t =>
    refine ⟨h.outcome, h.leadsTo, houtside, h.peak, fun heq => ?_⟩
    cases heq
    have hbeyond : limit < t.peak := h.tooDeep rfl
    exact hbeyond

theorem flat_opening (parent : String) : ReadM.Flat (ReadM.opening parent) :=
  ReadM.flat_of_located fun l => (ReadM.stepLaw_located l).opening parent

theorem flat_closing (o : ReadM.Opening) (children : List Prototype) :
    ReadM.Flat (ReadM.closing o children) :=
  ReadM.flat_of_located fun l => (ReadM.stepLaw_located l).closing o children

/-- What a function takes before the functions nested in it makes up for the level that began. -/
theorem Placed.of_opening {parent : String} {o : ReadM.Opening} (hs : Placed base s)
    (ho : read (ReadM.opening parent) s.enter = .ok o t) : t.depth = s.depth + 1 ∧ Placed base t := by
  obtain ⟨hcursor, hstate⟩ := read_eq_ok ho
  have hleads : s.cursor.LeadsTo t.cursor := (flat_opening parent).ok hcursor
  have hmoved : t.cursor.unread.length + 28 ≤ s.cursor.unread.length :=
    ReadM.advances_opening parent _ _ _ hcursor
  have hstop := hleads.end_eq
  have hstart := hs.depth_le
  have hdepth : t.depth = s.depth + 1 := congrArg DepthState.depth hstate
  have hpeak : PeakWithin base t := hstate ▸ hs.peakWithin_enter.of_leadsTo hleads
  exact ⟨hdepth, by omega, hpeak⟩

/-- **The counter follows the levels**: with the counter at a depth, a function is read as it is with the
    levels that the limit leaves below that depth. -/
theorem tracks_prototype {room : Nat} (hroom : room + s.depth = limit) (hs : Placed base s)
    (parent : String) :
    Tracks limit base s (prototype limit parent s) (ReadM.prototype limit room parent s.cursor) := by
  induction room generalizing s parent with
  | zero =>
    -- the counter is at the limit, so beginning a function takes it beyond
    rw [prototype_eq, deeper_of_le (by omega)]
    refine ⟨rfl, .refl _, rfl, hs.peakWithin_enter, fun h => ?_⟩
    cases h
    show limit < max s.peak (s.depth + 1)
    omega
  | succ room ih =>
    rw [prototype_eq, deeper_of_lt (by omega), ReadM.prototype, ReadM.prototypeBody_eq]
    refine Tracks.ended ?_
    have hfirst := tracks_read limit (flat_opening parent) hs.peakWithin_enter
    refine hfirst.bind fun o t ho => ?_
    obtain ⟨hdepth, ht⟩ := hs.of_opening ho
    have hnested := tracks_times (m := prototype limit o.head.source)
      (fun u hu hplaced => ih (by omega) hplaced o.head.source) o.childCount hdepth ht
    refine hnested.bind fun children u hu => ?_
    rw [hu] at hnested
    exact tracks_read limit (flat_closing o children) hnested.peak

/-- **A whole chunk.**  The main function begins behind the header and one byte, at 34. -/
theorem tracks_chunk (limit : Nat) (bytes : Bytes) :
    Tracks limit 34 (.ofBytes bytes) (chunk limit (.ofBytes bytes))
      (ReadM.chunk limit (.ofBytes bytes)) := by
  have hnone : PeakWithin 34 (.ofBytes bytes) := fun k hk => absurd hk (Nat.not_lt_zero k)
  have hheader : ReadM.Flat ReadM.header :=
    ReadM.flat_of_located fun l => (ReadM.stepLaw_located l).header
  have hbyte : ReadM.Flat ReadM.byte := ReadM.flat_of_located fun l => ReadM.located_byte
  have hfirst := tracks_read limit hheader hnone
  refine hfirst.bind fun _ s1 h1 => ?_
  rw [h1] at hfirst
  have hpeak : PeakWithin 34 s1 := hfirst.peak
  have hsecond := tracks_read limit hbyte hpeak
  refine hsecond.bind fun upvalueCount s2 h2 => ?_
  rw [h2] at hsecond
  have hdepth : s2.depth = 0 := hsecond.depth_eq.trans hfirst.depth_eq
  have hplaced : Placed 34 s2 := by
    have hmoved1 := ReadM.advances_header _ _ _ (read_eq_ok h1).1
    have hmoved2 := ReadM.advances_byte _ _ _ (read_eq_ok h2).1
    have hstop : s2.cursor.position + s2.cursor.unread.length = 0 + bytes.length :=
      (hfirst.leadsTo.trans hsecond.leadsTo).end_eq
    have hlength : (DepthState.ofBytes bytes).cursor.unread.length = bytes.length := rfl
    refine ⟨?_, hsecond.peak⟩
    rw [hdepth]
    omega
  have hmain : Tracks limit 34 s2 (prototype limit "" s2) (ReadM.prototype limit limit "" s2.cursor) :=
    tracks_prototype (by omega) hplaced ""
  refine hmain.bind fun main s3 h3 => ?_
  rw [h3] at hmain
  exact tracks_read limit (ReadM.flat_finish ⟨upvalueCount, main⟩) hmain.peak

end Tracks

end DepthM

/-! ## Loading -/

namespace Chunk

variable {limit : Nat} {bytes : Bytes}

/-- Every level that a run has begun takes 28 bytes of the input, behind the header and one byte. -/
theorem length_of_lt_peak {k : Nat}
    (hk : k < (DepthM.stateAfter (DepthM.chunk limit (.ofBytes bytes))).peak) :
    34 + 28 * k ≤ bytes.length := by
  have hrun := DepthM.tracks_chunk limit bytes
  have hlevel := hrun.peak k hk
  rw [hrun.leadsTo.end_eq] at hlevel
  exact Nat.le_trans hlevel (Nat.le_of_eq (Nat.zero_add bytes.length))

/-- The deepest level that is ever entered is no deeper than the input is long: each level has consumed a
    byte, and the last one may have found nothing. -/
theorem peak_le_length (limit : Nat) (bytes : Bytes) :
    (DepthM.stateAfter (DepthM.chunk limit (.ofBytes bytes))).peak ≤ bytes.length := by
  rcases Nat.eq_zero_or_pos (DepthM.stateAfter (DepthM.chunk limit (.ofBytes bytes))).peak with h | h
  · rw [h]
    exact Nat.zero_le _
  · have hlevel := length_of_lt_peak (Nat.sub_lt h Nat.zero_lt_one)
    omega

/-- A limit that is reached is short for the input: 28 bytes for each of its levels. -/
theorem length_of_tooDeep {l : Nat} (h : loadWithin limit bytes = .error (.nestingTooDeep l)) :
    34 + 28 * limit ≤ bytes.length := by
  have hrun := DepthM.tracks_chunk limit bytes
  have houtcome := hrun.outcome
  unfold loadWithin at h
  cases hcounted : DepthM.chunk limit (.ofBytes bytes) with
  | ok c t =>
    rw [hcounted] at houtcome
    rw [← houtcome] at h
    cases h
  | error e t =>
    rw [hcounted] at houtcome
    rw [← houtcome] at h
    cases h
    have hbeyond : limit < t.peak := hrun.tooDeep hcounted
    have hpeak : limit < (DepthM.stateAfter (DepthM.chunk limit (.ofBytes bytes))).peak := by
      rw [hcounted]
      exact hbeyond
    exact length_of_lt_peak hpeak

/-- Limits for which the input is too short make no difference. -/
theorem loadWithin_eq_of_length_lt {limit' : Nat} (hle : limit ≤ limit')
    (h : bytes.length < 34 + 28 * limit) : loadWithin limit bytes = loadWithin limit' bytes := by
  rcases loadWithin_eq_or_tooDeep hle bytes with hsame | hstop
  · exact hsame
  · have := length_of_tooDeep hstop
    omega

/-- **Loading terminates by the input alone.**  A function is read by reading nested ones with at least 28
    unread bytes fewer, whatever would be done in the place of other calls.  Read so, with a counter of the
    functions that have begun and not ended, a chunk comes out as it does by recursion on the limit, and
    the counter never exceeds the length of the input.  A limit is reached only by inputs with 28 bytes for
    each of its levels, so that all limits beyond that come to the same. -/
theorem loading_terminates_by_input (bytes : Bytes) :
    (∀ limit parent (s : DepthState) (other : String → DepthM Prototype),
      DepthM.prototype limit parent s
        = DepthM.deeper limit (DepthM.prototypeBody (fun source t =>
            if t.cursor.unread.length + 28 ≤ s.cursor.unread.length then DepthM.prototype limit source t
            else other source t) parent) s)
    ∧ (∀ limit,
      DepthM.uncounted (DepthM.chunk limit (.ofBytes bytes)) = ReadM.chunk limit (.ofBytes bytes)
        ∧ (DepthM.stateAfter (DepthM.chunk limit (.ofBytes bytes))).peak ≤ bytes.length)
    ∧ (∀ limit l, loadWithin limit bytes = .error (.nestingTooDeep l) → 34 + 28 * limit ≤ bytes.length)
    ∧ ∀ limit limit', bytes.length < 34 + 28 * min limit limit' →
      loadWithin limit bytes = loadWithin limit' bytes := by
  refine ⟨?_, ?_, ?_, ?_⟩
  · intro limit parent s other
    exact DepthM.prototype_eq_guarded limit parent s other
  · intro limit
    exact ⟨(DepthM.tracks_chunk limit bytes).outcome, peak_le_length limit bytes⟩
  · intro limit l h
    exact length_of_tooDeep h
  · intro limit limit' h
    rcases Nat.le_total limit limit' with hle | hle
    · rw [Nat.min_eq_left hle] at h
      exact loadWithin_eq_of_length_lt hle h
    · rw [Nat.min_eq_right hle] at h
      exact (loadWithin_eq_of_length_lt hle h).symm

/-- A limit that the sample reaches, and two that it is too short for. -/
theorem loading_terminates_by_input_sample :
    loadWithin 1 unwrittenSample = .error (.nestingTooDeep 1)
      ∧ 34 + 28 * 1 ≤ unwrittenSample.length
      ∧ unwrittenSample.length < 34 + 28 * min 4 200
      ∧ loadWithin 4 unwrittenSample = loadWithin 200 unwrittenSample := by
  obtain ⟨_, _, hreached, hbeyond⟩ := loading_terminates_by_input unwrittenSample
  have hload : loadWithin 2 unwrittenSample = .ok unwrittenSampleChunk :=
    eq_ok_of_toOption (by decide +kernel)
  have hdeep : loadWithin 1 unwrittenSample = .error (.nestingTooDeep 1) :=
    loadWithin_of_lt_depth hload (by decide +kernel)
  have hshort : unwrittenSample.length < 34 + 28 * min 4 200 := by decide +kernel
  exact ⟨hdeep, hreached 1 1 hdeep, hshort, hbeyond 4 200 hshort⟩

end Chunk

end LuaBytecode
