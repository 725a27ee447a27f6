/-
  What holds after every step of a reading session, failed steps included.

  1. **The counter across steps** — `countedSession` is a session with the depth counter of `DepthM`, which
     one step hands to the next as it left it.  A function that is refused in the midst of functions nested
     in it has counted up several times; that the next function may nest as deep as ever is the statement
     that all of this has been taken back.

  2. **One step** — every step keeps track in the sense of `Tracks`: steps that begin no function because they
     are laws of reading, and functions by `tracks_prototype`.  So from a place in the input with the counter
     at zero (`Ready`) a step moves forward within the input and comes to such a place again.

  3. **A session** — by induction on the steps all of them are `Orderly`, and without the counter the
     session is `readSession`.
-/
import LuaBytecode.Chunk.Session
import LuaBytecode.Proofs.Chunk.DepthCounter

namespace LuaBytecode

/-! ## Sessions with the counter -/

/-- A step with the counter.  Only a function counts. -/
def ReadStep.runCounted (limit : Nat) : ReadStep → DepthM ReadResult
  | prototype parent => do
    let p ← DepthM.prototype limit parent
    return .prototype p
  | step => DepthM.read (step.run limit)

/-- A step of a session: where it started, what it was, and how it ended. -/
structure SessionEvent where
  before : DepthState
  step : ReadStep
  outcome : EStateM.Result LoadError DepthState ReadResult

/-- Where the step left off. -/
def SessionEvent.after (e : SessionEvent) : DepthState := DepthM.stateAfter e.outcome

/-- A session with the counter, each step starting from what the one before it left. -/
def countedSession (limit : Nat) : DepthState → List ReadStep → List SessionEvent
  | _, [] => []
  | s, step :: rest =>
    let event : SessionEvent := ⟨s, step, step.runCounted limit s⟩
    event :: countedSession limit event.after rest

/-- The number of bytes that a step takes, if it always takes the same. -/
def ReadStep.width? : ReadStep → Option Nat
  | byte => some 1
  | word32 => some 4
  | word64 | integer | number => some 8
  | bytes n => some n
  | string | header | prototype _ => none

/-- What holds of every step of a session on `bytes`. -/
structure SessionEvent.Orderly (limit : Nat) (bytes : Bytes) (e : SessionEvent) : Prop where
  position_le : e.before.cursor.position ≤ e.after.cursor.position
  position_le_length : e.after.cursor.position ≤ bytes.length
  position_add_remaining : e.after.cursor.position + e.after.cursor.remaining = bytes.length
  unread_eq : e.after.cursor.unread = bytes.drop e.after.cursor.position
  atEnd_iff : e.after.cursor.atEnd = true ↔ e.after.cursor.remaining = 0
  depth_eq : e.after.depth = 0
  /-- The step does what it does with all the levels of the limit to open. -/
  outcome_eq : DepthM.uncounted e.outcome = e.step.run limit e.before.cursor
  advances {width : Nat} {r : ReadResult} {s : DepthState} : e.step.width? = some width →
    e.outcome = .ok r s → s.cursor.position = e.before.cursor.position + width
  stays {width : Nat} {err : LoadError} {s : DepthState} : e.step.width? = some width →
    e.outcome = .error err s → s.cursor = e.before.cursor

/-! ## Steps of fixed width -/

namespace ReadM

section FixedWidth

variable {α β : Type} {m : ReadM α} {width : Nat}

/-- The step takes `width` bytes where it succeeds and none where it fails. -/
structure FixedWidth (width : Nat) (m : ReadM α) : Prop where
  ok {c d : Cursor} {x : α} : m c = .ok x d → d.position = c.position + width
  error {c d : Cursor} {e : LoadError} : m c = .error e d → d = c

theorem fixedWidth_take (n : Nat) (item : Item) : FixedWidth n (take n item) where
  ok {c d x} h := by
    obtain ⟨form, ⟨_, hlength⟩, _, hposition⟩ := (accepts_take n item c x d).1 h
    rw [hposition, hlength]
  error h := (take_eq_error h).2

theorem fixedWidth_byte : FixedWidth 1 byte where
  ok {c d b} h := by
    obtain ⟨_, rfl, _, hposition⟩ := (accepts_byte c b d).1 h
    exact hposition
  error h := (byte_eq_error h).2

/-- What is made of the bytes does not matter. -/
theorem FixedWidth.map (hm : FixedWidth width m) (f : α → β) :
    FixedWidth width (m >>= fun x => pure (f x)) where
  ok h := by
    obtain ⟨x, d, h1, h2⟩ := bind_eq_ok_iff.1 h
    cases h2
    exact hm.ok h1
  error h := by
    rcases bind_eq_error_iff.1 h with h1 | ⟨x, d, _, h2⟩
    · exact hm.error h1
    · cases h2

/-- What is made of the bytes does not change their number. -/
theorem FixedWidth.fmap (hm : FixedWidth width m) (f : α → β) : FixedWidth width (f <$> m) := by
  rw [map_eq_pure_bind]
  exact hm.map f

end FixedWidth

end ReadM

open ReadM

/-- The steps that have a width consume just that, whatever they make of it. -/
theorem ReadStep.fixedWidth_run {step : ReadStep} {width : Nat} (limit : Nat)
    (h : step.width? = some width) : FixedWidth width (step.run limit) := by
  have hword64 : FixedWidth 8 ReadM.word64 := (fixedWidth_take 8 .word64).map _
  cases step with
  | byte => cases h; exact fixedWidth_byte.fmap _
  | word32 => cases h; exact ((fixedWidth_take 4 .word32).map _).fmap _
  | word64 => cases h; exact hword64.fmap _
  | integer | number => cases h; exact (hword64.map _).fmap _
  | bytes => cases h; exact (fixedWidth_take width .bytes).fmap _
  | string | header | prototype => cases h

/-! ## One step -/

/-- A place in the input where no function has begun that has not ended. -/
structure Ready (bytes : Bytes) (s : DepthState) : Prop where
  leadsTo : (Cursor.ofBytes bytes).LeadsTo s.cursor
  depth_eq : s.depth = 0
  peak : DepthM.PeakWithin 0 s

/-- A session starts at the beginning of the input and at depth zero. -/
theorem ready_ofBytes (bytes : Bytes) : Ready bytes (.ofBytes bytes) where
  leadsTo := .refl _
  depth_eq := rfl
  peak := fun k hk => absurd hk (Nat.not_lt_zero k)

/-- A step that begins no function, by the law that its readers obey. -/
theorem ReadStep.flat_run (limit : Nat) {step : ReadStep} (h : ∀ parent, step ≠ .prototype parent) :
    Flat (step.run limit) := by
  refine flat_of_located fun l => ?_
  have law := stepLaw_located l
  cases step with
  | byte => exact law.fmap law.byte _
  | word32 => exact law.fmap law.word32 _
  | word64 => exact law.fmap law.word64 _
  | integer | number => exact law.fmap (law.map law.word64 _) _
  | bytes n => exact law.fmap (law.take n .bytes) _
  | string => exact law.fmap law.string _
  | header => exact law.fmap law.header _
  | prototype parent => exact absurd rfl (h parent)

/-- **One step keeps track**: with the counter at zero it does what it does without a counter, moves
    forward, and leaves the counter at zero. -/
theorem ReadStep.tracks_runCounted (limit : Nat) (step : ReadStep) {bytes : Bytes} {s : DepthState}
    (hs : Ready bytes s) :
    DepthM.Tracks limit 0 s (step.runCounted limit s) (step.run limit s.cursor) := by
  cases step with
  | prototype parent =>
    have hplaced : DepthM.Placed 0 s := ⟨by rw [hs.depth_eq]; exact Nat.zero_le _, hs.peak⟩
    have hread : DepthM.Tracks limit 0 s (DepthM.prototype limit parent s)
        (ReadM.prototype limit limit parent s.cursor) :=
      DepthM.tracks_prototype (by rw [hs.depth_eq, Nat.add_zero]) hplaced parent
    rw [runCounted, run, map_eq_pure_bind]
    refine hread.bind fun p t hp => ?_
    rw [hp] at hread
    exact DepthM.tracks_pure _ hread.peak
  | byte | word32 | word64 | integer | number | bytes | string | header =>
    exact DepthM.tracks_read limit (flat_run limit (fun parent h => by cases h)) hs.peak

section Step

variable {bytes : Bytes} {s : DepthState}

/-- A step comes to a place like the one it started from. -/
theorem Ready.after (hs : Ready bytes s) (limit : Nat) (step : ReadStep) :
    Ready bytes (DepthM.stateAfter (step.runCounted limit s)) := by
  have htracks := step.tracks_runCounted limit hs
  exact ⟨hs.leadsTo.trans htracks.leadsTo, htracks.depth_eq.trans hs.depth_eq, htracks.peak⟩

/-- Where a cursor of an input stands, and what is left there. -/
theorem Cursor.LeadsTo.of_ofBytes {c : Cursor} (h : (Cursor.ofBytes bytes).LeadsTo c) :
    c.position + c.remaining = bytes.length ∧ c.unread = bytes.drop c.position := by
  obtain ⟨read, hbytes, hposition⟩ := h
  have hbytes : bytes = read ++ c.unread := hbytes
  have hread : c.position = read.length := hposition.trans (Nat.zero_add _)
  constructor
  · rw [hbytes, hread, List.length_append]
    rfl
  · rw [hread, hbytes, List.drop_left]

/-- Being at the end is having nothing left. -/
theorem Cursor.atEnd_iff (c : Cursor) : c.atEnd = true ↔ c.remaining = 0 := by
  rw [atEnd, remaining, List.isEmpty_iff, List.length_eq_zero_iff]

/-- **One step of a session is orderly**, whatever it is and however it ends. -/
theorem Ready.orderly (hs : Ready bytes s) (limit : Nat) (step : ReadStep) :
    SessionEvent.Orderly limit bytes ⟨s, step, step.runCounted limit s⟩ := by
  have htracks := step.tracks_runCounted limit hs
  have hafter := hs.after limit step
  obtain ⟨hsum, hunread⟩ := hafter.leadsTo.of_ofBytes
  refine ⟨htracks.leadsTo.position_le, Nat.le.intro hsum, hsum, hunread, Cursor.atEnd_iff _,
    hafter.depth_eq, htracks.outcome, ?_, ?_⟩
  · intro width r t hwidth (hok : step.runCounted limit s = .ok r t)
    have hplain := htracks.outcome
    rw [hok] at hplain
    exact (step.fixedWidth_run limit hwidth).ok hplain.symm
  · intro width err t hwidth (herror : step.runCounted limit s = .error err t)
    have hplain := htracks.outcome
    rw [herror] at hplain
    exact (step.fixedWidth_run limit hwidth).error hplain.symm

end Step

/-! ## A session -/

/-- Forgetting the counter keeps the cursor, after a failure too. -/
theorem DepthM.cursorAfter_uncounted (r : EStateM.Result LoadError DepthState ReadResult) :
    cursorAfter (uncounted r) = (stateAfter r).cursor := by
  cases r <;> rfl

/-- Induction on the steps: each leaves the next a place like the one it was given. -/
theorem countedSession_of_ready {bytes : Bytes} {s : DepthState} (hs : Ready bytes s) (limit : Nat)
    (steps : List ReadStep) :
    (countedSession limit s steps).map (fun e => DepthM.uncounted e.outcome)
        = readSession limit s.cursor steps
      ∧ ∀ e ∈ countedSession limit s steps, e.Orderly limit bytes := by
  induction steps generalizing s with
  | nil => exact ⟨rfl, fun e he => absurd he List.not_mem_nil⟩
  | cons step rest ih =>
    obtain ⟨hrest, horderly⟩ := ih (hs.after limit step)
    have hfirst := (step.tracks_runCounted limit hs).outcome
    constructor
    · rw [countedSession, List.map_cons, readSession, ← hfirst, DepthM.cursorAfter_uncounted]
      exact congrArg (DepthM.uncounted (step.runCounted limit s) :: ·) hrest
    · exact List.forall_mem_cons.2 ⟨hs.orderly limit step, horderly⟩

/-- **The discipline of a reading session.**  On every input, under every limit and for every list of
    steps, failed ones included, the session with the depth counter comes to what `readSession` comes to.
    After each of its steps the position has not gone back and is within the input, position and remaining
    bytes make up the input, being at the end is having no bytes left, and the counter is back at zero, so
    that the step does what it does with all levels to open.  A step of fixed width takes that width if it
    succeeds, and does not move if it fails. -/
theorem readSession_orderly (limit : Nat) (bytes : Bytes) (steps : List ReadStep) :
    (countedSession limit (.ofBytes bytes) steps).map (fun e => DepthM.uncounted e.outcome)
        = readSession limit (.ofBytes bytes) steps
      ∧ ∀ e ∈ countedSession limit (.ofBytes bytes) steps, e.Orderly limit bytes :=
  countedSession_of_ready (ready_ofBytes bytes) limit steps

/-- A function with a function nested in it, both of them empty, but for its end. -/
def unfinishedSample : Bytes := List.replicate 24 0 ++ toLittleEndian 4 1 ++ List.replicate 40 0

/-- Under a limit of one level the nested function is too deep, and the session stands in front of it;
    read by the next step it is not. -/
theorem readSession_orderly_unfinishedSample :
    (readSession 1 (.ofBytes unfinishedSample) [.prototype "", .prototype "", .byte]).map cursorAfter
        = [⟨List.replicate 40 0, 28⟩, ⟨[], 68⟩, ⟨[], 68⟩]
      ∧ (countedSession 1 (.ofBytes unfinishedSample) [.prototype "", .prototype "", .byte]).map
          (fun e => e.after.cursor) = [⟨List.replicate 40 0, 28⟩, ⟨[], 68⟩, ⟨[], 68⟩]
      ∧ ∀ e ∈ countedSession 1 (.ofBytes unfinishedSample) [.prototype "", .prototype "", .byte],
          e.after.depth = 0 := by
  obtain ⟨hsession, horderly⟩ :=
    readSession_orderly 1 unfinishedSample [.prototype "", .prototype "", .byte]
  have hcursors : (readSession 1 (.ofBytes unfinishedSample) [.prototype "", .prototype "", .byte]).map
      cursorAfter = [⟨List.replicate 40 0, 28⟩, ⟨[], 68⟩, ⟨[], 68⟩] := by decide +kernel
  refine ⟨hcursors, ?_, fun e he => (horderly e he).depth_eq⟩
  rw [← hcursors, ← hsession, List.map_map]
  exact List.map_congr_left fun e _ => (DepthM.cursorAfter_uncounted e.outcome).symm

end LuaBytecode
