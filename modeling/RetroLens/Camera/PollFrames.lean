import Mathlib.Algebra.Group.Nat.Defs
import RetroLens.Lib.Runs

/-!
# pollFrames

The polling loop of the frame worker, one call of the outside world at a time:
a poll, the processing of one element of the array it returned, the release in
that element's `finally` block. What Sony's classes, the listener and the
consumer return or throw is the event's; what the loop does with it is the
step's.

A throw out of an element's `try` block leaves the loop over the array too, so
the elements after it are never reached. But for that, every `DeviceMemory` is
released once (`released_once_iff`).

The counts of frames and bytes are only logged, and are left out.
-/

namespace RetroLens.Camera.PollFrames

open Runs

structure DeviceMemory where
  id : Nat
  /-- It is a `DeviceBuffer`. -/
  deviceBuffer : Bool
  deriving DecidableEq, Repr

/-- A Java `int`. -/
def toInt (n : Int) : Int := n.bmod (2 ^ 32)

def pollIntervalMs : Int := 90
def firstFrameTimeoutMs : Int := 5000
/-- The capacity of the frame buffer. -/
def maxJpegSize : Int := 256 * 1024

/-- The end of the last marker `ff d9` at or below index `n + 1`, down to index 2. -/
def lastEnd (buffer : Nat → UInt8) : Nat → Int
  | 0 => -1
  | n + 1 => if buffer (n + 2) = 0xff ∧ buffer (n + 3) = 0xd9 then n + 4 else lastEnd buffer n

def findJpegLength (buffer : Nat → UInt8) (frameSize : Int) : Int :=
  if frameSize < 4 ∨ buffer 0 ≠ 0xff ∨ buffer 1 ≠ 0xd8 then -1
  else lastEnd buffer (frameSize.toNat - 3)

/-- What the calls made for one element return; `none` and `false` stand for a throw. -/
structure FrameCalls where
  getSize : Option Int
  /-- The result of `read`, and the buffer after it. -/
  read : Option (Int × (Nat → UInt8))
  timestampMs : Int := 0
  onFirstFrame : Bool := true
  onFrame : Bool := true

/-- What `getPreviewSequenceFrames` does. -/
inductive Frames where
  | throws
  | null
  | array (frames : List (Option DeviceMemory))

/-- One round of the loop, up to the frames it has polled. -/
structure Poll where
  /-- `stopping`, at the head of the loop. -/
  stopping : Bool := false
  nowMs : Int
  /-- The sleep is interrupted, and `stopping` is then read so. -/
  interrupted : Option Bool := none
  wokenMs : Int
  frames : Frames
  polledMs : Int

inductive Event where
  | poll (p : Poll)
  | frame (calls : FrameCalls)
  /-- The `finally` block; what the listener throws in it is caught. -/
  | release (ok : Bool)

inductive Act where
  | polled (frames : List (Option DeviceMemory))
  | onFirstFrame (format : String) (length : Int)
  | onFrame (length timestampMs : Int)
  | release (memory : DeviceMemory) (ok : Bool)
  | onFrameReleased (releasedFrames : Int)
  deriving DecidableEq, Repr

inductive Phase where
  /-- At the head of the loop. -/
  | head
  /-- At an element of the array, with the rest of it. -/
  | frames (rest : List (Option DeviceMemory))
  /-- In the `finally` block of an element whose `try` block threw, or not. -/
  | releasing (memory : DeviceMemory) (rest : List (Option DeviceMemory)) (threw : Bool)
  | returned
  | thrown
  deriving DecidableEq, Repr

/-- At the next element of the array, or done with it. -/
def Phase.after : List (Option DeviceMemory) → Phase
  | [] => .head
  | rest => .frames rest

structure PollState where
  workerStartMs : Int
  nextPollMs : Int
  firstFrameReported : Bool := false
  releasedFrames : Int := 0
  phase : Phase := .head

def PollState.begin (workerStartMs : Int) : PollState :=
  { workerStartMs, nextPollMs := workerStartMs }

/-- The listener and the consumer are set. -/
structure Source where
  listener : Bool := true
  consumer : Bool := true

/-- How the `try` block of an element ends. -/
structure Body where
  threw : Bool
  firstFrameReported : Bool
  acts : List Act

namespace Source

/-- The callbacks of a frame that holds a JPEG of this length. -/
def report (source : Source) (firstFrameReported : Bool) (calls : FrameCalls) (length : Int) :
    Body :=
  let first := if !firstFrameReported && source.listener then [.onFirstFrame "JPEG" length] else []
  if !first.isEmpty && !calls.onFirstFrame then ⟨true, true, first⟩
  else if source.consumer then
    ⟨!calls.onFrame, true, first ++ [.onFrame length calls.timestampMs]⟩
  else ⟨false, true, first⟩

/-- The `try` block. -/
def process (source : Source) (firstFrameReported : Bool) (memory : DeviceMemory)
    (calls : FrameCalls) : Body :=
  if !memory.deviceBuffer then ⟨false, firstFrameReported, []⟩
  else
    match calls.getSize with
    | none => ⟨true, firstFrameReported, []⟩
    | some frameSize =>
      if frameSize ≤ 0 ∨ frameSize > maxJpegSize then ⟨true, firstFrameReported, []⟩
      else
        match calls.read with
        | none => ⟨true, firstFrameReported, []⟩
        | some (readResult, buffer) =>
          if readResult < 0 then ⟨true, firstFrameReported, []⟩
          else
            let jpegLength := findJpegLength buffer frameSize
            if jpegLength ≤ 0 then ⟨true, firstFrameReported, []⟩
            else source.report firstFrameReported calls jpegLength

end Source

namespace PollState

/-- The poll returned no frame. -/
def noFrames (p : Poll) (s : PollState) : PollState :=
  if !s.firstFrameReported && firstFrameTimeoutMs ≤ p.polledMs - s.workerStartMs then
    { s with phase := .thrown }
  else s

def poll (p : Poll) (s : PollState) : PollState × List Act :=
  if p.stopping then ({ s with phase := .returned }, [])
  else
    match if 0 < s.nextPollMs - p.nowMs then p.interrupted else none with
    | some stopping => ({ s with phase := if stopping then .returned else .thrown }, [])
    | none =>
      let s := { s with nextPollMs := p.wokenMs + pollIntervalMs }
      match p.frames with
      | .throws => ({ s with phase := .thrown }, [])
      | .null => (s.noFrames p, [])
      | .array [] => (s.noFrames p, [.polled []])
      | .array frames => ({ s with phase := .frames frames }, [.polled frames])

def step (source : Source) (s : PollState) : Event → Option (PollState × List Act)
  | .poll p =>
    match s.phase with
    | .head => some (s.poll p)
    | _ => none
  | .frame calls =>
    match s.phase with
    -- A null element is only logged, and its `finally` block does nothing.
    | .frames (none :: rest) => some ({ s with phase := .after rest }, [])
    | .frames (some memory :: rest) =>
      let b := source.process s.firstFrameReported memory calls
      some ({ s with
        firstFrameReported := b.firstFrameReported
        phase := .releasing memory rest b.threw }, b.acts)
    | _ => none
  | .release ok =>
    match s.phase with
    | .releasing memory rest threw =>
      let phase := if threw then .thrown else .after rest
      if ok then
        let releasedFrames := toInt (s.releasedFrames + 1)
        some ({ s with phase, releasedFrames },
          .release memory true ::
            if source.listener then [.onFrameReleased releasedFrames] else [])
      else some ({ s with phase }, [.release memory false])
    | _ => none

end PollState

def pollFrames (source : Source) : Machine PollState Event Act where
  step := PollState.step source

/-! ## The memories of a log -/

/-- Every non-null `DeviceMemory` returned to the loop, in order. -/
def returnedMemories (l : List Act) : List DeviceMemory :=
  l.flatMap fun
    | .polled frames => frames.filterMap id
    | _ => []

/-- Every `DeviceMemory` that `release` was called on, in order. -/
def releasedMemories (l : List Act) : List DeviceMemory :=
  l.filterMap fun
    | .release memory _ => some memory
    | _ => none

/-- The memories the loop still has to release. -/
def Phase.inHand : Phase → List DeviceMemory
  | .frames rest => rest.filterMap id
  | .releasing memory rest _ => memory :: rest.filterMap id
  | _ => []

/-- The loop is over. -/
def PollState.Ended (s : PollState) : Prop := s.phase = .returned ∨ s.phase = .thrown

/-- An element that throws has only null elements after it. -/
def throwsLast : Guard PollState Event Act := fun _ s e =>
  match s.phase, e with
  | .releasing _ rest true, .release _ => ∀ memory ∈ rest, memory = none
  | _, _ => True

variable {source : Source} {s s' : PollState} {e : Event} {es : List Event} {l o : List Act}
  {startMs : Int}

/-! ## What a step does -/

inductive Step (source : Source) (s : PollState) : Event → PollState → List Act → Prop where
  /-- Back at the head of the loop, or out of it, with no frame. -/
  | idle {p : Poll} {s' : PollState} {o : List Act} : s.phase = .head →
      s'.phase = .head ∨ s'.Ended → s'.releasedFrames = s.releasedFrames →
      o = [] ∨ o = [.polled []] → Step source s (.poll p) s' o
  | polled {p : Poll} (nextPollMs : Int) (frames : List (Option DeviceMemory)) :
      s.phase = .head →
      Step source s (.poll p) { s with nextPollMs, phase := .frames frames } [.polled frames]
  | skipped {calls : FrameCalls} (rest : List (Option DeviceMemory)) :
      s.phase = .frames (none :: rest) →
      Step source s (.frame calls) { s with phase := .after rest } []
  | processed {calls : FrameCalls} (memory : DeviceMemory) (rest : List (Option DeviceMemory)) :
      s.phase = .frames (some memory :: rest) →
      Step source s (.frame calls)
        { s with
          firstFrameReported :=
            (source.process s.firstFrameReported memory calls).firstFrameReported
          phase :=
            .releasing memory rest (source.process s.firstFrameReported memory calls).threw }
        (source.process s.firstFrameReported memory calls).acts
  | released (memory : DeviceMemory) (rest : List (Option DeviceMemory)) (threw : Bool) :
      s.phase = .releasing memory rest threw →
      Step source s (.release true)
        { s with
          phase := if threw then .thrown else .after rest
          releasedFrames := toInt (s.releasedFrames + 1) }
        (.release memory true ::
          if source.listener then [.onFrameReleased (toInt (s.releasedFrames + 1))] else [])
  | kept (memory : DeviceMemory) (rest : List (Option DeviceMemory)) (threw : Bool) :
      s.phase = .releasing memory rest threw →
      Step source s (.release false) { s with phase := if threw then .thrown else .after rest }
        [.release memory false]

theorem noFrames_phase (p : Poll) (h : s.phase = .head) :
    ((s.noFrames p).phase = .head ∨ (s.noFrames p).Ended) ∧
      (s.noFrames p).releasedFrames = s.releasedFrames := by
  unfold PollState.noFrames
  split
  · exact ⟨.inr (.inr rfl), rfl⟩
  · exact ⟨.inl h, rfl⟩

theorem poll_step (p : Poll) (h : s.phase = .head) :
    Step source s (.poll p) (s.poll p).1 (s.poll p).2 := by
  unfold PollState.poll
  split
  · exact .idle h (.inr (.inl rfl)) rfl (.inl rfl)
  · split
    · rename_i stopping _
      refine .idle h (.inr ?_) rfl (.inl rfl)
      cases stopping
      · exact .inr rfl
      · exact .inl rfl
    · have hidle := noFrames_phase (s := { s with nextPollMs := p.wokenMs + pollIntervalMs }) p h
      dsimp only
      split
      · exact .idle h (.inr (.inr rfl)) rfl (.inl rfl)
      · exact .idle h hidle.1 hidle.2 (.inl rfl)
      · exact .idle h hidle.1 hidle.2 (.inr rfl)
      · exact .polled _ _ h

theorem step_cases (h : (pollFrames source).step s e = some (s', o)) : Step source s e s' o := by
  change s.step source e = _ at h
  unfold PollState.step at h
  cases e with
  | poll p =>
    dsimp only at h
    split at h
    · rename_i hhead
      obtain ⟨rfl, rfl⟩ := Prod.mk.inj (Option.some.inj h)
      exact poll_step p hhead
    · cases h
  | frame calls =>
    dsimp only at h
    split at h
    · rename_i rest hphase
      cases h
      exact .skipped rest hphase
    · rename_i memory rest hphase
      cases h
      exact .processed memory rest hphase
    · cases h
  | release ok =>
    dsimp only at h
    split at h
    · rename_i memory rest threw hphase
      cases ok
      · cases h
        exact .kept memory rest threw hphase
      · cases h
        exact .released memory rest threw hphase
    · cases h

/-- The `try` block reaches no further than the two callbacks. -/
theorem process_acts (firstFrameReported : Bool) (memory : DeviceMemory) (calls : FrameCalls) :
    ∀ a ∈ (source.process firstFrameReported memory calls).acts,
      (∃ format length, a = .onFirstFrame format length) ∨
        ∃ length timestampMs, a = .onFrame length timestampMs := by
  unfold Source.process Source.report
  grind

/-- **An ended loop takes no further step.** -/
theorem Step.not_ended (h : Step source s e s' o) : ¬ s.Ended := by
  unfold PollState.Ended
  cases h <;> simp_all

/-! ## Every memory is released once -/

@[simp] theorem returnedMemories_append (l o : List Act) :
    returnedMemories (l ++ o) = returnedMemories l ++ returnedMemories o :=
  List.flatMap_append

@[simp] theorem releasedMemories_append (l o : List Act) :
    releasedMemories (l ++ o) = releasedMemories l ++ releasedMemories o :=
  List.filterMap_append

@[simp] theorem inHand_head : Phase.head.inHand = [] := rfl

@[simp] theorem inHand_frames (rest : List (Option DeviceMemory)) :
    (Phase.frames rest).inHand = rest.filterMap id := rfl

@[simp] theorem inHand_releasing (memory : DeviceMemory) (rest : List (Option DeviceMemory))
    (threw : Bool) :
    (Phase.releasing memory rest threw).inHand = memory :: rest.filterMap id := rfl

@[simp] theorem inHand_after (rest : List (Option DeviceMemory)) :
    (Phase.after rest).inHand = rest.filterMap id := by
  cases rest <;> rfl

theorem PollState.Ended.inHand (h : s.Ended) : s.phase.inHand = [] := by
  rcases h with h | h <;> rw [h] <;> rfl

theorem process_memories (firstFrameReported : Bool) (memory : DeviceMemory)
    (calls : FrameCalls) :
    returnedMemories (source.process firstFrameReported memory calls).acts = [] ∧
      releasedMemories (source.process firstFrameReported memory calls).acts = [] := by
  constructor
  · refine List.flatMap_eq_nil_iff.2 fun a ha => ?_
    rcases process_acts _ _ _ a ha with ⟨_, _, rfl⟩ | ⟨_, _, rfl⟩ <;> rfl
  · refine List.filterMap_eq_nil_iff.2 fun a ha => ?_
    rcases process_acts _ _ _ a ha with ⟨_, _, rfl⟩ | ⟨_, _, rfl⟩ <;> rfl

theorem release_memories (memory : DeviceMemory) (releasedFrames : Int) (listener : Bool) :
    let o := Act.release memory true :: if listener then [.onFrameReleased releasedFrames] else []
    returnedMemories o = [] ∧ releasedMemories o = [memory] := by
  cases listener <;> exact ⟨rfl, rfl⟩

/-- The memories returned are those released and those in hand. -/
def Accounted (l : List Act) (s : PollState) : Prop :=
  returnedMemories l = releasedMemories l ++ s.phase.inHand

/-- Leaving the `finally` block loses no memory if a throw has none after it. -/
theorem inHand_left {memory : DeviceMemory} {rest : List (Option DeviceMemory)} {threw ok : Bool}
    (hg : throwsLast l s (.release ok)) (hphase : s.phase = .releasing memory rest threw) :
    (if threw then Phase.thrown else Phase.after rest).inHand = rest.filterMap id := by
  cases threw with
  | false => simp
  | true =>
    simp only [throwsLast, hphase] at hg
    exact (List.filterMap_eq_nil_iff.2 hg).symm

theorem accounted_step (h : Accounted l s) (hg : throwsLast l s e)
    (hs : Step source s e s' o) : Accounted (l ++ o) s' := by
  unfold Accounted at h ⊢
  rw [returnedMemories_append, releasedMemories_append, h]
  cases hs with
  | idle hhead hs' _ ho =>
    have hin : s'.phase.inHand = [] := by
      rcases hs' with hs' | hs'
      · rw [hs']; rfl
      · exact hs'.inHand
    have hno : returnedMemories o = [] ∧ releasedMemories o = [] := by
      rcases ho with rfl | rfl <;> exact ⟨rfl, rfl⟩
    simp [hin, hno, hhead]
  | polled _ frames hhead =>
    simp [hhead, returnedMemories, releasedMemories]
  | skipped rest hphase =>
    simp [hphase, returnedMemories, releasedMemories]
  | processed memory rest hphase =>
    simp [process_memories, hphase]
  | released memory rest threw hphase =>
    have ho := release_memories memory (toInt (s.releasedFrames + 1)) source.listener
    rw [ho.1, ho.2, inHand_left hg hphase]
    simp [hphase]
  | kept memory rest threw hphase =>
    dsimp only
    rw [inHand_left hg hphase]
    simp [hphase, returnedMemories, releasedMemories]

theorem reach_accounted (h : Reach (pollFrames source) throwsLast (.begin startMs) es l s) :
    Accounted l s :=
  h.inv (I := Accounted) (by unfold Accounted; rfl)
    fun _ _ _ _ _ hi hg hs => accounted_step hi hg (step_cases hs)

/-- A throw that leaves every memory released had none after it. -/
theorem throwsLast_of_released (h : Accounted l s) (hs : Step source s e s' o)
    (ha : s'.Ended → releasedMemories (l ++ o) = returnedMemories (l ++ o)) :
    throwsLast l s e := by
  have hrest : ∀ memory rest, s.phase = .releasing memory rest true → s'.Ended →
      releasedMemories o = [memory] → returnedMemories o = [] → ∀ m ∈ rest, m = none := by
    intro memory rest hphase hend hrel hret
    have hall := ha hend
    rw [releasedMemories_append, returnedMemories_append, h, hrel, hret, hphase] at hall
    exact List.filterMap_eq_nil_iff.1 (by simpa using hall.symm)
  cases hs with
  | idle hhead => simp [throwsLast, hhead]
  | polled _ _ hhead => simp [throwsLast, hhead]
  | skipped rest hphase => simp [throwsLast, hphase]
  | processed memory rest hphase => simp [throwsLast, hphase]
  | released memory rest threw hphase =>
    cases threw with
    | false => simp [throwsLast, hphase]
    | true =>
      have ho := release_memories memory (toInt (s.releasedFrames + 1)) source.listener
      simpa only [throwsLast, hphase] using hrest _ _ hphase (.inr rfl) ho.2 ho.1
  | kept memory rest threw hphase =>
    cases threw with
    | false => simp [throwsLast, hphase]
    | true => simpa only [throwsLast, hphase] using hrest _ _ hphase (.inr rfl) rfl rfl

/-- **Every memory is released once, if throws come last.** In the runs whose elements throw
only with null elements after them, and in no others, the memories returned to the loop are
released, each once and in order, by the time it ends. -/
theorem released_once_iff :
    Reach (pollFrames source) throwsLast (.begin startMs) es l s ↔
      Run (pollFrames source) (.begin startMs) es l s ∧
        (s.Ended → releasedMemories l = returnedMemories l) := by
  constructor
  · intro h
    refine ⟨h.run, fun hend => ?_⟩
    have hacc := reach_accounted h
    rw [Accounted, hend.inHand, List.append_nil] at hacc
    exact hacc.symm
  · rintro ⟨h, ha⟩
    induction h with
    | init => exact .init
    | step h _ hs ih =>
      have hcase := step_cases hs
      have hreach := ih fun hend => absurd hend hcase.not_ended
      exact .step hreach (throwsLast_of_released (reach_accounted hreach) hcase ha) hs

/-- A poll that returns two frames; `getSize` of the first is 0. -/
def twoFrames : List Event :=
  [.poll { nowMs := 0, wokenMs := 0, polledMs := 0
           frames := .array [some ⟨1, true⟩, some ⟨2, true⟩] },
   .frame { getSize := some 0, read := none },
   .release true]

/-- The loop ends with the second of them never released. -/
theorem second_kept : ∃ l s, Run (pollFrames {}) (.begin 0) twoFrames l s ∧ s.Ended ∧
    (⟨2, true⟩ : DeviceMemory) ∈ returnedMemories l ∧
    (⟨2, true⟩ : DeviceMemory) ∉ releasedMemories l := by
  refine ⟨_, _, run_of_exec_eq rfl, .inr rfl, ?_, ?_⟩
  · decide
  · decide

end RetroLens.Camera.PollFrames
