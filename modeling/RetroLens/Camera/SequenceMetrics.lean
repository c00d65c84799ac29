import Mathlib.Algebra.Group.Int.Defs
import Mathlib.Logic.Function.Basic
import RetroLens.Camera.PollFrames

/-!
# The sequence metrics

RetroLensActivity counts the frames that reach `onFrame`, and keeps the count
of releases that its frame source reports. Each change is passed to the native
probe, which draws BUFFER IMBALANCE where the two counts are not within one
frame of each other.

The UI thread makes a source, and on a pause takes it away and joins its worker
or quarantines the camera. A worker runs `pollFrames`; a callback runs in two
steps, its test of `resumed` and `frameSource` and the rest of it, with steps
of the UI thread between. A source is named by the number of its making.

A memory that never reached `onFrame` is counted when it is released, so the
counts can part without a leak. But for that, and short of 2^31 frames, the
alarm is sound (`alarm_sound`).
-/

namespace RetroLens.Camera.SequenceMetrics

open Runs
open PollFrames (DeviceMemory PollState toInt)

/-! ## The native side -/

def sequenceOff : Int := 0
def sequenceStarting : Int := 1
def sequenceActive : Int := 2
def sequenceError : Int := 3
def sequenceStopping : Int := 4

/-- The arguments of `updateSequenceMetrics`. -/
structure Update where
  state : Int
  receivedFrames : Int
  releasedFrames : Int
  lastJpegBytes : Int
  firstTimestampMs : Int
  lastTimestampMs : Int
  deriving DecidableEq, Repr

structure SequenceProbeMetrics where
  state : Int
  receivedFrames : Int
  releasedFrames : Int
  lastJpegBytes : Int
  fpsTenths : Int
  deriving DecidableEq, Repr

def atLeastZero (n : Int) : Int := if n < 0 then 0 else n

def calculateSequenceProbeMetrics (u : Update) : SequenceProbeMetrics :=
  let receivedFrames := atLeastZero u.receivedFrames
  let lastJpegBytes := atLeastZero u.lastJpegBytes
  { state := if sequenceOff ≤ u.state ∧ u.state ≤ sequenceStopping then u.state else sequenceError
    receivedFrames
    releasedFrames := atLeastZero u.releasedFrames
    lastJpegBytes := if lastJpegBytes > 256 * 1024 then 256 * 1024 else lastJpegBytes
    fpsTenths :=
      if receivedFrames > 1 ∧ u.firstTimestampMs > 0 ∧ u.lastTimestampMs > u.firstTimestampMs then
        let elapsedMs := u.lastTimestampMs - u.firstTimestampMs
        let fpsTenths := (receivedFrames - 1) * 10000 / elapsedMs
        if fpsTenths > 999 then 999 else fpsTenths
      else 0 }

/-- `renderDisplayProbe` draws BUFFER IMBALANCE. -/
def SequenceProbeMetrics.imbalance (m : SequenceProbeMetrics) : Bool :=
  let outstanding := m.receivedFrames - m.releasedFrames
  decide (outstanding < 0) || decide (outstanding > 1)

/-! ## The activity and its frame workers -/

inductive Callback where
  | onSequenceStarted
  | onFirstFrame (format : String) (length : Int)
  | onFrame (length timestampMs : Int)
  | onFrameReleased (releasedFrames : Int)
  | onSequenceUnavailable
  deriving DecidableEq, Repr

inductive Stage where
  /-- In `runWorker`, before the listener's first callback. -/
  | opening
  | polling (poll : PollState)
  | ended

structure Worker where
  stage : Stage := .ended
  /-- The callbacks of its last step that are still to run. -/
  callbacks : List Callback := []
  /-- The first of them has passed its test. -/
  entered : Bool := false
  /-- The memory in hand has reached `onFrame`. -/
  delivered : Bool := false

/-- The worker's thread is not alive. -/
def Worker.ended (w : Worker) : Bool :=
  w.callbacks.isEmpty &&
    match w.stage with
    | .opening => false
    | .polling p => p.phase == .returned || p.phase == .thrown
    | .ended => true

/-- Where the UI thread is in `onPause`. -/
inductive Ui where
  | idle
  /-- `resumed` is false, `frameSource` not yet taken. -/
  | pausing
  | joining (source : Nat)
  deriving DecidableEq, Repr

structure RetroLensActivity where
  resumed : Bool := false
  cameraQuarantined : Bool := false
  frameSource : Option Nat := none
  receivedFrames : Int := 0
  releasedFrames : Int := 0
  lastJpegBytes : Int := 0
  firstFrameTimestampMs : Int := 0
  lastFrameTimestampMs : Int := 0
  ui : Ui := .idle
  /-- The number of sources made. -/
  made : Nat := 0
  workers : Nat → Worker := fun _ => {}

/-- How `runWorker` gets to `pollFrames`, or ends before it. -/
inductive Opening where
  | threw
  | stopped
  | started (report : Bool) (workerStartMs : Int)

inductive Event where
  | onResume
  | startSequenceIfReady
  /-- `onPause` sets `resumed`; it takes `frameSource`; its joins are over. -/
  | onPause
  | stopSequence
  | joined
  | timedOut
  | opened (source : Nat) (opening : Opening)
  | poll (source : Nat) (e : PollFrames.Event)
  | callback (source : Nat)

inductive Act where
  /-- A call of `updateSequenceMetrics`, and the source that is current then. -/
  | update (current : Option Nat) (u : Update)
  | polled (source : Nat) (frames : List (Option DeviceMemory))
  /-- `delivered`: the memory has reached `onFrame`. -/
  | release (source : Nat) (memory : DeviceMemory) (delivered ok : Bool)
  deriving DecidableEq, Repr

/-- The callback that an action of `pollFrames` is. -/
def callbackOf : PollFrames.Act → Option Callback
  | .onFirstFrame format length => some (.onFirstFrame format length)
  | .onFrame length timestampMs => some (.onFrame length timestampMs)
  | .onFrameReleased releasedFrames => some (.onFrameReleased releasedFrames)
  | _ => none

def isFrame : PollFrames.Act → Bool
  | .onFrame .. => true
  | _ => false

def actOf (i : Nat) (delivered : Bool) : PollFrames.Act → Option Act
  | .polled frames => some (.polled i frames)
  | .release memory ok => some (.release i memory delivered ok)
  | _ => none

/-- The worker after a step of its loop. -/
def Worker.polled (p : PollState) (o : List PollFrames.Act) : Worker :=
  { stage := .polling p
    callbacks := o.filterMap callbackOf ++
      if p.phase = .thrown then [.onSequenceUnavailable] else []
    delivered := o.any isFrame }

namespace RetroLensActivity

/-- The source for which `isCurrentSource` holds. -/
def current (s : RetroLensActivity) : Option Nat := if s.resumed then s.frameSource else none

def updateSequenceMetrics (state : Int) (s : RetroLensActivity) : Act :=
  .update s.current
    { state
      receivedFrames := s.receivedFrames
      releasedFrames := s.releasedFrames
      lastJpegBytes := s.lastJpegBytes
      firstTimestampMs := s.firstFrameTimestampMs
      lastTimestampMs := s.lastFrameTimestampMs }

def resetSequenceMetrics (s : RetroLensActivity) : RetroLensActivity :=
  { s with
    receivedFrames := 0
    releasedFrames := 0
    lastJpegBytes := 0
    firstFrameTimestampMs := 0
    lastFrameTimestampMs := 0 }

def setWorker (i : Nat) (w : Worker) (s : RetroLensActivity) : RetroLensActivity :=
  { s with workers := Function.update s.workers i w }

/-- Reset the counts, and make a source and its worker. -/
def makeSource (s : RetroLensActivity) : RetroLensActivity :=
  { s.resetSequenceMetrics with frameSource := some s.made, made := s.made + 1 }.setWorker s.made
    { stage := .opening }

/-- The test a callback begins with. -/
def admits (source : Nat) (s : RetroLensActivity) : Callback → Bool
  | .onFrame .. => s.resumed && s.frameSource.isSome
  | _ => s.current == some source

/-- The rest of a callback. -/
def run (s : RetroLensActivity) : Callback → RetroLensActivity × List Act
  | .onSequenceStarted => (s, [s.updateSequenceMetrics sequenceActive])
  | .onFirstFrame .. => (s, [])
  | .onFrame length timestampMs =>
    let s := { s with
      receivedFrames := toInt (s.receivedFrames + 1)
      lastJpegBytes := length
      firstFrameTimestampMs :=
        if s.firstFrameTimestampMs = 0 then timestampMs else s.firstFrameTimestampMs
      lastFrameTimestampMs := timestampMs }
    (s, [s.updateSequenceMetrics sequenceActive])
  | .onFrameReleased totalReleasedFrames =>
    let s := { s with releasedFrames := totalReleasedFrames }
    (s, [s.updateSequenceMetrics sequenceActive])
  | .onSequenceUnavailable => (s, [s.updateSequenceMetrics sequenceError])

def callback (i : Nat) (s : RetroLensActivity) : Option (RetroLensActivity × List Act) :=
  let w := s.workers i
  match w.callbacks with
  | [] => none
  | c :: rest =>
    some <|
      if w.entered then (s.setWorker i { w with callbacks := rest, entered := false }).run c
      else if s.admits i c then (s.setWorker i { w with entered := true }, [])
      else (s.setWorker i { w with callbacks := rest }, [])

def opened (i : Nat) (opening : Opening) (s : RetroLensActivity) :
    Option (RetroLensActivity × List Act) :=
  match (s.workers i).stage, (s.workers i).callbacks with
  | .opening, [] =>
    some (s.setWorker i
      (match opening with
        | .threw => { callbacks := [.onSequenceUnavailable] }
        | .stopped => {}
        | .started report workerStartMs =>
          { stage := .polling (.begin workerStartMs)
            callbacks := if report then [.onSequenceStarted] else [] }), [])
  | _, _ => none

/-- A step of `pollFrames`; the activity is both the listener and the consumer. -/
def poll (i : Nat) (e : PollFrames.Event) (s : RetroLensActivity) :
    Option (RetroLensActivity × List Act) :=
  let w := s.workers i
  match w.stage with
  | .polling p =>
    if w.callbacks.isEmpty then
      match (PollFrames.pollFrames {}).step p e with
      | none => none
      | some (p', o) =>
        some (s.setWorker i (.polled p' o), o.filterMap (actOf i w.delivered))
    else none
  | _ => none

def step (s : RetroLensActivity) : Event → Option (RetroLensActivity × List Act)
  | .onResume =>
    if s.ui ≠ .idle ∨ s.resumed then none
    else if s.cameraQuarantined then some (s, [])
    else some ({ s.resetSequenceMetrics with resumed := true }, [])
  | .startSequenceIfReady =>
    if s.ui ≠ .idle ∨ !s.resumed ∨ s.frameSource.isSome then none
    else
      -- A source that has just been made has no thread yet, so its `start` succeeds.
      let s := s.makeSource
      some (s, [s.updateSequenceMetrics sequenceStarting])
  | .onPause =>
    if s.ui ≠ .idle then none else some ({ s with resumed := false, ui := .pausing }, [])
  | .stopSequence =>
    if s.ui ≠ .pausing then none
    else
      match s.frameSource with
      | none => some ({ s with ui := .idle }, [])
      | some i =>
        let s := { s with frameSource := none, ui := .joining i }
        some (s, [s.updateSequenceMetrics sequenceStopping])
  | .joined =>
    match s.ui with
    | .joining i => if (s.workers i).ended then some ({ s with ui := .idle }, []) else none
    | _ => none
  | .timedOut =>
    match s.ui with
    | .joining _ => some ({ s with cameraQuarantined := true, ui := .idle }, [])
    | _ => none
  | .opened i opening => s.opened i opening
  | .poll i e => s.poll i e
  | .callback i => s.callback i

end RetroLensActivity

def machine : Machine RetroLensActivity Event Act where
  step := RetroLensActivity.step

/-! ## What the alarm goes by -/

/-- The frames of a source that reached `onFrame` and could not be released. -/
def leaks (source : Nat) (l : List Act) : Nat :=
  l.countP fun
    | .release i _ true false => i == source
    | _ => false

/-- The last update that the probe was given. -/
def shown (l : List Act) : Option Update :=
  (l.filterMap fun
    | .update _ u => some u
    | _ => none).getLast?

/-- A memory of the current source that is released has reached `onFrame`, and fewer than 2^31
frames have. -/
def framesOnly : Guard RetroLensActivity Event Act := fun _ s e =>
  s.receivedFrames + 1 < 2 ^ 31 ∧
    match e with
    | .poll i (.release true) => s.current = some i → (s.workers i).delivered = true
    | _ => True

variable {s s' : RetroLensActivity} {e : Event} {es : List Event} {l o : List Act} {i k n : Nat}
  {w : Worker} {u : Update}

/-! ## The two counts -/

/-- The counts of received and released frames. -/
abbrev Counts := Int × Int

def RetroLensActivity.counts (s : RetroLensActivity) : Counts :=
  (s.receivedFrames, s.releasedFrames)

def Update.counts (u : Update) : Counts := (u.receivedFrames, u.releasedFrames)

/-- The counts are `n` or `n + 1` frames apart, and have not wrapped around. -/
structure Apart (n : Nat) (c : Counts) : Prop where
  nonneg : 0 ≤ c.2
  bound : c.1 < 2 ^ 31
  low : n ≤ c.1 - c.2
  high : c.1 - c.2 ≤ n + 1

/-- Where nothing has wrapped around, the probe compares the counts it is given. -/
theorem Apart.imbalance_iff (h : Apart n u.counts) :
    (calculateSequenceProbeMetrics u).imbalance = true ↔
      u.receivedFrames - u.releasedFrames < 0 ∨ 1 < u.receivedFrames - u.releasedFrames := by
  obtain ⟨h₁, -, h₃, -⟩ := h
  simp only [Update.counts] at h₁ h₃
  have hreceived : atLeastZero u.receivedFrames = u.receivedFrames := if_neg (by omega)
  have hreleased : atLeastZero u.releasedFrames = u.releasedFrames := if_neg (by omega)
  simp [SequenceProbeMetrics.imbalance, calculateSequenceProbeMetrics, hreceived, hreleased]

theorem Apart.balanced (h : Apart 0 u.counts) :
    0 ≤ u.receivedFrames - u.releasedFrames ∧ u.receivedFrames - u.releasedFrames ≤ 1 ∧
      (calculateSequenceProbeMetrics u).imbalance = false := by
  have hlow : (0 : Int) ≤ u.receivedFrames - u.releasedFrames := h.low
  have hhigh : u.receivedFrames - u.releasedFrames ≤ 0 + 1 := h.high
  refine ⟨hlow, hhigh, ?_⟩
  rw [← Bool.not_eq_true, h.imbalance_iff]
  omega

theorem Apart.alarms (h : Apart n u.counts) (hn : 2 ≤ n) :
    (calculateSequenceProbeMetrics u).imbalance = true := by
  have hlow : (n : Int) ≤ u.receivedFrames - u.releasedFrames := h.low
  rw [h.imbalance_iff]
  omega

/-- What a callback makes of the counts. -/
def Callback.counts : Callback → Counts → Counts
  | .onFrame .., c => (c.1 + 1, c.2)
  | .onFrameReleased n, c => (c.1, n)
  | _, c => c

/-- Run from the counts `c`, the callbacks keep them apart by `n`, and leave them with `freed`
frames released and `held` more in hand. -/
def Due (n : Nat) (freed held : Int) : List Callback → Counts → Prop
  | [], c => c.2 = freed ∧ c.1 = freed + n + held
  | callback :: rest, c =>
    Apart n (callback.counts c) ∧ Due n freed held rest (callback.counts c)

/-- The releases of the worker's loop. -/
def Worker.freed (w : Worker) : Int :=
  match w.stage with
  | .polling p => p.releasedFrames
  | _ => 0

/-- The frames that have reached `onFrame` and are not released yet. -/
def heldIn (delivered : Bool) : PollFrames.Phase → Int
  | .releasing .. => if delivered then 1 else 0
  | _ => 0

def Worker.held (w : Worker) : Int :=
  match w.stage with
  | .polling p => heldIn w.delivered p.phase
  | _ => 0

theorem heldIn_bounds (delivered : Bool) (phase : PollFrames.Phase) :
    0 ≤ heldIn delivered phase ∧ heldIn delivered phase ≤ 1 := by
  cases phase <;> cases delivered <;> simp [heldIn]

theorem heldIn_after (delivered : Bool) (rest : List (Option DeviceMemory)) :
    heldIn delivered (.after rest) = 0 := by
  cases rest <;> rfl

theorem heldIn_left (delivered threw : Bool) (rest : List (Option DeviceMemory)) :
    heldIn delivered (if threw then .thrown else .after rest) = 0 := by
  cases threw
  · exact heldIn_after delivered rest
  · rfl

theorem toInt_of_bounds {m : Int} (h₀ : 0 ≤ m) (h : m < 2 ^ 31) : toInt m = m :=
  Int.bmod_eq_of_le (by omega) (by omega)

/-! ## The log -/

@[simp] theorem leaks_append (l o : List Act) : leaks k (l ++ o) = leaks k l + leaks k o :=
  List.countP_append

theorem leaks_of_released (h : ∀ i memory delivered, Act.release i memory delivered false ∉ l) :
    leaks k l = 0 := by
  refine List.countP_eq_zero.2 fun a ha => ?_
  split
  · exact absurd ha (h _ _ _)
  · simp

@[simp] theorem shown_update (current : Option Nat) (u : Update) :
    shown (l ++ [.update current u]) = some u := by
  simp [shown]

theorem shown_quiet (h : ∀ current u, Act.update current u ∉ o) : shown (l ++ o) = shown l := by
  have : (o.filterMap fun | .update _ u => some u | _ => none) = [] := by
    refine List.filterMap_eq_nil_iff.2 fun a ha => ?_
    split
    · exact absurd ha (h _ _)
    · rfl
  simp [shown, this]

/-! ## The threads -/

structure Threads (s : RetroLensActivity) : Prop where
  running : s.resumed = true → s.ui = .idle ∧ s.cameraQuarantined = false
  source : s.frameSource ≠ none → s.resumed = true ∨ s.ui = .pausing
  /-- But for a quarantined camera, only the current source's worker lives, or the one joined. -/
  alive : s.cameraQuarantined = false → ∀ j, (s.workers j).ended = false →
    s.frameSource = some j ∨ s.ui = .joining j

/-- A step of the worker `i`, to `w`. -/
structure Moves (i : Nat) (w : Worker) (s s' : RetroLensActivity) : Prop where
  resumed : s'.resumed = s.resumed
  cameraQuarantined : s'.cameraQuarantined = s.cameraQuarantined
  frameSource : s'.frameSource = s.frameSource
  ui : s'.ui = s.ui
  made : s'.made = s.made
  workers : s'.workers = Function.update s.workers i w

theorem Moves.setWorker (i : Nat) (w : Worker) (s : RetroLensActivity) :
    Moves i w s (s.setWorker i w) :=
  ⟨rfl, rfl, rfl, rfl, rfl, rfl⟩

theorem Moves.run (h : Moves i w s s') (c : Callback) : Moves i w s (s'.run c).1 := by
  obtain ⟨h₁, h₂, h₃, h₄, h₅, h₆⟩ := h
  cases c <;> exact ⟨h₁, h₂, h₃, h₄, h₅, h₆⟩

theorem Moves.current (h : Moves i w s s') : s'.current = s.current := by
  simp only [RetroLensActivity.current, h.resumed, h.frameSource]

theorem Moves.worker (h : Moves i w s s') : s'.workers i = w := by
  rw [h.workers, Function.update_self]

theorem Moves.other (h : Moves i w s s') {j : Nat} (hj : j ≠ i) :
    s'.workers j = s.workers j := by
  rw [h.workers, Function.update_of_ne hj]

theorem Threads.moves (h : Threads s) (hm : Moves i w s s')
    (hi : (s.workers i).ended = false) : Threads s' where
  running := by rw [hm.resumed, hm.ui, hm.cameraQuarantined]; exact h.running
  source := by rw [hm.frameSource, hm.resumed, hm.ui]; exact h.source
  alive := by
    rw [hm.cameraQuarantined, hm.frameSource, hm.ui]
    intro hq j hj
    by_cases hji : j = i
    · subst hji
      exact h.alive hq j hi
    · rw [hm.other hji] at hj
      exact h.alive hq j hj

/-- The worker that takes a step is the current source's. -/
theorem Threads.current_eq (h : Threads s) (hi : (s.workers i).ended = false)
    (hk : s.current = some k) : i = k := by
  have hres : s.resumed = true ∧ s.frameSource = some k := by
    simpa [RetroLensActivity.current] using hk
  obtain ⟨hidle, hq⟩ := h.running hres.1
  rcases h.alive hq i hi with hs | hs
  · exact Option.some.inj (hs.symm.trans hres.2)
  · rw [hidle] at hs; cases hs

/-! ## The invariant -/

/-- The counts of the current source `k` are in step. -/
structure Counted (l : List Act) (s : RetroLensActivity) (k : Nat) : Prop where
  shown : ∃ u, shown l = some u ∧ u.counts = s.counts
  apart : Apart (leaks k l) s.counts
  due : Due (leaks k l) (s.workers k).freed (s.workers k).held (s.workers k).callbacks s.counts

/-- While every release succeeds, the updates of a current source are of counts in step. -/
def Told (l : List Act) : Prop :=
  (∀ i memory delivered, Act.release i memory delivered false ∉ l) →
    ∀ k u, Act.update (some k) u ∈ l → Apart 0 u.counts

structure Inv (l : List Act) (s : RetroLensActivity) : Prop where
  threads : Threads s
  unmade : ∀ j, s.made ≤ j → (s.workers j).ended = true ∧ leaks j l = 0
  counted : ∀ k, s.current = some k → Counted l s k
  told : Told l

theorem Told.append (h : Told l)
    (ho : ∀ k u, Act.update (some k) u ∈ o → Apart (leaks k l) u.counts) : Told (l ++ o) := by
  intro hall k u hu
  have hl : ∀ i memory delivered, Act.release i memory delivered false ∉ l :=
    fun i memory delivered hmem => hall i memory delivered (List.mem_append_left _ hmem)
  rcases List.mem_append.1 hu with hu | hu
  · exact h hl k u hu
  · have hap := ho k u hu
    rwa [leaks_of_released hl] at hap

/-- A step of the worker `i` keeps the invariant if it keeps the counts of `i` in step. -/
theorem Inv.moves (h : Inv l s) (hm : Moves i w s s') (hi : (s.workers i).ended = false)
    (ho : ∀ j, j ≠ i → leaks j o = 0) (hc : s.current = some i → Counted (l ++ o) s' i)
    (ht : ∀ k u, Act.update (some k) u ∈ o → Apart (leaks k l) u.counts) : Inv (l ++ o) s' where
  threads := h.threads.moves hm hi
  unmade := by
    intro j hj
    rw [hm.made] at hj
    obtain ⟨hend, hleaks⟩ := h.unmade j hj
    have hji : j ≠ i := by
      rintro rfl
      rw [hi] at hend
      cases hend
    rw [hm.other hji, leaks_append, hleaks, ho j hji]
    exact ⟨hend, rfl⟩
  counted := by
    intro k hk
    rw [hm.current] at hk
    obtain rfl := h.threads.current_eq hi hk
    exact hc hk
  told := h.told.append ht

/-! ## What a step of pollFrames does to the counts -/

/-- The callbacks of a `try` block: at most one of each kind, the frame's last. -/
theorem process_shape (source : PollFrames.Source) (firstFrameReported : Bool)
    (memory : DeviceMemory) (calls : PollFrames.FrameCalls) :
    let acts := (source.process firstFrameReported memory calls).acts
    acts = [] ∨ (∃ f n, acts = [.onFirstFrame f n]) ∨ (∃ n t, acts = [.onFrame n t]) ∨
      ∃ f n m t, acts = [.onFirstFrame f n, .onFrame m t] := by
  unfold PollFrames.Source.process PollFrames.Source.report
  grind

/-- The callback that a throw out of the loop adds leaves the counts as they are. -/
theorem due_thrown {freed held : Int} {c : Counts} (thrown : Prop) [Decidable thrown]
    (hap : Apart n c) (hend : c.2 = freed ∧ c.1 = freed + n + held) :
    Due n freed held (if thrown then [.onSequenceUnavailable] else []) c := by
  split
  · exact ⟨hap, hend⟩
  · exact hend

/-- A frame's callbacks count it if it is delivered, and it is then in hand. -/
theorem due_process {freed : Int} {c : Counts} (source : PollFrames.Source)
    (firstFrameReported : Bool) (memory : DeviceMemory) (calls : PollFrames.FrameCalls)
    (hap : Apart n c) (hb : c.1 + 1 < 2 ^ 31) (hend : c.2 = freed ∧ c.1 = freed + n) :
    let acts := (source.process firstFrameReported memory calls).acts
    Due n freed (if acts.any isFrame then 1 else 0) (acts.filterMap callbackOf) c := by
  intro acts
  obtain ⟨hend₂, hend₁⟩ := hend
  have hcounted : Apart n (c.1 + 1, c.2) := by
    refine ⟨hap.nonneg, hb, ?_, ?_⟩ <;> dsimp only <;> omega
  have hend' : c.1 + 1 = freed + n + 1 := by omega
  rcases process_shape source firstFrameReported memory calls with
    h | ⟨f, m, h⟩ | ⟨m, t, h⟩ | ⟨f, m, m', t, h⟩ <;> simp only [acts, h]
  · exact ⟨hend₂, by simpa using hend₁⟩
  · exact ⟨hap, hend₂, by simpa [isFrame, Callback.counts] using hend₁⟩
  · exact ⟨hcounted, hend₂, hend'⟩
  · exact ⟨hap, hcounted, hend₂, hend'⟩

theorem leaks_actOf (hi : k ≠ i) (delivered : Bool) (o : List PollFrames.Act) :
    leaks k (o.filterMap (actOf i delivered)) = 0 := by
  refine List.countP_eq_zero.2 fun a ha => ?_
  obtain ⟨b, -, hb⟩ := List.mem_filterMap.1 ha
  cases b <;> simp only [actOf, Option.some.injEq, reduceCtorEq] at hb
  · subst hb; simp
  · subst hb
    split
    · rename_i heq
      cases heq
      simpa using fun h => hi h.symm
    · simp

theorem update_actOf (delivered : Bool) (o : List PollFrames.Act) (current : Option Nat)
    (u : Update) : Act.update current u ∉ o.filterMap (actOf i delivered) := by
  intro hmem
  obtain ⟨b, -, hb⟩ := List.mem_filterMap.1 hmem
  cases b <;> simp [actOf] at hb

theorem poll_counted {p p' : PollState} {pe : PollFrames.Event} {po : List PollFrames.Act}
    (h : Counted l s i) (hw : (s.workers i).stage = .polling p)
    (hcb : (s.workers i).callbacks = []) (hb : s.receivedFrames + 1 < 2 ^ 31)
    (hg : pe = .release true → (s.workers i).delivered = true)
    (hp : PollFrames.Step {} p pe p' po) :
    Counted (l ++ po.filterMap (actOf i (s.workers i).delivered))
      (s.setWorker i (.polled p' po)) i := by
  have hcounts : (s.setWorker i (.polled p' po)).counts = s.counts := rfl
  have hworker : (s.setWorker i (.polled p' po)).workers i = .polled p' po :=
    (Moves.setWorker i _ s).worker
  obtain ⟨hend₂, hend₁⟩ : Due _ _ _ [] s.counts := hcb ▸ h.due
  have hfreed : (s.workers i).freed = p.releasedFrames := by simp [Worker.freed, hw]
  have hheld : (s.workers i).held = heldIn (s.workers i).delivered p.phase := by
    simp [Worker.held, hw]
  rw [hfreed] at hend₁ hend₂
  rw [hheld] at hend₁
  obtain ⟨hnonneg, -, -, -⟩ := h.apart
  have hshown : ∃ u, shown (l ++ po.filterMap (actOf i (s.workers i).delivered)) = some u ∧
      u.counts = s.counts := by
    rw [shown_quiet fun current u => update_actOf _ po current u]
    exact h.shown
  suffices hs : Apart (leaks i (l ++ po.filterMap (actOf i (s.workers i).delivered))) s.counts ∧
      Due (leaks i (l ++ po.filterMap (actOf i (s.workers i).delivered))) p'.releasedFrames
        (heldIn (po.any isFrame) p'.phase) (Worker.polled p' po).callbacks s.counts by
    refine ⟨hshown, hs.1, ?_⟩
    rw [hworker]
    exact hs.2
  cases hp with
  | idle hhead hp' hrel ho =>
    have hin : heldIn (po.any isFrame) p'.phase = 0 := by
      rcases hp' with hp' | hp' | hp' <;> rw [hp'] <;> rfl
    have hno : leaks i (po.filterMap (actOf i (s.workers i).delivered)) = 0 ∧
        po.filterMap callbackOf = [] := by
      rcases ho with rfl | rfl <;> exact ⟨rfl, rfl⟩
    rw [leaks_append, hno.1, hin, hrel, Worker.polled, hno.2]
    rw [hhead] at hend₁
    exact ⟨h.apart, due_thrown _ h.apart ⟨hend₂, hend₁⟩⟩
  | polled _ frames hhead =>
    rw [hhead] at hend₁
    rw [leaks_append]
    exact ⟨h.apart, hend₂, hend₁⟩
  | skipped rest hphase =>
    rw [hphase] at hend₁
    rw [leaks_append]
    refine ⟨h.apart, due_thrown _ h.apart ⟨hend₂, ?_⟩⟩
    rw [List.any_nil, heldIn_after]
    exact hend₁
  | @processed calls memory rest hphase =>
    rw [hphase] at hend₁
    have hno : ∀ delivered, (PollFrames.Source.process {} p.firstFrameReported memory
        calls).acts.filterMap (actOf i delivered) = [] := by
      intro delivered
      refine List.filterMap_eq_nil_iff.2 fun a ha => ?_
      rcases PollFrames.process_acts _ _ _ a ha with ⟨_, _, rfl⟩ | ⟨_, _, rfl⟩ <;> rfl
    rw [hno, List.append_nil]
    refine ⟨h.apart, ?_⟩
    have hdue := due_process {} p.firstFrameReported memory calls h.apart hb
      ⟨hend₂, by simpa [heldIn] using hend₁⟩
    simpa [Worker.polled, heldIn] using hdue
  | released memory rest threw hphase =>
    have hno : ∀ delivered m, leaks i (List.filterMap (actOf i delivered)
        [.release memory true, .onFrameReleased m]) = 0 := by
      intro delivered m
      cases delivered <;> rfl
    rw [hphase, hg rfl] at hend₁
    have hend : s.counts.1 = p.releasedFrames + leaks i l + 1 := hend₁
    have hbound := h.apart.bound
    have hto : toInt (p.releasedFrames + 1) = p.releasedFrames + 1 :=
      toInt_of_bounds (by omega) (by omega)
    dsimp only [if_true]
    rw [if_pos rfl, leaks_append, hno, hto]
    have hap : Apart (leaks i l) (s.counts.1, p.releasedFrames + 1) := by
      refine ⟨?_, hbound, ?_, ?_⟩ <;> dsimp only <;> omega
    refine ⟨h.apart, hap, due_thrown _ hap ⟨rfl, ?_⟩⟩
    change s.counts.1 = p.releasedFrames + 1 + leaks i l + heldIn false _
    rw [heldIn_left]
    omega
  | kept memory rest threw hphase =>
    have hleak : (leaks i (List.filterMap (actOf i (s.workers i).delivered)
        [.release memory false]) : Int) = heldIn (s.workers i).delivered p.phase := by
      rw [hphase]
      cases (s.workers i).delivered <;> simp [leaks, actOf, heldIn]
    have hin' := heldIn_bounds (s.workers i).delivered p.phase
    have hbound := h.apart.bound
    rw [leaks_append]
    have hap : Apart (leaks i l + leaks i (List.filterMap (actOf i (s.workers i).delivered)
        [.release memory false])) s.counts := by
      refine ⟨hnonneg, hbound, ?_, ?_⟩ <;> omega
    refine ⟨hap, due_thrown _ hap ⟨hend₂, ?_⟩⟩
    change s.counts.1 = p.releasedFrames + _ + heldIn false _
    rw [heldIn_left]
    omega

/-! ## Every step keeps the invariant -/

theorem ended_of_polling {p p' : PollState} {pe : PollFrames.Event} {po : List PollFrames.Act}
    (hw : (s.workers i).stage = .polling p) (hp : PollFrames.Step {} p pe p' po) :
    (s.workers i).ended = false := by
  have hend := hp.not_ended
  simp only [PollState.Ended, not_or] at hend
  simp [Worker.ended, hw, hend.1, hend.2]

theorem poll_inv {pe : PollFrames.Event} (h : Inv l s) (hg : framesOnly l s (.poll i pe))
    (hs : s.poll i pe = some (s', o)) : Inv (l ++ o) s' := by
  unfold RetroLensActivity.poll at hs
  dsimp only at hs
  split at hs
  · rename_i p hstage
    split at hs
    · rename_i hcb
      split at hs
      · cases hs
      · rename_i p' po hp
        obtain ⟨rfl, rfl⟩ := Prod.mk.inj (Option.some.inj hs)
        have hp := PollFrames.step_cases hp
        refine h.moves (.setWorker i _ s) (ended_of_polling hstage hp)
          (fun j hj => leaks_actOf hj _ po) (fun hk => ?_)
          (fun k u hu => absurd hu (update_actOf _ po _ u))
        refine poll_counted (h.counted i hk) hstage (List.isEmpty_iff.1 hcb) hg.1 ?_ hp
        rintro rfl
        exact hg.2 hk
    · cases hs
  · cases hs

theorem opened_inv {opening : Opening} (h : Inv l s) (hs : s.opened i opening = some (s', o)) :
    Inv (l ++ o) s' := by
  unfold RetroLensActivity.opened at hs
  split at hs
  · rename_i hstage hcb
    obtain ⟨rfl, rfl⟩ := Prod.mk.inj (Option.some.inj hs)
    refine h.moves (.setWorker i _ s) (by simp [Worker.ended, hstage]) (fun _ _ => rfl)
      (fun hk => ?_) (by simp)
    obtain ⟨hshown, hap, hdue⟩ := h.counted i hk
    obtain ⟨hend₂, hend₁⟩ : Due _ _ _ [] s.counts := hcb ▸ hdue
    have hzero : (s.workers i).freed = 0 ∧ (s.workers i).held = 0 := by
      simp [Worker.freed, Worker.held, hstage]
    rw [hzero.1] at hend₂
    rw [hzero.1, hzero.2] at hend₁
    rw [List.append_nil]
    refine ⟨hshown, hap, ?_⟩
    rw [(Moves.setWorker i _ s).worker]
    cases opening with
    | threw => exact ⟨hap, hend₂, hend₁⟩
    | stopped => exact ⟨hend₂, hend₁⟩
    | started report workerStartMs =>
      cases report
      · exact ⟨hend₂, hend₁⟩
      · exact ⟨hap, hend₂, hend₁⟩
  · cases hs

/-- The tests of the current source's callbacks succeed. -/
theorem admits_of_current (hk : s.current = some i) (c : Callback) : s.admits i c = true := by
  have hres : s.resumed = true ∧ s.frameSource = some i := by
    simpa [RetroLensActivity.current] using hk
  cases c <;> simp [RetroLensActivity.admits, hk, hres.1, hres.2]

theorem run_counts (c : Callback) (h : Apart n (c.counts s.counts)) :
    (s.run c).1.counts = c.counts s.counts := by
  obtain ⟨h₁, h₂, h₃, -⟩ := h
  cases c with
  | onFrame length timestampMs =>
    have hto : toInt (s.receivedFrames + 1) = s.receivedFrames + 1 := by
      simp only [Callback.counts, RetroLensActivity.counts] at h₁ h₂ h₃
      exact toInt_of_bounds (by omega) h₂
    simp [RetroLensActivity.run, RetroLensActivity.counts, Callback.counts, hto]
  | _ => rfl

/-- A callback gives the probe the counts it leaves, or leaves the counts alone. -/
theorem run_acts (c : Callback) :
    ((s.run c).2 = [] ∧ (s.run c).1 = s) ∨
      ∃ state, (s.run c).2 = [(s.run c).1.updateSequenceMetrics state] := by
  cases c with
  | onFirstFrame => exact .inl ⟨rfl, rfl⟩
  | _ => exact .inr ⟨_, rfl⟩

theorem run_counted {c : Callback} {rest : List Callback} (h : Counted l s i)
    (hcb : (s.workers i).callbacks = c :: rest)
    (hw : w.stage = (s.workers i).stage ∧ w.delivered = (s.workers i).delivered ∧
      w.callbacks = rest) :
    Counted (l ++ ((s.setWorker i w).run c).2) ((s.setWorker i w).run c).1 i := by
  have hm := (Moves.setWorker i w s).run c
  obtain ⟨hshown, hap, hdue⟩ := h
  obtain ⟨hap', hdue'⟩ : Apart _ _ ∧ Due _ _ _ rest _ := hcb ▸ hdue
  have hcounts : ((s.setWorker i w).run c).1.counts = c.counts s.counts := run_counts c hap'
  have hworker : w.freed = (s.workers i).freed ∧ w.held = (s.workers i).held := by
    simp [Worker.freed, Worker.held, hw.1, hw.2.1]
  have hleaks : leaks i ((s.setWorker i w).run c).2 = 0 := by
    rcases run_acts (s := s.setWorker i w) c with ⟨ho, -⟩ | ⟨state, ho⟩ <;> rw [ho] <;> rfl
  refine ⟨?_, ?_, ?_⟩
  · rcases run_acts (s := s.setWorker i w) c with ⟨ho, hs'⟩ | ⟨state, ho⟩
    · rw [ho, hs', List.append_nil]
      exact hshown
    · rw [ho]
      exact ⟨_, shown_update _ _, rfl⟩
  · rw [leaks_append, hleaks, hcounts]
    exact hap'
  · rw [leaks_append, hleaks, hcounts, hm.worker, hworker.1, hworker.2, hw.2.2]
    exact hdue'

theorem ended_of_callbacks {c : Callback} {rest : List Callback}
    (hcb : (s.workers i).callbacks = c :: rest) : (s.workers i).ended = false := by
  simp [Worker.ended, hcb]

theorem run_inv {c : Callback} {rest : List Callback} (h : Inv l s)
    (hcb : (s.workers i).callbacks = c :: rest)
    (hw : w.stage = (s.workers i).stage ∧ w.delivered = (s.workers i).delivered ∧
      w.callbacks = rest) :
    Inv (l ++ ((s.setWorker i w).run c).2) ((s.setWorker i w).run c).1 := by
  have hm := (Moves.setWorker i w s).run c
  have hi := ended_of_callbacks hcb
  have ho := run_acts (s := s.setWorker i w) c
  refine h.moves hm hi ?_ (fun hk => run_counted (h.counted i hk) hcb hw) ?_
  · intro j _
    rcases ho with ⟨ho, -⟩ | ⟨state, ho⟩ <;> rw [ho] <;> rfl
  · intro k u hu
    rcases ho with ⟨ho, -⟩ | ⟨state, ho⟩
    · simp [ho] at hu
    · simp only [ho, RetroLensActivity.updateSequenceMetrics, List.mem_singleton,
        Act.update.injEq] at hu
      obtain ⟨hk, rfl⟩ := hu
      rw [hm.current] at hk
      obtain rfl := h.threads.current_eq hi hk.symm
      have hcounted := run_counted (h.counted i hk.symm) hcb hw
      have hleaks : leaks i ((s.setWorker i w).run c).2 = 0 := by rw [ho]; rfl
      have hap := hcounted.apart
      rwa [leaks_append, hleaks] at hap

theorem callback_inv (h : Inv l s) (hs : s.callback i = some (s', o)) : Inv (l ++ o) s' := by
  unfold RetroLensActivity.callback at hs
  dsimp only at hs
  split at hs
  · cases hs
  · rename_i c rest hcb
    have hquiet : ∀ w, (s.current = some i → Counted l (s.setWorker i w) i) →
        Inv (l ++ []) (s.setWorker i w) := fun w hw =>
      h.moves (.setWorker i w s) (ended_of_callbacks hcb) (fun _ _ => rfl) (by simpa using hw)
        (by simp)
    have hs := Option.some.inj hs
    split at hs
    · obtain rfl : _ = s' := congrArg Prod.fst hs
      obtain rfl : _ = o := congrArg Prod.snd hs
      exact run_inv h hcb ⟨rfl, rfl, rfl⟩
    · split at hs
      · obtain ⟨rfl, rfl⟩ := Prod.mk.inj hs
        refine hquiet _ fun hk => ?_
        obtain ⟨hshown, hap, hdue⟩ := h.counted i hk
        refine ⟨hshown, hap, ?_⟩
        rw [(Moves.setWorker i _ s).worker]
        exact hdue
      · rename_i hno
        obtain ⟨rfl, rfl⟩ := Prod.mk.inj hs
        exact hquiet _ fun hk => absurd (admits_of_current hk c) hno

/-- A step of the UI thread that leaves no source current. -/
theorem Inv.uncurrent (h : Inv l s) (ht : Threads s') (hk : s'.current = none)
    (hw : s'.workers = s.workers) (hm : s'.made = s.made)
    (ho : ∀ a ∈ o, ∃ u, a = .update none u) : Inv (l ++ o) s' := by
  have hleaks : ∀ j, leaks j o = 0 := by
    intro j
    refine List.countP_eq_zero.2 fun a ha => ?_
    obtain ⟨u, rfl⟩ := ho a ha
    simp
  refine ⟨ht, ?_, by simp [hk], h.told.append ?_⟩
  · intro j hj
    rw [hw, leaks_append, hleaks]
    exact h.unmade j (hm ▸ hj)
  · intro k u hu
    obtain ⟨u', hu'⟩ := ho _ hu
    cases hu'

/-- While the UI thread is neither resumed nor about to take it, there is no source. -/
theorem Threads.no_source (h : Threads s) (hres : s.resumed = false) (hui : s.ui ≠ .pausing) :
    s.frameSource = none := by
  by_contra hsome
  rcases h.source hsome with hr | hp
  · rw [hres] at hr; cases hr
  · exact hui hp

theorem Threads.not_resumed (h : Threads s) (hui : s.ui ≠ .idle) : s.resumed = false := by
  by_contra hres
  exact hui (h.running (by simpa using hres)).1

theorem resume_inv (h : Inv l s) (hs : s.step .onResume = some (s', o)) : Inv (l ++ o) s' := by
  simp only [RetroLensActivity.step] at hs
  split at hs
  · cases hs
  · rename_i hno
    obtain ⟨hidle, hres⟩ : s.ui = .idle ∧ s.resumed = false := by simpa using hno
    split at hs
    · cases hs
      rwa [List.append_nil]
    · rename_i hq
      cases hs
      have hsource := h.threads.no_source hres (by simp [hidle])
      refine h.uncurrent ⟨fun _ => ⟨hidle, Bool.not_eq_true _ ▸ hq⟩, fun _ => .inl rfl, ?_⟩ ?_
        rfl rfl (by simp)
      · exact h.threads.alive
      · simpa [RetroLensActivity.current, RetroLensActivity.resetSequenceMetrics] using hsource

theorem makeSource_other {j : Nat} (hj : j ≠ s.made) : s.makeSource.workers j = s.workers j :=
  Function.update_of_ne hj _ _

theorem makeSource_worker (s : RetroLensActivity) :
    s.makeSource.workers s.made = { stage := .opening } :=
  Function.update_self ..

theorem makeSource_current (hres : s.resumed = true) : s.makeSource.current = some s.made :=
  if_pos hres

theorem start_inv (h : Inv l s) (hs : s.step .startSequenceIfReady = some (s', o)) :
    Inv (l ++ o) s' := by
  simp only [RetroLensActivity.step] at hs
  split at hs
  · cases hs
  · rename_i hno
    obtain ⟨hidle, hres, hsource⟩ : s.ui = .idle ∧ s.resumed = true ∧ s.frameSource = none := by
      simpa using hno
    cases hs
    have hq := (h.threads.running hres).2
    have hdead : ∀ j, (s.workers j).ended = true := by
      intro j
      by_contra hj
      rcases h.threads.alive hq j (by simpa using hj) with hs | hs
      · rw [hsource] at hs; cases hs
      · rw [hidle] at hs; cases hs
    have hleaks : leaks s.made l = 0 := (h.unmade s.made (Nat.le_refl _)).2
    have hzero : Apart 0 s.makeSource.counts := by
      have hcounts : s.makeSource.counts = (0, 0) := rfl
      rw [hcounts]
      exact ⟨by decide, by decide, by decide, by decide⟩
    refine ⟨⟨fun _ => ⟨hidle, hq⟩, fun _ => .inl hres, fun _ j hj => ?_⟩, fun j hj => ?_,
      fun k hk => ?_, h.told.append fun k u hu => ?_⟩
    · by_cases hjm : j = s.made
      · exact .inl (congrArg some hjm.symm)
      · rw [makeSource_other hjm, hdead j] at hj
        cases hj
    · have hjm : s.made + 1 ≤ j := hj
      rw [makeSource_other (by omega), leaks_append, (h.unmade j (by omega)).2]
      exact ⟨hdead j, rfl⟩
    · rw [makeSource_current hres] at hk
      obtain rfl := Option.some.inj hk
      refine ⟨⟨_, shown_update _ _, rfl⟩, ?_, ?_⟩
      · rw [leaks_append, hleaks]
        exact hzero
      · rw [leaks_append, hleaks, makeSource_worker]
        exact ⟨rfl, rfl⟩
    · simp only [RetroLensActivity.updateSequenceMetrics, List.mem_singleton,
        Act.update.injEq] at hu
      obtain ⟨hk, rfl⟩ := hu
      rw [makeSource_current hres] at hk
      obtain rfl := Option.some.inj hk
      rw [hleaks]
      exact hzero

theorem pause_inv (h : Inv l s) (hs : s.step .onPause = some (s', o)) : Inv (l ++ o) s' := by
  simp only [RetroLensActivity.step] at hs
  split at hs
  · cases hs
  · rename_i hno
    have hidle : s.ui = .idle := by simpa using hno
    cases hs
    refine h.uncurrent ⟨by simp, fun _ => .inr rfl, fun hq j hj => ?_⟩ ?_ rfl rfl (by simp)
    · rcases h.threads.alive hq j hj with hs | hs
      · exact .inl hs
      · rw [hidle] at hs; cases hs
    · simp [RetroLensActivity.current]

theorem stop_inv (h : Inv l s) (hs : s.step .stopSequence = some (s', o)) : Inv (l ++ o) s' := by
  simp only [RetroLensActivity.step] at hs
  split at hs
  · cases hs
  · rename_i hno
    have hui : s.ui = .pausing := by simpa using hno
    have hres := h.threads.not_resumed (by simp [hui])
    have halive : s.cameraQuarantined = false → ∀ j, (s.workers j).ended = false →
        s.frameSource = some j := by
      intro hq j hj
      rcases h.threads.alive hq j hj with hs | hs
      · exact hs
      · rw [hui] at hs; cases hs
    split at hs
    · rename_i hsource
      cases hs
      refine h.uncurrent ⟨by simp [hres], by simp [hsource], fun hq j hj => ?_⟩ ?_ rfl rfl
        (by simp)
      · exact .inl (halive hq j hj)
      · simp [RetroLensActivity.current, hsource]
    · rename_i i hsource
      cases hs
      refine h.uncurrent ⟨by simp [hres], by simp, fun hq j hj => ?_⟩ ?_ rfl rfl ?_
      · have hij := halive hq j hj
        rw [hsource] at hij
        obtain rfl := Option.some.inj hij
        exact .inr rfl
      · simp [RetroLensActivity.current]
      · simp [RetroLensActivity.updateSequenceMetrics, RetroLensActivity.current]

theorem joined_inv (h : Inv l s) (hs : s.step .joined = some (s', o)) : Inv (l ++ o) s' := by
  simp only [RetroLensActivity.step] at hs
  split at hs
  · rename_i i hui
    split at hs
    · rename_i hend
      cases hs
      have hres := h.threads.not_resumed (by simp [hui])
      have hsource := h.threads.no_source hres (by simp [hui])
      refine h.uncurrent ⟨by simp [hres], by simp [hsource], fun hq j hj => ?_⟩ ?_ rfl rfl
        (by simp)
      · rcases h.threads.alive hq j hj with hs | hs
        · rw [hsource] at hs; cases hs
        · rw [hui] at hs
          obtain rfl := Ui.joining.inj hs
          rw [hend] at hj
          cases hj
      · simp [RetroLensActivity.current, hres]
    · cases hs
  · cases hs

theorem timedOut_inv (h : Inv l s) (hs : s.step .timedOut = some (s', o)) : Inv (l ++ o) s' := by
  simp only [RetroLensActivity.step] at hs
  split at hs
  · rename_i i hui
    cases hs
    have hres := h.threads.not_resumed (by simp [hui])
    have hsource := h.threads.no_source hres (by simp [hui])
    refine h.uncurrent ⟨by simp [hres], by simp [hsource], by simp⟩ ?_ rfl rfl (by simp)
    simp [RetroLensActivity.current, hres]
  · cases hs

theorem inv_step (h : Inv l s) (hg : framesOnly l s e) (hs : machine.step s e = some (s', o)) :
    Inv (l ++ o) s' := by
  have hs : s.step e = some (s', o) := hs
  cases e with
  | onResume => exact resume_inv h hs
  | startSequenceIfReady => exact start_inv h hs
  | onPause => exact pause_inv h hs
  | stopSequence => exact stop_inv h hs
  | joined => exact joined_inv h hs
  | timedOut => exact timedOut_inv h hs
  | opened i opening => exact opened_inv h hs
  | poll i pe => exact poll_inv h hg hs
  | callback i => exact callback_inv h hs

theorem reach_inv (h : Reach machine framesOnly {} es l s) : Inv l s := by
  have hinit : Inv [] {} :=
    { threads := ⟨by simp, by simp, fun _ j hj => by cases hj⟩
      unmade := fun _ _ => ⟨rfl, rfl⟩
      counted := fun k hk => by cases hk
      told := fun _ k u hu => by simp at hu }
  exact h.inv (I := Inv) hinit fun _ _ _ _ _ hi hg hs => inv_step hi hg hs

/-- **The alarm is sound.** -/
theorem alarm_sound (h : Reach machine framesOnly {} es l s) :
    ((∀ i memory delivered, Act.release i memory delivered false ∉ l) →
      ∀ k u, Act.update (some k) u ∈ l →
        0 ≤ u.receivedFrames - u.releasedFrames ∧ u.receivedFrames - u.releasedFrames ≤ 1 ∧
          (calculateSequenceProbeMetrics u).imbalance = false) ∧
    ∀ k, s.current = some k → 2 ≤ leaks k l →
      ∃ u, shown l = some u ∧ (calculateSequenceProbeMetrics u).imbalance = true := by
  have hinv := reach_inv h
  constructor
  · intro hall k u hu
    exact (hinv.told hall k u hu).balanced
  · intro k hk hn
    obtain ⟨⟨u, hu, hcounts⟩, hap, -⟩ := hinv.counted k hk
    rw [← hcounts] at hap
    exact ⟨u, hu, hap.alarms hn⟩

/-! ## Two sessions -/

/-- A buffer that holds a JPEG of four bytes. -/
def smallJpeg : Nat → UInt8
  | 0 => 0xff
  | 1 => 0xd8
  | 2 => 0xff
  | _ => 0xd9

/-- A poll of the source 0 that returns one memory, and its processing. -/
def pollOne (memory : DeviceMemory) : List Event :=
  [.poll 0 (.poll { nowMs := 0, wokenMs := 0, polledMs := 0, frames := .array [some memory] }),
   .poll 0 (.frame { getSize := some 4, read := some (4, smallJpeg), timestampMs := 100 })]

/-- The next callback of the source 0. -/
def runCallback : List Event := [.callback 0, .callback 0]

/-- Up to the polling. -/
def startUp : List Event :=
  [.onResume, .startSequenceIfReady, .opened 0 (.started true 0)] ++ runCallback

/-- A frame that is released, and two that are not. -/
def leakTwo : List Event :=
  startUp ++ pollOne ⟨1, true⟩ ++ runCallback ++ runCallback ++
    [.poll 0 (.release true)] ++ runCallback ++
    pollOne ⟨2, true⟩ ++ runCallback ++ [.poll 0 (.release false)] ++
    pollOne ⟨3, true⟩ ++ runCallback ++ [.poll 0 (.release false)]

/-- `framesOnly`, decided. -/
def framesOnlyEvent (_ : List Act) (s : RetroLensActivity) (e : Event) : Bool :=
  decide (s.receivedFrames + 1 < 2 ^ 31) &&
    match e with
    | .poll i (.release true) => s.current != some i || (s.workers i).delivered
    | _ => true

theorem framesOnlyEvent_guard (l : List Act) (s : RetroLensActivity) (e : Event)
    (h : framesOnlyEvent l s e = true) : framesOnly l s e := by
  obtain ⟨hb, hg⟩ := Bool.and_eq_true_iff.1 h
  refine ⟨of_decide_eq_true hb, ?_⟩
  split at hg
  · intro hk
    simpa [hk] using hg
  · trivial

theorem alarm_sound_session : ∃ l s, Reach machine framesOnly {} leakTwo l s ∧
    s.current = some 0 ∧
    ∃ u, shown l = some u ∧ (calculateSequenceProbeMetrics u).imbalance = true := by
  obtain ⟨l, s, h, hp⟩ := reach_of_execIf (M := machine) (s := {}) leakTwo
    (p := fun r => r.1.current == some 0 && 2 ≤ leaks 0 r.2) framesOnlyEvent_guard
    (by decide +kernel)
  obtain ⟨hk, hn⟩ := Bool.and_eq_true_iff.1 hp
  have hk : s.current = some 0 := by simpa using hk
  exact ⟨l, s, h, hk, (alarm_sound h).2 0 hk (of_decide_eq_true hn)⟩

/-- A memory that is not a `DeviceBuffer`, released. -/
def foreignMemory : List Event :=
  startUp ++ pollOne ⟨1, false⟩ ++ [.poll 0 (.release true)] ++ runCallback

def foreignMemoryLog : List Act :=
  [.update (some 0) ⟨sequenceStarting, 0, 0, 0, 0, 0⟩,
   .update (some 0) ⟨sequenceActive, 0, 0, 0, 0, 0⟩,
   .polled 0 [some ⟨1, false⟩],
   .release 0 ⟨1, false⟩ false true,
   .update (some 0) ⟨sequenceActive, 0, 1, 0, 0, 0⟩]

/-- One memory is polled and released, and the alarm goes off. -/
theorem foreign_memory_alarms : ∃ l s, Run machine {} foreignMemory l s ∧
    (∀ i memory delivered, Act.release i memory delivered false ∉ l) ∧
    (∀ i frames, Act.polled i frames ∈ l → frames.length ≤ 1) ∧
    ∃ u, Act.update (some 0) u ∈ l ∧ u.receivedFrames - u.releasedFrames = -1 ∧
      (calculateSequenceProbeMetrics u).imbalance = true := by
  obtain ⟨l, s, hrun, hl⟩ := run_of_exec (M := machine) (s := {}) foreignMemory
    (p := fun r => r.2 == foreignMemoryLog) (by decide +kernel)
  obtain rfl : l = foreignMemoryLog := by simpa using hl
  refine ⟨_, s, hrun, by simp [foreignMemoryLog], by simp [foreignMemoryLog],
    ⟨sequenceActive, 0, 1, 0, 0, 0⟩, by simp [foreignMemoryLog], rfl, rfl⟩

end RetroLens.Camera.SequenceMetrics
