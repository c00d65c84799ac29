import RetroLens.Lib.Runs

/-!
# CameraSequenceFrameSource: the calls on a sequence

The frame worker opens a `CameraSequence`, starts it, polls it, and releases
it in its `finally` block; the UI thread may ask for it to be stopped at any
time. Each `synchronized (sequenceLock)` section is one step, and each Sony
call two, its begin and its return, with steps of the other thread between
them. A call, and whatever else the worker does in its `try` block, may throw.

A sequence is named by the number of its opening. `sequence` and
`sequenceStarted` are read together, under the lock, by `requestSequenceStop`
and by `release`.
-/

namespace RetroLens.Camera.Sequence

open Runs

/-- The methods of a `CameraSequence`. -/
inductive Method where
  | startPreviewSequence
  | getPreviewSequenceFrames
  | stopPreviewSequence
  | release
  deriving DecidableEq, Repr

/-- Where the worker is in `runWorker`. -/
inductive FrameWorker where
  /-- Not begun, or ended. -/
  | ended
  /-- At the allocation of the frame buffer. -/
  | allocating
  /-- At the first test of `stopping`. -/
  | allocated
  /-- In `CameraSequence.open`. -/
  | opening
  /-- At the section that stores the sequence. -/
  | opened (sequence : Nat)
  /-- At the second test of `stopping`. -/
  | stored (sequence : Nat)
  /-- At the third, with the options set. -/
  | configured (sequence : Nat)
  /-- At `startPreviewSequence`, and in it. -/
  | toStart (sequence : Nat)
  | starting (sequence : Nat)
  /-- At the section that sets `sequenceStarted`. -/
  | started (sequence : Nat)
  /-- At the listener's call. -/
  | reporting (sequence : Nat)
  /-- At the test of `stopping` that leads into `pollFrames`, or at its loop's. -/
  | active (sequence : Nat)
  /-- Asleep until the next poll. -/
  | sleeping (sequence : Nat)
  /-- In `getPreviewSequenceFrames`. -/
  | polling (sequence : Nat)
  /-- With the frames of a poll. -/
  | reading (sequence : Nat)
  /-- At the section of `release`, in the `finally` block. -/
  | finishing
  /-- With what the section read. -/
  | taken (sequence : Nat) (stopFirst : Bool)
  /-- In `stopPreviewSequence`, called by `release`. -/
  | stopping (sequence : Nat)
  | toRelease (sequence : Nat)
  /-- In the sequence's `release`. -/
  | releasing (sequence : Nat)
  deriving DecidableEq, Repr

/-- What the UI thread does with the source. -/
inductive UiThread where
  | idle
  /-- `requestSequenceStop` has found this sequence started. -/
  | requesting (sequence : Nat)
  /-- In its `stopPreviewSequence`. -/
  | stopping (sequence : Nat)
  /-- At the section that clears the flag. -/
  | clearing (sequence : Nat)
  /-- In the join of `stopAndJoin`. -/
  | joining
  deriving DecidableEq, Repr

structure CameraSequenceFrameSource where
  stopping : Bool := false
  /-- `workerThread` is set. -/
  workerThread : Bool := false
  sequence : Option Nat := none
  sequenceStarted : Bool := false
  worker : FrameWorker := .ended
  ui : UiThread := .idle
  /-- The number of sequences opened so far. -/
  opened : Nat := 0
  deriving DecidableEq, Repr

inductive Event where
  /-- The worker goes on: its statement succeeds, its call returns. -/
  | go
  /-- What the worker is at, or its call, throws. -/
  | throws
  | start
  /-- The first section of `requestSequenceStop`. -/
  | requestSequenceStop
  /-- It calls `stopPreviewSequence`, which returns or throws. -/
  | callStop
  | stopReturns (ok : Bool)
  /-- Its second section. -/
  | clear
  /-- `stopAndJoin`, up to the join. -/
  | stopAndJoin
  /-- The join is over: the worker has ended, or the time is up. -/
  | joined
  deriving DecidableEq, Repr

inductive Act where
  | opened (sequence : Nat)
  /-- A method is called. -/
  | begun (sequence : Nat) (method : Method)
  /-- It returns, or throws. -/
  | returned (sequence : Nat) (method : Method) (ok : Bool)
  deriving DecidableEq, Repr

namespace CameraSequenceFrameSource

/-- A step of the worker's `try` block, or one that the block ends with. -/
def workerGo (s : CameraSequenceFrameSource) : Option (CameraSequenceFrameSource × List Act) :=
  match s.worker with
  | .ended => none
  | .allocating => some ({ s with worker := .allocated }, [])
  | .allocated => some ({ s with worker := if s.stopping then .ended else .opening }, [])
  | .opening =>
    some ({ s with worker := .opened s.opened, opened := s.opened + 1 }, [.opened s.opened])
  | .opened q => some ({ s with worker := .stored q, sequence := some q }, [])
  | .stored q => some ({ s with worker := if s.stopping then .finishing else .configured q }, [])
  | .configured q => some ({ s with worker := if s.stopping then .finishing else .toStart q }, [])
  | .toStart q => some ({ s with worker := .starting q }, [.begun q .startPreviewSequence])
  | .starting q => some ({ s with worker := .started q }, [.returned q .startPreviewSequence true])
  | .started q =>
    some ({ s with
      worker := .reporting q
      sequenceStarted := if s.sequence = some q then true else s.sequenceStarted }, [])
  | .reporting q => some ({ s with worker := .active q }, [])
  | .active q => some ({ s with worker := if s.stopping then .finishing else .sleeping q }, [])
  | .sleeping q => some ({ s with worker := .polling q }, [.begun q .getPreviewSequenceFrames])
  | .polling q =>
    some ({ s with worker := .reading q }, [.returned q .getPreviewSequenceFrames true])
  | .reading q => some ({ s with worker := .active q }, [])
  | .finishing =>
    some ({ s with
      worker := match s.sequence with
        | none => .ended
        | some q => .taken q s.sequenceStarted
      sequence := none
      sequenceStarted := false }, [])
  | .taken q true => some ({ s with worker := .stopping q }, [.begun q .stopPreviewSequence])
  | .taken q false => some ({ s with worker := .toRelease q }, [])
  | .stopping q => some ({ s with worker := .toRelease q }, [.returned q .stopPreviewSequence true])
  | .toRelease q => some ({ s with worker := .releasing q }, [.begun q .release])
  | .releasing q => some ({ s with worker := .ended }, [.returned q .release true])

/-- What throws in the `try` block leads to the `finally` block; what throws in `release` is
caught there, call by call. -/
def workerThrows (s : CameraSequenceFrameSource) : Option (CameraSequenceFrameSource × List Act) :=
  match s.worker with
  | .allocating => some ({ s with worker := .ended }, [])
  | .opening | .stored _ | .configured _ | .reporting _ | .sleeping _ | .reading _ =>
    some ({ s with worker := .finishing }, [])
  | .starting q => some ({ s with worker := .finishing }, [.returned q .startPreviewSequence false])
  | .polling q =>
    some ({ s with worker := .finishing }, [.returned q .getPreviewSequenceFrames false])
  | .stopping q =>
    some ({ s with worker := .toRelease q }, [.returned q .stopPreviewSequence false])
  | .releasing q => some ({ s with worker := .ended }, [.returned q .release false])
  | _ => none

/-- The calls of the UI thread, one at a time. -/
def uiStep (e : Event) (s : CameraSequenceFrameSource) :
    Option (CameraSequenceFrameSource × List Act) :=
  match e, s.ui with
  | .start, .idle =>
    if s.workerThread then some (s, [])
    else some ({ s with stopping := false, workerThread := true, worker := .allocating }, [])
  | .requestSequenceStop, .idle =>
    match s.sequence, s.sequenceStarted with
    | some q, true => some ({ s with ui := .requesting q }, [])
    | _, _ => some (s, [])
  | .callStop, .requesting q => some ({ s with ui := .stopping q }, [.begun q .stopPreviewSequence])
  | .stopReturns ok, .stopping q =>
    some ({ s with ui := if ok then .clearing q else .idle },
      [.returned q .stopPreviewSequence ok])
  | .clear, .clearing q =>
    some ({ s with
      ui := .idle
      sequenceStarted := if s.sequence = some q then false else s.sequenceStarted }, [])
  | .stopAndJoin, .idle =>
    some ({ s with stopping := true, ui := if s.workerThread then .joining else .idle }, [])
  | .joined, .joining =>
    some ({ s with
      ui := .idle
      workerThread := if s.worker = .ended then false else s.workerThread }, [])
  | _, _ => none

def step (s : CameraSequenceFrameSource) :
    Event → Option (CameraSequenceFrameSource × List Act)
  | .go => workerGo s
  | .throws => workerThrows s
  | e => uiStep e s

end CameraSequenceFrameSource

def frameSource : Machine CameraSequenceFrameSource Event Act where
  step := CameraSequenceFrameSource.step

end RetroLens.Camera.Sequence
