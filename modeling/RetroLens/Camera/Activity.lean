import RetroLens.Camera.Controller
import RetroLens.Lib.Runs

/-!
# RetroLensActivity: resume, pause and the frame worker

The activity's lifecycle callbacks over `SonyCameraController`, the start and
stop of the native runtime, and the `CameraSequenceFrameSource` objects it
makes. A source is seen here as its thread: the `CameraEx` it was started on,
whether `workerThread` is set, and whether the thread is alive. A thread ends
at any time (`workerEnds`), or not; the outcomes of the two bounded joins of
`stopSequence` are the arguments of `onPause`.

The events are the callbacks of the UI thread that reach this state. A
camera-ready callback is the last thing a controller method does, so each
event that can report the camera ready also says whether the native runtime
then starts (`probeOk`).
-/

namespace RetroLens.Camera

structure FrameSource where
  camera : CameraEx
  workerThread : Bool := true
  alive : Bool := true
  deriving DecidableEq, Repr

/-- `ended`: the thread has ended by the time the join returns. -/
def FrameSource.stopAndJoin (ended : Bool) (s : FrameSource) : FrameSource × Bool :=
  if !s.workerThread then (s, true)
  else if s.alive && !ended then (s, false)
  else ({ s with workerThread := false, alive := false }, true)

structure Activity where
  controller : SonyCameraController := {}
  /-- `active` of NativeDisplayProbeController. -/
  probeActive : Bool := false
  resumed : Bool := false
  nativeRuntimeReady : Bool := false
  cameraQuarantined : Bool := false
  readyCamera : Option CameraEx := none
  /-- Every source made so far; `frameSource` is the index of the current one. -/
  sources : List FrameSource := []
  frameSource : Option Nat := none
  opened : Nat := 0
  deriving DecidableEq, Repr

/-- A Sony call, and the cameras a frame worker was alive on when it was made. -/
structure Act where
  call : SonyCall
  workers : List CameraEx
  deriving DecidableEq, Repr

/-- `CameraEx.release()` reached beneath a live frame worker. -/
def Act.UnderWorker (x : Act) : Prop := ∃ camera, x.call = .release camera ∧ camera ∈ x.workers

namespace Activity

/-- The cameras a frame worker is alive on. -/
def liveCameras (a : Activity) : List CameraEx :=
  (a.sources.filter (·.alive)).map (·.camera)

def startSequenceIfReady (a : Activity) : Activity :=
  match a.readyCamera with
  | none => a
  | some camera =>
    if !a.resumed || !a.nativeRuntimeReady || a.frameSource.isSome then a
    else { a with sources := a.sources ++ [{ camera }], frameSource := some a.sources.length }

def onNativeRuntimeReady (a : Activity) : Activity :=
  if !a.resumed then a else startSequenceIfReady { a with nativeRuntimeReady := true }

def onAnalyticalPreviewUnavailable (a : Activity) : Activity :=
  if !a.resumed then a else { a with nativeRuntimeReady := false }

/-- `displayProbeController.start()`. -/
def probeStart (probeOk : Bool) (a : Activity) : Activity :=
  if a.probeActive then a
  else if probeOk then onNativeRuntimeReady { a with probeActive := true }
  else onAnalyticalPreviewUnavailable a

def startRuntimeIfReady (probeOk : Bool) (a : Activity) : Activity :=
  if !a.resumed || a.readyCamera.isNone || a.nativeRuntimeReady then a else probeStart probeOk a

def onCameraReady (probeOk : Bool) (camera : CameraEx) (a : Activity) : Activity :=
  if !a.resumed then a
  else startRuntimeIfReady probeOk { a with readyCamera := some camera }

/-- Take over what a controller method left, and run the camera-ready callback. -/
def deliver (probeOk : Bool) (a : Activity) (e : Effect) : Activity :=
  match e.ready with
  | none => { a with controller := e.controller }
  | some camera => onCameraReady probeOk camera { a with controller := e.controller }

def onResume (openOk previewOk probeOk : Bool) (a : Activity) : Activity × List SonyCall :=
  if a.cameraQuarantined then (a, [])
  else
    let e := a.controller.start a.opened openOk previewOk
    (deliver probeOk { a with resumed := true, nativeRuntimeReady := false, readyCamera := none
                              opened := a.opened + 1 } e, e.calls)

/-- The two bounded joins; `first` and `second` say whether the worker has ended by then. -/
def stopSequence (first second : Bool) (source : Option Nat) (a : Activity) : Activity × Bool :=
  match source with
  | none => (a, true)
  | some i =>
    match a.sources[i]? with
    | none => (a, true)
    | some s =>
      let r := s.stopAndJoin first
      if r.2 then ({ a with sources := a.sources.set i r.1 }, true)
      else
        let r := r.1.stopAndJoin second
        ({ a with sources := a.sources.set i r.1 }, r.2)

def onPause (first second : Bool) (a : Activity) : Activity × List SonyCall :=
  let source := a.frameSource
  let r := stopSequence first second source
    { a with resumed := false, readyCamera := none, frameSource := none }
  let a := { r.1 with probeActive := false }
  if r.2 then
    let e := a.controller.stop
    ({ a with controller := e.controller }, e.calls)
  else ({ a with cameraQuarantined := true }, [])

/-- NativeDisplayProbeController.fail: the analytical preview is lost. -/
def previewUnavailable (a : Activity) : Activity :=
  if a.probeActive then onAnalyticalPreviewUnavailable { a with probeActive := false } else a

/-- The runnable that `onSequenceUnavailable` posts to the UI thread. -/
def sequenceUnavailable (a : Activity) : Activity :=
  if a.resumed then { a with probeActive := false, nativeRuntimeReady := false } else a

def workerEnds (i : Nat) (a : Activity) : Activity :=
  { a with sources := a.sources.modify i fun s => { s with alive := false } }

end Activity

inductive Event where
  | onResume (openOk previewOk probeOk : Bool)
  | onPause (first second : Bool)
  | surfaceCreated (previewOk probeOk : Bool)
  | surfaceDestroyed
  | focus (begin : Bool)
  | capture (takeOk : Bool)
  | releaseShutter (cancelOk previewOk probeOk : Bool)
  | delayedRelease (task : Nat) (cancelOk previewOk probeOk : Bool)
  | previewUnavailable
  | sequenceUnavailable
  | workerEnds (source : Nat)
  deriving DecidableEq, Repr

open Activity SonyCameraController in
def handle (a : Activity) : Event → Activity × List SonyCall
  | .onResume o p n => onResume o p n a
  | .onPause f s => onPause f s a
  | .surfaceCreated p n => let e := a.controller.surfaceCreated p; (deliver n a e, e.calls)
  | .surfaceDestroyed => let e := a.controller.surfaceDestroyed; (deliver false a e, e.calls)
  | .focus b => let e := a.controller.focus b; (deliver false a e, e.calls)
  | .capture t => let e := a.controller.capture t; (deliver false a e, e.calls)
  | .releaseShutter k p n => let e := a.controller.releaseShutter k p; (deliver n a e, e.calls)
  | .delayedRelease i k p n => let e := a.controller.delayedRelease i k p; (deliver n a e, e.calls)
  | .previewUnavailable => (previewUnavailable a, [])
  | .sequenceUnavailable => (sequenceUnavailable a, [])
  | .workerEnds i => (workerEnds i a, [])

/-- The activity with its camera and its frame workers. An event that releases the
camera starts no worker, so the workers alive after it are those alive at the call. -/
def machine : Runs.Machine Activity Event Act where
  step a e :=
    let r := handle a e
    some (r.1, r.2.map fun call => { call, workers := r.1.liveCameras })

end RetroLens.Camera
