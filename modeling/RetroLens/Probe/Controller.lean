import RetroLens.Lib.Threads

/-!
# NativeDisplayProbeController

The owner of the native probe, method by method, as programs of the UI thread
and of the frame workers over its fields and its monitor. Every call that takes
the probe's handle has a begin and an end. A handle stands for the probe object
it was created for: `nativeCreateDisplayProbe` returns 0 or a handle not given
before.

A tick runs only while it is scheduled; the surface callbacks and the other
entry points of the UI thread may come at any time that thread is at rest.
-/

namespace RetroLens.Probe

open Threads Threads.Prog

inductive NativeCall where
  | load
  | create (intervalMs storageStatus : Int)
  | surfaceIsValid
  | post (handle : Int)
  | updateSequence (handle state : Int)
  | submitJpeg (handle length : Int)
  | changeStyle (handle delta : Int)
  | key (handle key : Int) (down : Bool)
  | touch (handle action : Int)
  | requestPhoto (handle : Int)
  | setFocus (handle : Int) (active : Bool)
  | configureStorage (handle status attempts : Int)
  | getStats (handle : Int)
  | clear (handle : Int)
  | destroy (handle : Int)
  deriving DecidableEq, Repr

namespace NativeCall

/-- The probe handle a native call takes. -/
def handle : NativeCall → Option Int
  | load | create _ _ | surfaceIsValid => none
  | post h | updateSequence h _ | submitJpeg h _ | changeStyle h _ | key h _ _ | touch h _
  | requestPhoto h | setFocus h _ | configureStorage h _ _ | getStats h | clear h | destroy h =>
    some h

end NativeCall

/-- What a native call returns; `stats` is what it wrote to `runtimeStats`. -/
structure Reply where
  value : Int := 0
  stats : List Int := []
  deriving DecidableEq, Repr

/-- The probes created so far, and the handles whose destruction has begun. -/
structure Native where
  created : Int := 0
  begun : List Int := []
  deriving DecidableEq, Repr

namespace Native

def start (w : Native) : NativeCall → Native
  | .destroy h => { w with begun := h :: w.begun }
  | _ => w

def reply (w : Native) (c : NativeCall) (r : Reply) : Option Native :=
  match c with
  | .create _ _ =>
    if r.value = 0 then some w
    else if r.value = w.created + 1 then some { w with created := w.created + 1 }
    else none
  | _ => some w

end Native

def surfaceOk : Int := 0
def filterSubmitInvalid : Int := 2
def photoUnavailable : Int := 2
def frameIntervalMs : Int := 125
/-- `StorageController.INITIALIZING`. -/
def storageInitializing : Int := 0

structure Controller where
  storageStatus : Int := storageInitializing
  storageAttempts : Int := 0
  handle : Int := 0
  active : Bool := false
  surfaceReady : Bool := false
  tickScheduled : Bool := false
  statsScheduled : Bool := false
  firstPostReported : Bool := false
  surfaceRevealRequested : Bool := false
  deriving DecidableEq, Repr

abbrev Method (α : Type) := Prog Controller NativeCall Reply α

namespace Controller

/-- Read `handle` and make the native call on it, or answer `unavailable` without a probe. -/
def onProbe (unavailable : Int) (c : Int → NativeCall) : Method Int := do
  let probe ← get (·.handle)
  if probe = 0 then return unavailable
  let r ← invoke (c probe)
  return r.value

def updateSequenceMetrics (state : Int) : Method Int :=
  synchronized (onProbe 0 fun probe => .updateSequence probe state)

def submitJpeg (length : Int) : Method Int :=
  synchronized (onProbe filterSubmitInvalid fun probe => .submitJpeg probe length)

def changeStyle (delta : Int) : Method Int :=
  synchronized (onProbe (-1) fun probe => .changeStyle probe delta)

def key (key : Int) (down : Bool) : Method Int :=
  synchronized (onProbe 0 fun probe => .key probe key down)

def requestPhoto : Method Int :=
  synchronized (onProbe photoUnavailable fun probe => .requestPhoto probe)

def setFocus (active : Bool) : Method Unit :=
  synchronized do
    if (← get (·.handle)) ≠ 0 then
      let _ ← invoke (.setFocus (← get (·.handle)) active)

/-- `width` and `height` are the view's. -/
def onTouch (width height action : Int) : Method Bool :=
  synchronized do
    if (← get (·.handle)) = 0 ∨ width ≤ 0 ∨ height ≤ 0 then return false
    let _ ← invoke (.touch (← get (·.handle)) action)
    return true

def configureStorageRoot : Method Unit :=
  synchronized do
    if (← get (·.handle)) ≠ 0 then return
    set fun m => { m with storageStatus := storageInitializing, storageAttempts := 0 }

def completeStorageProbe (status attempts : Int) : Method Int :=
  synchronized do
    set fun m => { m with storageStatus := status, storageAttempts := attempts }
    onProbe 0 fun probe => .configureStorage probe status attempts

def scheduleNextFrame : Method Unit := do
  if !(← get (·.active)) || (← get (·.tickScheduled)) then return
  set fun m => { m with tickScheduled := true }

def scheduleStats : Method Unit := do
  if !(← get (·.active)) || (← get (·.statsScheduled)) then return
  set fun m => { m with statsScheduled := true }

def destroyNativeProbe : Method Unit := do
  let probe ← get (·.handle)
  set fun m => { m with handle := 0 }
  if probe = 0 then return
  let _ ← invoke (.clear probe)
  let _ ← invoke (.destroy probe)

/-- The fields that `stop` and `fail` reset before they destroy the probe. -/
def deactivate : Method Unit :=
  set fun m => { m with active := false, tickScheduled := false, statsScheduled := false
                        surfaceReady := false }

def fail : Method Unit := do
  deactivate
  destroyNativeProbe

def stop : Method Unit :=
  synchronized do
    if !(← get (·.active)) && (← get (·.handle)) = 0 then return
    deactivate
    destroyNativeProbe

/-- `updates`: the states of the `updateSequenceMetrics` calls that
`listener.onNativeRuntimeReady` makes. -/
def start (updates : List Int) : Method Unit :=
  synchronized do
    if ← get (·.active) then return
    set fun m => { m with active := true, firstPostReported := false
                          surfaceRevealRequested := false }
    if (← invoke .load).value = 0 then
      fail
      return
    let r ← invoke (.create frameIntervalMs (← get (·.storageStatus)))
    set fun m => { m with handle := r.value }
    if (← get (·.handle)) = 0 then
      fail
      return
    if (← get (·.storageStatus)) ≠ storageInitializing then
      let _ ← invoke (.configureStorage (← get (·.handle)) (← get (·.storageStatus))
        (← get (·.storageAttempts)))
    updates.forM fun state => do
      let _ ← updateSequenceMetrics state
    scheduleStats

def pollStats : Method Unit := do
  if !(← get (·.active)) || (← get (·.handle)) = 0 then return
  let runtimeStats := (← invoke (.getStats (← get (·.handle)))).stats
  if !(← get (·.surfaceRevealRequested)) && runtimeStats.getD 6 0 > 0 then
    set fun m => { m with surfaceRevealRequested := true }
  if runtimeStats.getD 6 0 = 0 ∧ runtimeStats.getD 7 0 ≥ 3 then fail

def postFrame : Method Bool := do
  if !(← get (·.active)) || !(← get (·.surfaceReady)) || (← get (·.handle)) = 0 then return false
  if (← invoke .surfaceIsValid).value = 0 then return false
  let status := (← invoke (.post (← get (·.handle)))).value
  if status ≠ surfaceOk then
    fail
    return false
  if !(← get (·.firstPostReported)) then
    set fun m => { m with firstPostReported := true }
  pollStats
  return true

def beginPosting : Method Unit := do
  set fun m => { m with tickScheduled := false }
  if ← postFrame then scheduleNextFrame

/-- Also `surfaceChanged`. -/
def surfaceCreated : Method Unit := do
  set fun m => { m with surfaceReady := true }
  beginPosting

def surfaceDestroyed : Method Unit :=
  set fun m => { m with surfaceReady := false }

def animationTick : Method Unit := do
  set fun m => { m with tickScheduled := false }
  if (← get (·.active)) && (← get (·.surfaceReady)) then
    if ← postFrame then scheduleNextFrame

def statsTick : Method Unit := do
  set fun m => { m with statsScheduled := false }
  if !(← get (·.active)) || (← get (·.handle)) = 0 then return
  pollStats
  if ← get (·.active) then scheduleStats

end Controller

/-! ## The threads -/

inductive ThreadId where
  | ui
  | worker (n : Nat)
  deriving DecidableEq, Repr

inductive Entry where
  | start (updates : List Int)
  | stop
  | animationTick
  | statsTick
  | surfaceCreated
  | surfaceDestroyed
  | updateSequenceMetrics (state : Int)
  | submitJpeg (length : Int)
  | changeStyle (delta : Int)
  | key (key : Int) (down : Bool)
  | requestPhoto
  | setFocus (active : Bool)
  | onTouch (width height action : Int)
  | configureStorageRoot
  | completeStorageProbe (status attempts : Int)
  deriving DecidableEq, Repr

open Controller in
/-- The entry points of the UI thread. -/
def uiEntry (m : Controller) : Entry → Option (Method Unit)
  | .start updates => some (start updates)
  | .stop => some stop
  | .animationTick => if m.tickScheduled then some animationTick else none
  | .statsTick => if m.statsScheduled then some statsTick else none
  | .surfaceCreated => some surfaceCreated
  | .surfaceDestroyed => some surfaceDestroyed
  | .updateSequenceMetrics state => some (discard (updateSequenceMetrics state))
  | .submitJpeg _ => none
  | .changeStyle delta => some (discard (changeStyle delta))
  | .key k down => some (discard (key k down))
  | .requestPhoto => some (discard requestPhoto)
  | .setFocus active => some (setFocus active)
  | .onTouch width height action => some (discard (onTouch width height action))
  | .configureStorageRoot => some configureStorageRoot
  | .completeStorageProbe status attempts => some (discard (completeStorageProbe status attempts))

open Controller in
/-- The entry points of a frame worker. -/
def workerEntry : Entry → Option (Method Unit)
  | .updateSequenceMetrics state => some (discard (updateSequenceMetrics state))
  | .submitJpeg length => some (discard (submitJpeg length))
  | _ => none

def system : System ThreadId Entry Controller NativeCall Reply Native where
  start := Native.start
  reply := Native.reply
  enter
    | .ui, e, m => uiEntry m e
    | .worker _, e, _ => workerEntry e

/-- Every thread at rest and no probe. -/
def initial : State ThreadId Controller NativeCall Reply Native :=
  { mem := {}, world := {}, owner := none, thread := fun _ => .ready (.pure ()) }

end RetroLens.Probe
