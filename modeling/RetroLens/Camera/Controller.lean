import Mathlib.Tactic.Common

/-!
# SonyCameraController

The UI-thread owner of `CameraEx`. Every method takes what the Sony calls it
makes will do (`true`: the call returns, `false`: it throws) and gives the
controller after it, the Sony calls it made, in order, and the camera it
handed to `listener.onCameraReady`. An opened `CameraEx` is a number; no two
opens give the same one.
-/

namespace RetroLens.Camera

abbrev CameraEx := Nat

inductive SonyCall where
  | openCamera (ok : Bool)
  | startPreview (camera : CameraEx) (ok : Bool)
  | autoFocus (camera : CameraEx)
  | cancelAutoFocus (camera : CameraEx)
  | takePicture (camera : CameraEx) (ok : Bool)
  | cancelTakePicture (camera : CameraEx) (ok : Bool)
  | release (camera : CameraEx)
  deriving DecidableEq, Repr

structure SonyCameraController where
  cameraEx : Option CameraEx := none
  active : Bool := false
  surfaceReady : Bool := false
  previewReady : Bool := false
  captureInProgress : Bool := false
  captureGeneration : Nat := 0
  /-- The 425 ms release tasks still in the handler: generation and camera. -/
  releaseTasks : List (Nat × CameraEx) := []
  deriving DecidableEq, Repr

/-- What a controller method leaves behind. -/
structure Effect where
  controller : SonyCameraController
  calls : List SonyCall := []
  ready : Option CameraEx := none

namespace SonyCameraController

def startPreviewIfReady (previewOk : Bool) (c : SonyCameraController) : Effect :=
  match c.cameraEx with
  | none => { controller := c }
  | some camera =>
    if !c.active || !c.surfaceReady || c.previewReady then { controller := c }
    else if previewOk then
      { controller := { c with previewReady := true }
        calls := [.startPreview camera true], ready := some camera }
    else { controller := c, calls := [.startPreview camera false] }

/-- `fresh` is the camera that `CameraEx.open` returns. -/
def start (fresh : CameraEx) (openOk previewOk : Bool) (c : SonyCameraController) : Effect :=
  if c.active then { controller := c }
  else
    let c := { c with active := true, captureInProgress := false }
    if openOk then
      let e := startPreviewIfReady previewOk { c with cameraEx := some fresh }
      { e with calls := .openCamera true :: e.calls }
    else { controller := { c with cameraEx := none }, calls := [.openCamera false] }

def stop (c : SonyCameraController) : Effect :=
  if !c.active && c.cameraEx.isNone then { controller := c }
  else
    let stopped : SonyCameraController :=
      { cameraEx := none, active := false, surfaceReady := false, previewReady := false
        captureInProgress := false, captureGeneration := c.captureGeneration + 1
        releaseTasks := [] }
    match c.cameraEx with
    | none => { controller := stopped }
    | some camera =>
      { controller := stopped
        calls := [.cancelAutoFocus camera, .cancelTakePicture camera true, .release camera] }

def getCameraEx (c : SonyCameraController) : Option CameraEx :=
  if c.active && c.previewReady then c.cameraEx else none

def focus (begin : Bool) (c : SonyCameraController) : Effect :=
  match c.getCameraEx with
  | none => { controller := c }
  | some camera =>
    { controller := c, calls := [if begin then .autoFocus camera else .cancelAutoFocus camera] }

def capture (takeOk : Bool) (c : SonyCameraController) : Effect :=
  match c.getCameraEx with
  | none => { controller := c }
  | some camera =>
    let generation := c.captureGeneration + 1
    let c := { c with captureGeneration := generation }
    if takeOk then
      { controller := { c with captureInProgress := true, previewReady := false
                               releaseTasks := c.releaseTasks ++ [(generation, camera)] }
        calls := [.takePicture camera true] }
    else { controller := c, calls := [.takePicture camera false] }

def releaseShutterForGeneration (generation : Nat) (cancelOk previewOk : Bool)
    (c : SonyCameraController) : Effect :=
  match c.cameraEx with
  | none => { controller := c }
  | some camera =>
    if !c.active || !c.captureInProgress || generation != c.captureGeneration then
      { controller := c }
    else
      let c := { c with captureInProgress := false, captureGeneration := c.captureGeneration + 1 }
      if cancelOk then
        let e := startPreviewIfReady previewOk c
        { e with calls := .cancelTakePicture camera true :: e.calls }
      else { controller := c, calls := [.cancelTakePicture camera false] }

def releaseShutter (cancelOk previewOk : Bool) (c : SonyCameraController) : Effect :=
  c.releaseShutterForGeneration c.captureGeneration cancelOk previewOk

/-- The `i`-th pending release task fires. -/
def delayedRelease (i : Nat) (cancelOk previewOk : Bool) (c : SonyCameraController) : Effect :=
  match c.releaseTasks[i]? with
  | none => { controller := c }
  | some (generation, camera) =>
    let c := { c with releaseTasks := c.releaseTasks.eraseIdx i }
    if !c.active || !c.captureInProgress || generation != c.captureGeneration ||
        c.cameraEx != some camera then
      { controller := c }
    else c.releaseShutterForGeneration generation cancelOk previewOk

def surfaceCreated (previewOk : Bool) (c : SonyCameraController) : Effect :=
  startPreviewIfReady previewOk { c with surfaceReady := true }

def surfaceDestroyed (c : SonyCameraController) : Effect :=
  { controller := { c with surfaceReady := false, previewReady := false } }

/-! ## What the methods do to the camera -/

/-- A camera that an active controller does not hold is not there at all. -/
def Held (c : SonyCameraController) : Prop := c.active = false → c.cameraEx = none

/-- A method that neither opens nor releases: the camera and `active` stay, and
the camera it reports ready is the one it holds. -/
structure Keeps (c : SonyCameraController) (e : Effect) : Prop where
  cameraEx : e.controller.cameraEx = c.cameraEx
  active : e.controller.active = c.active
  ready : ∀ camera, e.ready = some camera → c.cameraEx = some camera
  unreleased : ∀ camera, .release camera ∉ e.calls

theorem startPreviewIfReady_keeps (p : Bool) (c : SonyCameraController) :
    c.Keeps (startPreviewIfReady p c) := by
  unfold startPreviewIfReady
  split
  · exact ⟨rfl, rfl, by simp, by simp⟩
  · rename_i camera h
    split
    · exact ⟨rfl, rfl, by simp, by simp⟩
    · split
      · exact ⟨rfl, rfl, by simp [h], by simp⟩
      · exact ⟨rfl, rfl, by simp, by simp⟩

/-- `Keeps` from a controller that agrees on the camera and on `active`. -/
theorem Keeps.of_eq {c c' : SonyCameraController} {e : Effect} (h : c'.Keeps e)
    (hc : c'.cameraEx = c.cameraEx) (ha : c'.active = c.active) : c.Keeps e :=
  ⟨h.cameraEx.trans hc, h.active.trans ha, fun camera hr => hc ▸ h.ready camera hr, h.unreleased⟩

theorem focus_keeps (b : Bool) (c : SonyCameraController) : c.Keeps (focus b c) := by
  unfold focus
  split
  · exact ⟨rfl, rfl, by simp, by simp⟩
  · exact ⟨rfl, rfl, by simp, by cases b <;> simp⟩

theorem capture_keeps (t : Bool) (c : SonyCameraController) : c.Keeps (capture t c) := by
  unfold capture
  split
  · exact ⟨rfl, rfl, by simp, by simp⟩
  · split <;> exact ⟨rfl, rfl, by simp, by simp⟩

theorem releaseShutterForGeneration_keeps (g : Nat) (k p : Bool) (c : SonyCameraController) :
    c.Keeps (c.releaseShutterForGeneration g k p) := by
  unfold releaseShutterForGeneration
  split
  · exact ⟨rfl, rfl, by simp, by simp⟩
  · split
    · exact ⟨rfl, rfl, by simp, by simp⟩
    · split
      · obtain ⟨h1, h2, h3, h4⟩ := (startPreviewIfReady_keeps p { c with
          captureInProgress := false, captureGeneration := c.captureGeneration + 1 }).of_eq
            (c := c) rfl rfl
        exact ⟨h1, h2, h3, by simpa using h4⟩
      · exact ⟨rfl, rfl, by simp, by simp⟩

theorem delayedRelease_keeps (i : Nat) (k p : Bool) (c : SonyCameraController) :
    c.Keeps (c.delayedRelease i k p) := by
  unfold delayedRelease
  split
  · exact ⟨rfl, rfl, by simp, by simp⟩
  · simp only
    split
    · exact ⟨rfl, rfl, by simp, by simp⟩
    · exact (releaseShutterForGeneration_keeps _ k p _).of_eq rfl rfl

theorem surfaceCreated_keeps (p : Bool) (c : SonyCameraController) :
    c.Keeps (c.surfaceCreated p) :=
  (startPreviewIfReady_keeps p { c with surfaceReady := true }).of_eq rfl rfl

theorem surfaceDestroyed_keeps (c : SonyCameraController) : c.Keeps c.surfaceDestroyed :=
  ⟨rfl, rfl, by simp [surfaceDestroyed], by simp [surfaceDestroyed]⟩

/-- Starting leaves an active controller as it is; an inactive one becomes
active with the fresh camera or with none. -/
theorem start_cases (fresh : CameraEx) (o p : Bool) (c : SonyCameraController) :
    (c.active = true ∧ c.start fresh o p = { controller := c }) ∨
    (c.active = false ∧ (c.start fresh o p).controller.active = true ∧
      ((c.start fresh o p).controller.cameraEx = some fresh ∨
        (c.start fresh o p).controller.cameraEx = none) ∧
      (∀ camera, (c.start fresh o p).ready = some camera →
        (c.start fresh o p).controller.cameraEx = some camera) ∧
      ∀ camera, .release camera ∉ (c.start fresh o p).calls) := by
  unfold start
  cases ha : c.active with
  | true => simp
  | false =>
    right
    cases o with
    | false => simp
    | true =>
      have h := startPreviewIfReady_keeps p
        { c with active := true, captureInProgress := false, cameraEx := some fresh }
      refine ⟨rfl, h.active, .inl h.cameraEx, fun camera hr => ?_, ?_⟩
      · exact h.cameraEx.trans (h.ready camera hr)
      · simpa using h.unreleased

/-- Stopping drops the camera and releases it if there was one. -/
theorem stop_spec {c : SonyCameraController} (hc : c.Held) :
    c.stop.controller.cameraEx = none ∧ c.stop.controller.active = false ∧ c.stop.ready = none ∧
      ∀ camera, .release camera ∈ c.stop.calls ↔ c.cameraEx = some camera := by
  unfold stop
  cases ha : c.active with
  | true => cases hx : c.cameraEx <;> simp [eq_comm]
  | false => simp [hc ha, ha]

end SonyCameraController

end RetroLens.Camera
