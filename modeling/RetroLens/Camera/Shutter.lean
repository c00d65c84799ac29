import Mathlib.Data.List.Induction
import RetroLens.Camera.Controller
import RetroLens.Lib.Runs

/-!
# The shutter protocol

The controller over any sequence of captures, releases, timers, surface
callbacks, starts and stops. A capture takes `previewReady` away, which keeps
the next one out until the shutter is released; but a surface that is created
in between starts the preview again, and a second picture is taken on top of
the first. But for that, the takes and the releases of each camera alternate
(`shutter_protocol_iff`); a timer never releases another capture's shutter, and
a released camera is left alone, in any case.
-/

namespace RetroLens.Camera

open Runs

/-- Who makes a call. -/
inductive Source where
  /-- `capture`, with its generation. -/
  | capture (generation : Nat)
  | releaseShutter
  /-- The release task of that generation. -/
  | task (generation : Nat)
  | stop
  | other
  deriving DecidableEq, Repr

structure ShutterAct where
  source : Source
  call : SonyCall
  deriving DecidableEq, Repr

/-- A picture is taken with the camera. -/
def ShutterAct.takes (camera : CameraEx) : ShutterAct → Bool
  | ⟨.capture _, .takePicture c true⟩ => c == camera
  | _ => false

/-- `releaseShutterForGeneration` calls `cancelTakePicture`. -/
def ShutterAct.unlatches (camera : CameraEx) : ShutterAct → Bool
  | ⟨.releaseShutter, .cancelTakePicture c _⟩ => c == camera
  | ⟨.task _, .cancelTakePicture c _⟩ => c == camera
  | _ => false

/-- Any call of `takePicture` or `cancelTakePicture`. -/
def ShutterAct.shoots (camera : CameraEx) : ShutterAct → Bool
  | ⟨_, .takePicture c _⟩ => c == camera
  | ⟨_, .cancelTakePicture c _⟩ => c == camera
  | _ => false

/-- Between two pictures in a row the shutter is released once. -/
def Once (l : List ShutterAct) : Prop :=
  ∀ camera l₁ a m b l₂, l = l₁ ++ a :: (m ++ b :: l₂) → a.takes camera = true →
    b.takes camera = true → (∀ x ∈ m, x.takes camera = false) →
    m.countP (ShutterAct.unlatches camera) = 1

/-- What a task releases is the capture that posted it, with no other after it. -/
def Own (l : List ShutterAct) : Prop :=
  ∀ generation camera ok l₁ l₂,
    l = l₁ ++ ⟨.task generation, .cancelTakePicture camera ok⟩ :: l₂ →
    ∃ k m, l₁ = k ++ ⟨.capture generation, .takePicture camera true⟩ :: m ∧
      ∀ x ∈ m, x.takes camera = false

/-- A released camera is left alone. -/
def Over (l : List ShutterAct) : Prop :=
  ∀ source camera l₁ l₂, l = l₁ ++ ⟨source, .release camera⟩ :: l₂ →
    ∀ x ∈ l₂, x.shoots camera = false

structure ShutterProtocol (l : List ShutterAct) : Prop where
  once : Once l
  own : Own l
  ended : Over l

/-! ## The machine -/

inductive ShutterEvent where
  | start (openOk previewOk : Bool)
  | stop
  | focus (begin : Bool)
  | capture (takeOk : Bool)
  | releaseShutter (cancelOk previewOk : Bool)
  /-- The `i`-th release task fires. -/
  | delayedRelease (i : Nat) (cancelOk previewOk : Bool)
  | surfaceCreated (previewOk : Bool)
  | surfaceDestroyed

/-- The controller, and the camera that the next open returns. -/
structure ShutterState where
  controller : SonyCameraController := {}
  next : CameraEx := 0

namespace ShutterState

def effect (s : ShutterState) : ShutterEvent → Effect
  | .start openOk previewOk => s.controller.start s.next openOk previewOk
  | .stop => s.controller.stop
  | .focus begin => s.controller.focus begin
  | .capture takeOk => s.controller.capture takeOk
  | .releaseShutter cancelOk previewOk => s.controller.releaseShutter cancelOk previewOk
  | .delayedRelease i cancelOk previewOk => s.controller.delayedRelease i cancelOk previewOk
  | .surfaceCreated previewOk => s.controller.surfaceCreated previewOk
  | .surfaceDestroyed => s.controller.surfaceDestroyed

def source (s : ShutterState) : ShutterEvent → Source
  | .stop => .stop
  | .capture _ => .capture (s.controller.captureGeneration + 1)
  | .releaseShutter .. => .releaseShutter
  | .delayedRelease i .. =>
    match s.controller.releaseTasks[i]? with
    | some (generation, _) => .task generation
    | none => .other
  | _ => .other

def step (s : ShutterState) (e : ShutterEvent) : Option (ShutterState × List ShutterAct) :=
  some ({ controller := (s.effect e).controller
          next := match e with
            | .start .. => s.next + 1
            | _ => s.next },
    (s.effect e).calls.map (.mk (s.source e)))

end ShutterState

def shutter : Machine ShutterState ShutterEvent ShutterAct where
  step := ShutterState.step

/-- No picture is taken with one under way. -/
def onePicture : Guard ShutterState ShutterEvent ShutterAct := fun _ s e =>
  match e with
  | .capture true => s.controller.getCameraEx ≠ none → s.controller.captureInProgress = false
  | _ => True

/-! ## What an event does -/

/-- Neither the shutter nor the release of a camera. -/
def Aloof (o : List ShutterAct) : Prop :=
  ∀ x ∈ o, ∀ camera, x.shoots camera = false ∧ x.call ≠ .release camera

/-- The calls with which `stop` gives the camera back. -/
def closing (camera : CameraEx) : List ShutterAct :=
  [⟨.stop, .cancelAutoFocus camera⟩, ⟨.stop, .cancelTakePicture camera true⟩,
    ⟨.stop, .release camera⟩]

variable {s s' : ShutterState} {e : ShutterEvent} {l o : List ShutterAct} {camera : CameraEx}
  {generation : Nat} {c : SonyCameraController}

/-- What an event can do to the camera, the capture and the tasks. -/
inductive ShutterEvent.Step (e : ShutterEvent) (s s' : ShutterState) (o : List ShutterAct) :
    Prop where
  | aside (next : s.next ≤ s'.next) (cameraEx : s'.controller.cameraEx = s.controller.cameraEx)
      (active : s'.controller.active = s.controller.active)
      (progress : s'.controller.captureInProgress = s.controller.captureInProgress)
      (generation : s'.controller.captureGeneration = s.controller.captureGeneration)
      (tasks : s'.controller.releaseTasks ⊆ s.controller.releaseTasks) (acts : Aloof o)
  | opened (inactive : s.controller.active = false) (active : s'.controller.active = true)
      (next : s'.next = s.next + 1)
      (cameraEx : s'.controller.cameraEx = some s.next ∨ s'.controller.cameraEx = none)
      (progress : s'.controller.captureInProgress = false)
      (generation : s'.controller.captureGeneration = s.controller.captureGeneration)
      (tasks : s'.controller.releaseTasks = s.controller.releaseTasks) (acts : Aloof o)
  | closed (next : s'.next = s.next) (cameraEx : s'.controller.cameraEx = none)
      (active : s'.controller.active = false) (tasks : s'.controller.releaseTasks = [])
      (generation : s.controller.captureGeneration < s'.controller.captureGeneration)
      (acts : (s.controller.cameraEx = none ∧ o = []) ∨
        ∃ camera, s.controller.cameraEx = some camera ∧
          o = closing camera)
  | took (camera : CameraEx) (event : e = .capture true)
      (ready : s.controller.getCameraEx = some camera)
      (eq : s' = { s with
        controller.captureGeneration := s.controller.captureGeneration + 1
        controller.captureInProgress := true
        controller.previewReady := false
        controller.releaseTasks :=
          s.controller.releaseTasks ++ [(s.controller.captureGeneration + 1, camera)] })
      (acts : o =
        [⟨.capture (s.controller.captureGeneration + 1), .takePicture camera true⟩])
  | failed (camera : CameraEx) (ready : s.controller.getCameraEx = some camera)
      (eq : s' =
        { s with controller.captureGeneration := s.controller.captureGeneration + 1 })
      (acts : o =
        [⟨.capture (s.controller.captureGeneration + 1), .takePicture camera false⟩])
  /-- `releaseShutterForGeneration` gets through. -/
  | released (camera : CameraEx) (source : Source) (ok : Bool) (rest : List ShutterAct)
      (held : s.controller.cameraEx = some camera)
      (progress : s.controller.captureInProgress = true)
      (source_eq : source = .releaseShutter ∨
        source = .task s.controller.captureGeneration ∧
          (s.controller.captureGeneration, camera) ∈ s.controller.releaseTasks)
      (next : s'.next = s.next) (cameraEx : s'.controller.cameraEx = s.controller.cameraEx)
      (active : s'.controller.active = s.controller.active)
      (progress' : s'.controller.captureInProgress = false)
      (generation : s.controller.captureGeneration < s'.controller.captureGeneration)
      (tasks : s'.controller.releaseTasks ⊆ s.controller.releaseTasks)
      (acts : o = ⟨source, .cancelTakePicture camera ok⟩ :: rest) (aloof : Aloof rest)

/-- Starting the preview leaves everything but the preview alone. -/
theorem startPreviewIfReady_aside (previewOk : Bool) (c : SonyCameraController) :
    (∃ ready, (c.startPreviewIfReady previewOk).controller = { c with previewReady := ready }) ∧
      ∀ source, Aloof ((c.startPreviewIfReady previewOk).calls.map (.mk source)) := by
  unfold SonyCameraController.startPreviewIfReady
  split
  · exact ⟨⟨_, rfl⟩, fun _ x hx => by cases hx⟩
  · split
    · exact ⟨⟨_, rfl⟩, fun _ x hx => by cases hx⟩
    · split
      · refine ⟨⟨_, rfl⟩, fun source x hx camera => ?_⟩
        simp only [List.map_cons, List.map_nil, List.mem_singleton] at hx
        subst hx
        cases source <;> exact ⟨rfl, (by simp)⟩
      · refine ⟨⟨_, rfl⟩, fun source x hx camera => ?_⟩
        simp only [List.map_cons, List.map_nil, List.mem_singleton] at hx
        subst hx
        cases source <;> exact ⟨rfl, (by simp)⟩

theorem Aloof.nil : Aloof [] := fun x hx => by cases hx

/-- What `releaseShutterForGeneration` does: nothing, or it releases the shutter. -/
theorem releaseShutterForGeneration_cases (g : Nat) (cancelOk previewOk : Bool)
    (c : SonyCameraController) :
    c.releaseShutterForGeneration g cancelOk previewOk = { controller := c } ∨
      ∃ camera ready, c.cameraEx = some camera ∧ c.captureInProgress = true ∧
        g = c.captureGeneration ∧
        (c.releaseShutterForGeneration g cancelOk previewOk).controller =
          { c with captureInProgress := false, captureGeneration := c.captureGeneration + 1
                   previewReady := ready } ∧
        ∃ calls, (c.releaseShutterForGeneration g cancelOk previewOk).calls =
            .cancelTakePicture camera cancelOk :: calls ∧
          ∀ source : Source, Aloof (calls.map (.mk source)) := by
  unfold SonyCameraController.releaseShutterForGeneration
  split
  · exact .inl rfl
  · rename_i camera hcamera
    split
    · exact .inl rfl
    · rename_i hguard
      simp only [Bool.or_eq_true, Bool.not_eq_true', bne_iff_ne, not_or, Bool.not_eq_false,
        ne_eq, not_not] at hguard
      obtain ⟨⟨-, hprogress⟩, hgen⟩ := hguard
      refine .inr ?_
      cases cancelOk with
      | true =>
        obtain ⟨⟨ready, hc⟩, hcalls⟩ := startPreviewIfReady_aside previewOk
          { c with captureInProgress := false, captureGeneration := c.captureGeneration + 1 }
        exact ⟨camera, ready, hcamera, hprogress, hgen, hc, _, rfl, hcalls⟩
      | false =>
        exact ⟨camera, c.previewReady, hcamera, hprogress, hgen, rfl, [], rfl, fun _ => .nil⟩

/-- Where the shutter's part of the controller stays. -/
theorem ShutterEvent.Step.of_aside {e : ShutterEvent} {c' : SonyCameraController}
    (cameraEx : c'.cameraEx = s.controller.cameraEx) (active : c'.active = s.controller.active)
    (progress : c'.captureInProgress = s.controller.captureInProgress)
    (generation : c'.captureGeneration = s.controller.captureGeneration)
    (tasks : c'.releaseTasks ⊆ s.controller.releaseTasks) (acts : Aloof o) :
    e.Step s ⟨c', s.next⟩ o :=
  .aside (Nat.le_refl _) cameraEx active progress generation tasks acts

theorem start_step (openOk previewOk : Bool) (s : ShutterState) :
    (ShutterEvent.start openOk previewOk).Step s
      ⟨(s.controller.start s.next openOk previewOk).controller, s.next + 1⟩
      ((s.controller.start s.next openOk previewOk).calls.map (.mk .other)) := by
  unfold SonyCameraController.start
  split
  · exact .aside (Nat.le_succ _) rfl rfl rfl rfl (List.Subset.refl _) .nil
  · rename_i hactive
    have hinactive : s.controller.active = false := by simpa using hactive
    dsimp only
    split
    · obtain ⟨⟨ready, hc⟩, hcalls⟩ := startPreviewIfReady_aside previewOk
        { s.controller with active := true, captureInProgress := false, cameraEx := some s.next }
      refine .opened hinactive ?_ rfl (.inl ?_) ?_ ?_ ?_ ?_
      · rw [hc]
      · rw [hc]
      · rw [hc]
      · rw [hc]
      · rw [hc]
      · intro x hx camera
        rcases List.mem_cons.1 hx with rfl | hx
        · exact ⟨rfl, by simp⟩
        · exact hcalls .other x hx camera
    · refine .opened hinactive rfl rfl (.inr rfl) rfl rfl rfl ?_
      intro x hx camera
      simp only [List.map_cons, List.map_nil, List.mem_singleton] at hx
      subst hx
      exact ⟨rfl, by simp⟩

theorem stop_step (s : ShutterState) :
    ShutterEvent.stop.Step s ⟨s.controller.stop.controller, s.next⟩
      (s.controller.stop.calls.map (.mk .stop)) := by
  unfold SonyCameraController.stop
  split
  · exact .of_aside rfl rfl rfl rfl (List.Subset.refl _) .nil
  · dsimp only
    split
    · rename_i hnone
      exact .closed rfl rfl rfl rfl (Nat.lt_succ_self _) (.inl ⟨hnone, rfl⟩)
    · rename_i camera hcamera
      exact .closed rfl rfl rfl rfl (Nat.lt_succ_self _) (.inr ⟨camera, hcamera, rfl⟩)

theorem capture_step (takeOk : Bool) (s : ShutterState) :
    (ShutterEvent.capture takeOk).Step s ⟨(s.controller.capture takeOk).controller, s.next⟩
      ((s.controller.capture takeOk).calls.map
        (.mk (.capture (s.controller.captureGeneration + 1)))) := by
  unfold SonyCameraController.capture
  split
  · exact .of_aside rfl rfl rfl rfl (List.Subset.refl _) .nil
  · rename_i camera hready
    dsimp only
    cases takeOk with
    | true => exact .took camera rfl hready rfl rfl
    | false => exact .failed camera hready rfl rfl

/-- A release that gets through, or not, on a controller with fewer tasks. -/
theorem release_step (camera : CameraEx) {e : ShutterEvent} {source : Source}
    {cancelOk previewOk : Bool}
    (hc : ∃ tasks ⊆ s.controller.releaseTasks, c = { s.controller with releaseTasks := tasks })
    (hsource : s.controller.cameraEx = some camera → generation = s.controller.captureGeneration →
      source = .releaseShutter ∨ source = .task s.controller.captureGeneration ∧
        (s.controller.captureGeneration, camera) ∈ s.controller.releaseTasks)
    (hcamera : ∀ camera', s.controller.cameraEx = some camera' → camera' = camera) :
    e.Step s
      ⟨(c.releaseShutterForGeneration generation cancelOk previewOk).controller, s.next⟩
      ((c.releaseShutterForGeneration generation cancelOk previewOk).calls.map (.mk source)) := by
  obtain ⟨tasks, hsub, rfl⟩ := hc
  rcases releaseShutterForGeneration_cases generation cancelOk previewOk
    { s.controller with releaseTasks := tasks } with h | ⟨camera', ready, hheld, hp, hg, h, calls,
      hcalls, haloof⟩
  · rw [h]
    exact .of_aside rfl rfl rfl rfl hsub .nil
  · have hheld' : s.controller.cameraEx = some camera' := hheld
    obtain rfl := hcamera _ hheld'
    rw [h, hcalls]
    exact .released camera' source cancelOk _ hheld' hp (hsource hheld' hg) rfl rfl rfl rfl
      (Nat.lt_succ_self _) hsub rfl (haloof source)

theorem delayedRelease_step (i : Nat) (cancelOk previewOk : Bool) (s : ShutterState) :
    (ShutterEvent.delayedRelease i cancelOk previewOk).Step s
      ⟨(s.controller.delayedRelease i cancelOk previewOk).controller, s.next⟩
      ((s.controller.delayedRelease i cancelOk previewOk).calls.map
        (.mk (s.source (.delayedRelease i cancelOk previewOk)))) := by
  unfold SonyCameraController.delayedRelease ShutterState.source
  dsimp only
  split
  · exact .of_aside rfl rfl rfl rfl (List.Subset.refl _) .nil
  · rename_i generation camera htask
    have hsub : s.controller.releaseTasks.eraseIdx i ⊆ s.controller.releaseTasks :=
      (List.eraseIdx_sublist _ _).subset
    split
    · exact .of_aside rfl rfl rfl rfl hsub .nil
    · rename_i hguard
      simp only [Bool.or_eq_true, Bool.not_eq_true', bne_iff_ne, not_or, Bool.not_eq_false,
        ne_eq, not_not] at hguard
      obtain ⟨⟨⟨-, -⟩, hgen⟩, hcamera⟩ := hguard
      have hmem := List.mem_of_getElem? htask
      refine release_step camera ⟨_, hsub, rfl⟩ (fun _ _ => .inr ⟨?_, ?_⟩)
        fun camera' h => ?_
      · simp only [htask, hgen]
      · exact hgen ▸ hmem
      · exact Option.some.inj (h.symm.trans hcamera)

/-- **What an event can do.** -/
theorem shutter_step (h : shutter.step s e = some (s', o)) : e.Step s s' o := by
  cases h
  cases e with
  | start openOk previewOk => exact start_step openOk previewOk s
  | stop => exact stop_step s
  | focus begin =>
    show ShutterEvent.Step _ s ⟨(s.controller.focus begin).controller, s.next⟩
      ((s.controller.focus begin).calls.map (.mk .other))
    unfold SonyCameraController.focus
    split
    · exact .of_aside rfl rfl rfl rfl (List.Subset.refl _) .nil
    · refine .of_aside rfl rfl rfl rfl (List.Subset.refl _) fun x hx camera => ?_
      simp only [List.map_cons, List.map_nil, List.mem_singleton] at hx
      subst hx
      cases begin <;> exact ⟨rfl, (by simp)⟩
  | capture takeOk => exact capture_step takeOk s
  | releaseShutter cancelOk previewOk =>
    cases hc : s.controller.cameraEx with
    | none =>
      have hnothing : s.controller.releaseShutter cancelOk previewOk =
          { controller := s.controller } := by
        simp [SonyCameraController.releaseShutter,
          SonyCameraController.releaseShutterForGeneration, hc]
      simp only [ShutterState.effect, hnothing]
      exact .of_aside rfl rfl rfl rfl (List.Subset.refl _) .nil
    | some camera =>
      exact release_step camera ⟨_, List.Subset.refl _, rfl⟩ (fun _ _ => .inl rfl)
        fun camera' h => Option.some.inj (h.symm.trans hc)
  | delayedRelease i cancelOk previewOk => exact delayedRelease_step i cancelOk previewOk s
  | surfaceCreated previewOk =>
    obtain ⟨⟨ready, hc⟩, hcalls⟩ := startPreviewIfReady_aside previewOk
      { s.controller with surfaceReady := true }
    have heq : (s.controller.surfaceCreated previewOk).controller = _ := hc
    simp only [ShutterState.effect, heq]
    exact .of_aside rfl rfl rfl rfl (List.Subset.refl _) (hcalls .other)
  | surfaceDestroyed => exact .of_aside rfl rfl rfl rfl (List.Subset.refl _) .nil

/-! ## The last picture -/

/-- The last picture taken with the camera, and the releases since. -/
def watch (camera : CameraEx) (l : List ShutterAct) : Option (Nat × Nat) :=
  l.foldl (fun w a =>
    match a with
    | ⟨.capture generation, .takePicture c true⟩ => if c = camera then some (generation, 0) else w
    | a => if a.unlatches camera then w.map fun (generation, n) => (generation, n + 1) else w) none

theorem watch_snoc (camera : CameraEx) (l : List ShutterAct) (a : ShutterAct) :
    watch camera (l ++ [a]) =
      match a with
      | ⟨.capture generation, .takePicture c true⟩ =>
        if c = camera then some (generation, 0) else watch camera l
      | a =>
        if a.unlatches camera then (watch camera l).map fun (generation, n) => (generation, n + 1)
        else watch camera l := by
  simp [watch, List.foldl_append]

theorem watch_take (camera : CameraEx) (l : List ShutterAct) (generation : Nat) :
    watch camera (l ++ [⟨.capture generation, .takePicture camera true⟩]) =
      some (generation, 0) := by
  rw [watch_snoc]
  exact if_pos rfl

/-- An action that takes no picture with the camera. -/
theorem watch_other {a : ShutterAct} (h : a.takes camera = false) :
    watch camera (l ++ [a]) = if a.unlatches camera then
      (watch camera l).map fun (generation, n) => (generation, n + 1) else watch camera l := by
  rw [watch_snoc]
  split
  · rename_i generation c
    have hne : c ≠ camera := by simpa [ShutterAct.takes] using h
    rw [if_neg hne]
    exact (if_neg (by simp [ShutterAct.unlatches])).symm
  · rfl

theorem takes_iff {a : ShutterAct} : a.takes camera = true ↔
    ∃ generation, a = ⟨.capture generation, .takePicture camera true⟩ := by
  unfold ShutterAct.takes
  split
  · rename_i generation c
    simp
  · rename_i h
    simp only [Bool.false_eq_true, false_iff, not_exists]
    rintro generation rfl
    exact h generation camera rfl

/-- What stands behind the last picture. -/
theorem watch_append {m : List ShutterAct} (h : ∀ x ∈ m, x.takes camera = false) :
    watch camera (l ++ m) = (watch camera l).map fun (generation, n) =>
      (generation, n + m.countP (ShutterAct.unlatches camera)) := by
  induction m using List.reverseRecOn with
  | nil => simp
  | append_singleton m a ih =>
    have hm : ∀ x ∈ m, x.takes camera = false := fun x hx => h x (by simp [hx])
    rw [← List.append_assoc, watch_other (h a (by simp)), ih hm, List.countP_append]
    cases hw : watch camera l with
    | none => simp
    | some w =>
      by_cases ha : a.unlatches camera = true
      · simp [ha, Nat.add_assoc]
      · simp [ha]

/-- The last picture is in the log. -/
theorem watch_some {generation n : Nat} (h : watch camera l = some (generation, n)) :
    ∃ k m, l = k ++ ⟨.capture generation, .takePicture camera true⟩ :: m ∧
      (∀ x ∈ m, x.takes camera = false) ∧ m.countP (ShutterAct.unlatches camera) = n := by
  induction l using List.reverseRecOn generalizing n with
  | nil => cases h
  | append_singleton l a ih =>
    by_cases ha : a.takes camera = true
    · obtain ⟨g, rfl⟩ := takes_iff.1 ha
      rw [watch_take] at h
      cases h
      exact ⟨l, [], rfl, fun x hx => (by cases hx), rfl⟩
    · rw [Bool.not_eq_true] at ha
      rw [watch_other ha] at h
      split at h
      · rename_i hu
        obtain ⟨⟨g, n'⟩, hw, heq⟩ := Option.map_eq_some_iff.1 h
        cases heq
        obtain ⟨k, m, rfl, hm, hn⟩ := ih hw
        refine ⟨k, m ++ [a], by simp, fun x hx => ?_, by simp [List.countP_append, hn, hu]⟩
        rcases List.mem_append.1 hx with hx | hx
        · exact hm x hx
        · exact List.mem_singleton.1 hx ▸ ha
      · rename_i hu
        obtain ⟨k, m, rfl, hm, hn⟩ := ih h
        refine ⟨k, m ++ [a], by simp, fun x hx => ?_, ?_⟩
        · rcases List.mem_append.1 hx with hx | hx
          · exact hm x hx
          · exact List.mem_singleton.1 hx ▸ ha
        · simp [List.countP_append, hn, hu]

/-- After a picture, with none behind it. -/
theorem watch_behind {a : ShutterAct} {k m : List ShutterAct} (ha : a.takes camera = true)
    (h : ∀ x ∈ m, x.takes camera = false) : ∃ generation,
      watch camera (k ++ a :: m) =
        some (generation, m.countP (ShutterAct.unlatches camera)) := by
  obtain ⟨generation, rfl⟩ := takes_iff.1 ha
  refine ⟨generation, ?_⟩
  rw [← List.singleton_append, ← List.append_assoc, watch_append h, watch_take]
  simp

/-- What neither takes a picture nor releases the shutter goes unnoticed. -/
theorem watch_aloof (ha : Aloof o) : watch camera (l ++ o) = watch camera l := by
  have htakes : ∀ x ∈ o, x.takes camera = false := fun x hx => by
    by_contra hn
    obtain ⟨g, rfl⟩ := takes_iff.1 (by simpa using hn)
    have := (ha _ hx camera).1
    simp [ShutterAct.shoots] at this
  have hcount : o.countP (ShutterAct.unlatches camera) = 0 := by
    rw [List.countP_eq_zero]
    intro x hx hu
    have := (ha x hx camera).1
    unfold ShutterAct.unlatches at hu
    split at hu
    · simp_all [ShutterAct.shoots]
    · simp_all [ShutterAct.shoots]
    · cases hu
  rw [watch_append htakes, hcount]
  cases watch camera l <;> simp

/-! ## What holds of every run -/

/-- What the log says of the camera that is held, and of the pending tasks. -/
structure Tended (l : List ShutterAct) (s : ShutterState) : Prop where
  /-- The camera to come was not seen. -/
  known : ∀ a ∈ l, ∀ camera, a.shoots camera = true ∨ a.call = .release camera → camera < s.next
  held : ∀ camera, s.controller.cameraEx = some camera → camera < s.next ∧
    ∀ source, ⟨source, .release camera⟩ ∉ l
  inactive : s.controller.active = false → s.controller.cameraEx = none
  /-- While a capture is in progress its shutter is not released, and after it once. -/
  latched : ∀ camera, s.controller.cameraEx = some camera → ∀ w, watch camera l = some w →
    w.2 = if s.controller.captureInProgress then 0 else 1
  taken : ∀ camera, s.controller.cameraEx = some camera →
    s.controller.captureInProgress = true → watch camera l ≠ none
  tasks : ∀ generation camera, (generation, camera) ∈ s.controller.releaseTasks →
    generation ≤ s.controller.captureGeneration ∧
      (generation = s.controller.captureGeneration → ∃ n, watch camera l = some (generation, n))
  own : Own l
  ended : Over l

theorem takes_shoots {a : ShutterAct} (h : a.takes camera = true) : a.shoots camera = true := by
  obtain ⟨g, rfl⟩ := takes_iff.1 h
  simp [ShutterAct.shoots]

theorem Aloof.takes (ha : Aloof o) : ∀ x ∈ o, x.takes camera = false := fun x hx => by
  by_contra hn
  have := takes_shoots (by simpa using hn)
  rw [(ha x hx camera).1] at this
  cases this

/-- A camera that was not seen took no picture. -/
theorem Tended.watch_fresh (h : Tended l s) (hc : s.next ≤ camera) : watch camera l = none := by
  by_contra hw
  obtain ⟨⟨g, n⟩, hw⟩ := Option.ne_none_iff_exists'.1 hw
  obtain ⟨k, m, rfl, -⟩ := watch_some hw
  have := h.known ⟨.capture g, .takePicture camera true⟩ (by simp) camera
    (.inl (by simp [ShutterAct.shoots]))
  exact absurd this (Nat.not_lt.2 hc)

theorem Own.aloof (h : Own l) (ho : Aloof o) : Own (l ++ o) := by
  intro generation camera ok l₁ l₂ hl
  rcases split_append hl with ⟨r, hl, -⟩ | ⟨r, -, ho'⟩
  · exact h _ _ _ _ _ hl
  · have := (ho ⟨.task generation, .cancelTakePicture camera ok⟩ (by simp [ho']) camera).1
    simp [ShutterAct.shoots] at this

/-- Calls on the held camera, with no release among them. -/
theorem Over.append (h : Over l) (hnew : ∀ source camera, ⟨source, .release camera⟩ ∉ o)
    (ho : ∀ x ∈ o, ∀ camera, x.shoots camera = true → ∀ source, ⟨source, .release camera⟩ ∉ l) :
    Over (l ++ o) := by
  intro source camera l₁ l₂ hl x hx
  rcases split_append hl with ⟨r, rfl, rfl⟩ | ⟨r, -, ho'⟩
  · rcases List.mem_append.1 hx with hx | hx
    · exact h _ _ _ _ rfl x hx
    · by_contra hn
      exact ho x hx camera (by simpa using hn) source (by simp)
  · exact absurd (by simp [ho']) (hnew source camera)

theorem Over.aloof (h : Over l) (ho : Aloof o) : Over (l ++ o) :=
  h.append (fun source camera hm => (ho _ hm camera).2 rfl) fun x hx camera hs => by
    rw [(ho x hx camera).1] at hs
    cases hs

/-- A task that is not the last capture's stays that, and the last one's capture stays last. -/
theorem Tended.tasks_of {l' : List ShutterAct} (h : Tended l s)
    (hsub : s'.controller.releaseTasks ⊆ s.controller.releaseTasks)
    (hgen : s.controller.captureGeneration < s'.controller.captureGeneration) :
    ∀ generation camera, (generation, camera) ∈ s'.controller.releaseTasks →
      generation ≤ s'.controller.captureGeneration ∧
        (generation = s'.controller.captureGeneration →
          ∃ n, watch camera l' = some (generation, n)) := by
  intro generation camera hm
  have := (h.tasks _ _ (hsub hm)).1
  exact ⟨by omega, fun heq => by omega⟩

theorem known_append (h : Tended l s) (hnext : s.next ≤ s'.next)
    (ho : ∀ a ∈ o, ∀ camera, a.shoots camera = true ∨ a.call = .release camera →
      s.controller.cameraEx = some camera) :
    ∀ a ∈ l ++ o, ∀ camera, a.shoots camera = true ∨ a.call = .release camera →
      camera < s'.next := by
  intro a ha camera hc
  rcases List.mem_append.1 ha with ha | ha
  · exact Nat.lt_of_lt_of_le (h.known a ha camera hc) hnext
  · exact Nat.lt_of_lt_of_le (h.held camera (ho a ha camera hc)).1 hnext

theorem Aloof.known (ha : Aloof o) : ∀ a ∈ o, ∀ camera,
    a.shoots camera = true ∨ a.call = .release camera → s.controller.cameraEx = some camera := by
  rintro a hm camera (h | h)
  · rw [(ha a hm camera).1] at h
    cases h
  · exact absurd h (ha a hm camera).2

theorem Tended.aside (h : Tended l s) (next : s.next ≤ s'.next)
    (cameraEx : s'.controller.cameraEx = s.controller.cameraEx)
    (active : s'.controller.active = s.controller.active)
    (progress : s'.controller.captureInProgress = s.controller.captureInProgress)
    (generation : s'.controller.captureGeneration = s.controller.captureGeneration)
    (tasks : s'.controller.releaseTasks ⊆ s.controller.releaseTasks) (acts : Aloof o) :
    Tended (l ++ o) s' where
  known := known_append h next acts.known
  held := fun camera hc => by
    obtain ⟨hlt, hno⟩ := h.held camera (cameraEx ▸ hc)
    refine ⟨Nat.lt_of_lt_of_le hlt next, fun source hm => ?_⟩
    rcases List.mem_append.1 hm with hm | hm
    · exact hno source hm
    · exact (acts _ hm camera).2 rfl
  inactive := fun hi => cameraEx.trans (h.inactive (active ▸ hi))
  latched := fun camera hc w hw => by
    rw [watch_aloof acts] at hw
    rw [progress]
    exact h.latched camera (cameraEx ▸ hc) w hw
  taken := fun camera hc hp => by
    rw [watch_aloof acts]
    exact h.taken camera (cameraEx ▸ hc) (progress ▸ hp)
  tasks := fun g camera hm => by
    rw [watch_aloof acts, generation]
    exact h.tasks g camera (tasks hm)
  own := h.own.aloof acts
  ended := h.ended.aloof acts

theorem Tended.opened (h : Tended l s) (active : s'.controller.active = true)
    (next : s'.next = s.next + 1)
    (cameraEx : s'.controller.cameraEx = some s.next ∨ s'.controller.cameraEx = none)
    (progress : s'.controller.captureInProgress = false)
    (generation : s'.controller.captureGeneration = s.controller.captureGeneration)
    (tasks : s'.controller.releaseTasks = s.controller.releaseTasks) (acts : Aloof o) :
    Tended (l ++ o) s' where
  known := known_append h (next ▸ Nat.le_succ _) acts.known
  held := fun camera hc => by
    rcases cameraEx with hs | hs <;> rw [hs] at hc <;> cases hc
    refine ⟨next ▸ Nat.lt_succ_self _, fun source hm => ?_⟩
    rcases List.mem_append.1 hm with hm | hm
    · exact absurd (h.known _ hm s.next (.inr rfl)) (Nat.lt_irrefl _)
    · exact (acts _ hm s.next).2 rfl
  inactive := fun hi => by
    rw [active] at hi
    cases hi
  latched := fun camera hc w hw => by
    rcases cameraEx with hs | hs <;> rw [hs] at hc <;> cases hc
    rw [watch_aloof acts, h.watch_fresh (Nat.le_refl _)] at hw
    cases hw
  taken := fun camera hc hp => by
    rw [progress] at hp
    cases hp
  tasks := fun g camera hm => by
    rw [watch_aloof acts, generation]
    exact h.tasks g camera (tasks ▸ hm)
  own := h.own.aloof acts
  ended := h.ended.aloof acts

theorem Tended.closed (h : Tended l s) (next : s'.next = s.next)
    (cameraEx : s'.controller.cameraEx = none) (tasks : s'.controller.releaseTasks = [])
    (acts : (s.controller.cameraEx = none ∧ o = []) ∨
      ∃ camera, s.controller.cameraEx = some camera ∧ o = closing camera) :
    Tended (l ++ o) s' where
  known := by
    refine known_append h (Nat.le_of_eq next.symm) fun a ha camera hc => ?_
    rcases acts with ⟨-, rfl⟩ | ⟨camera', hcamera, rfl⟩
    · cases ha
    · rw [hcamera]
      simp only [closing, List.mem_cons, List.not_mem_nil, or_false] at ha
      rcases ha with rfl | rfl | rfl
      · simp [ShutterAct.shoots] at hc
      · simpa [ShutterAct.shoots] using hc
      · simpa [ShutterAct.shoots] using hc
  held := fun camera hc => by
    rw [cameraEx] at hc
    cases hc
  inactive := fun _ => cameraEx
  latched := fun camera hc => by
    rw [cameraEx] at hc
    cases hc
  taken := fun camera hc => by
    rw [cameraEx] at hc
    cases hc
  tasks := fun g camera hm => by
    rw [tasks] at hm
    cases hm
  own := by
    rcases acts with ⟨-, rfl⟩ | ⟨camera', hcamera, rfl⟩
    · rw [List.append_nil]
      exact h.own
    · intro g camera ok l₁ l₂ hl
      rcases split_append hl with ⟨r, hl, -⟩ | ⟨r, -, ho⟩
      · exact h.own _ _ _ _ _ hl
      · have : (⟨.task g, .cancelTakePicture camera ok⟩ : ShutterAct) ∈ closing camera' := by
          rw [ho]
          simp
        simp [closing] at this
  ended := by
    rcases acts with ⟨-, rfl⟩ | ⟨camera', hcamera, rfl⟩
    · rw [List.append_nil]
      exact h.ended
    · intro source camera l₁ l₂ hl x hx
      rcases split_append hl with ⟨r, rfl, rfl⟩ | ⟨r, -, ho⟩
      · rcases List.mem_append.1 hx with hx | hx
        · exact h.ended _ _ _ _ rfl x hx
        · have hne : camera' ≠ camera := by
            rintro rfl
            exact (h.held camera' hcamera).2 source (by simp)
          simp only [closing, List.mem_cons, List.not_mem_nil, or_false] at hx
          rcases hx with rfl | rfl | rfl <;> simp [ShutterAct.shoots, hne]
      · -- the release is the last of these calls
        have hl₂ : l₂ = [] := by
          rcases r with _ | ⟨a, _ | ⟨b, _ | ⟨c, r⟩⟩⟩ <;> simp [closing] at ho
          exact ho.2.2.2
        rw [hl₂] at hx
        cases hx

theorem getCameraEx_some (h : c.getCameraEx = some camera) : c.cameraEx = some camera := by
  unfold SonyCameraController.getCameraEx at h
  split at h
  · exact h
  · cases h

/-- A picture, taken or tried. -/
theorem known_take {ok : Bool} (hc : s.controller.cameraEx = some camera) :
    ∀ a ∈ [(⟨.capture generation, .takePicture camera ok⟩ : ShutterAct)], ∀ camera',
      a.shoots camera' = true ∨ a.call = .release camera' →
        s.controller.cameraEx = some camera' := by
  rintro a ha camera' h
  rw [List.mem_singleton.1 ha] at h
  rw [hc]
  simpa [ShutterAct.shoots] using h

theorem Tended.own_take {ok : Bool} (h : Tended l s) :
    Own (l ++ [⟨.capture generation, .takePicture camera ok⟩]) := by
  intro g camera' ok' l₁ l₂ hl
  rcases split_append hl with ⟨r, hl, -⟩ | ⟨r, -, ho⟩
  · exact h.own _ _ _ _ _ hl
  · rcases r with _ | ⟨a, r⟩ <;> simp at ho

theorem Tended.over_take {ok : Bool} (h : Tended l s) (hc : s.controller.cameraEx = some camera) :
    Over (l ++ [⟨.capture generation, .takePicture camera ok⟩]) := by
  refine h.ended.append (by simp) fun x hx camera' hs => ?_
  rw [List.mem_singleton.1 hx] at hs
  obtain rfl : camera = camera' := by simpa [ShutterAct.shoots] using hs
  exact (h.held _ hc).2

/-- After a picture with the held camera. -/
theorem Tended.took (h : Tended l s) (ready : s.controller.getCameraEx = some camera) :
    Tended (l ++ [⟨.capture (s.controller.captureGeneration + 1), .takePicture camera true⟩])
      { s with
        controller.captureGeneration := s.controller.captureGeneration + 1
        controller.captureInProgress := true
        controller.previewReady := false
        controller.releaseTasks :=
          s.controller.releaseTasks ++ [(s.controller.captureGeneration + 1, camera)] } where
  known := known_append h (Nat.le_refl _) (known_take (getCameraEx_some ready))
  held := fun camera' hc => by
    obtain ⟨hlt, hno⟩ := h.held camera' hc
    exact ⟨hlt, fun source hm => (List.mem_append.1 hm).elim (hno source) fun hm => by simp at hm⟩
  inactive := h.inactive
  latched := fun camera' hc w hw => by
    obtain rfl : camera = camera' := Option.some.inj ((getCameraEx_some ready).symm.trans hc)
    rw [watch_take] at hw
    cases hw
    rfl
  taken := fun camera' hc hp => by
    obtain rfl : camera = camera' := Option.some.inj ((getCameraEx_some ready).symm.trans hc)
    rw [watch_take]
    exact (by simp)
  tasks := fun g camera' hm => by
    rcases List.mem_append.1 hm with hm | hm
    · have := (h.tasks g camera' hm).1
      exact ⟨Nat.le_succ_of_le this, fun heq => by dsimp only at heq; omega⟩
    · obtain ⟨rfl, rfl⟩ := Prod.mk.inj (List.mem_singleton.1 hm)
      exact ⟨Nat.le_refl _, fun _ => ⟨0, watch_take ..⟩⟩
  own := h.own_take
  ended := h.over_take (getCameraEx_some ready)

/-- A picture that could not be taken. -/
theorem Tended.failed (h : Tended l s) (ready : s.controller.getCameraEx = some camera) :
    Tended (l ++ [⟨.capture (s.controller.captureGeneration + 1), .takePicture camera false⟩])
      { s with controller.captureGeneration := s.controller.captureGeneration + 1 } := by
  have hwatch : ∀ camera', watch camera' (l ++
      [⟨.capture (s.controller.captureGeneration + 1), .takePicture camera false⟩]) =
        watch camera' l := fun camera' => by
    rw [watch_other (by rfl)]
    exact if_neg (by simp [ShutterAct.unlatches])
  exact
    { known := known_append h (Nat.le_refl _) (known_take (getCameraEx_some ready))
      held := fun camera' hc => by
        obtain ⟨hlt, hno⟩ := h.held camera' hc
        exact ⟨hlt, fun source hm =>
          (List.mem_append.1 hm).elim (hno source) fun hm => by simp at hm⟩
      inactive := h.inactive
      latched := fun camera' hc w hw => h.latched camera' hc w (hwatch camera' ▸ hw)
      taken := fun camera' hc hp => hwatch camera' ▸ h.taken camera' hc hp
      tasks := h.tasks_of (List.Subset.refl _) (Nat.lt_succ_self _)
      own := h.own_take
      ended := h.over_take (getCameraEx_some ready) }

/-- After the release of the shutter. -/
theorem Tended.released {source : Source} {ok : Bool} {rest : List ShutterAct} (h : Tended l s)
    (held : s.controller.cameraEx = some camera) (progress : s.controller.captureInProgress = true)
    (source_eq : source = .releaseShutter ∨
      source = .task s.controller.captureGeneration ∧
        (s.controller.captureGeneration, camera) ∈ s.controller.releaseTasks)
    (next : s'.next = s.next) (cameraEx : s'.controller.cameraEx = s.controller.cameraEx)
    (active : s'.controller.active = s.controller.active)
    (progress' : s'.controller.captureInProgress = false)
    (generation : s.controller.captureGeneration < s'.controller.captureGeneration)
    (tasks : s'.controller.releaseTasks ⊆ s.controller.releaseTasks) (aloof : Aloof rest) :
    Tended (l ++ ⟨source, .cancelTakePicture camera ok⟩ :: rest) s' := by
  have hwatch : watch camera (l ++ ⟨source, .cancelTakePicture camera ok⟩ :: rest) =
      (watch camera l).map fun (generation, n) => (generation, n + 1) := by
    rw [← List.singleton_append, ← List.append_assoc, watch_aloof aloof, watch_other (by
      rcases source_eq with rfl | ⟨rfl, -⟩ <;> rfl)]
    apply if_pos
    rcases source_eq with rfl | ⟨rfl, -⟩ <;> simp [ShutterAct.unlatches]
  exact
    { known := by
        refine known_append h (Nat.le_of_eq next.symm) fun a ha camera' hc => ?_
        rcases List.mem_cons.1 ha with rfl | ha
        · rw [held]
          simpa [ShutterAct.shoots] using hc
        · exact aloof.known a ha camera' hc
      held := fun camera' hc => by
        obtain ⟨hlt, hno⟩ := h.held camera' (cameraEx ▸ hc)
        refine ⟨next ▸ hlt, fun source' hm => ?_⟩
        rcases List.mem_append.1 hm with hm | hm
        · exact hno source' hm
        · rcases List.mem_cons.1 hm with hm | hm
          · simp at hm
          · exact (aloof _ hm camera').2 rfl
      inactive := fun hi => cameraEx.trans (h.inactive (active ▸ hi))
      latched := fun camera' hc w hw => by
        obtain rfl : camera = camera' := Option.some.inj (held.symm.trans (cameraEx ▸ hc))
        rw [hwatch] at hw
        obtain ⟨⟨g, n⟩, hw', rfl⟩ := Option.map_eq_some_iff.1 hw
        have hzero := h.latched camera held _ hw'
        rw [progress] at hzero
        rw [progress']
        simpa using hzero
      taken := fun camera' hc hp => by
        rw [progress'] at hp
        cases hp
      tasks := h.tasks_of tasks generation
      own := by
        intro g camera' ok' l₁ l₂ hl
        rcases split_append hl with ⟨r, hl, -⟩ | ⟨r, rfl, ho⟩
        · exact h.own _ _ _ _ _ hl
        · cases r with
          | nil =>
            obtain ⟨ha, -⟩ := List.cons.inj ho
            cases ha
            rcases source_eq with hs | ⟨hs, hm⟩ <;> cases hs
            obtain ⟨n, hw⟩ := (h.tasks _ _ hm).2 rfl
            obtain ⟨k, m, rfl, hm, -⟩ := watch_some hw
            exact ⟨k, m, by simp, hm⟩
          | cons a r =>
            have hmem : ⟨.task g, .cancelTakePicture camera' ok'⟩ ∈ rest := by
              rw [(List.cons.inj ho).2]
              simp
            have := (aloof _ hmem camera').1
            simp [ShutterAct.shoots] at this
      ended := by
        refine h.ended.append (fun source' camera' hm => ?_) fun x hx camera' hs => ?_
        · rcases List.mem_cons.1 hm with hm | hm
          · simp at hm
          · exact (aloof _ hm camera').2 rfl
        · rcases List.mem_cons.1 hx with rfl | hx
          · obtain rfl : camera = camera' := by simpa [ShutterAct.shoots] using hs
            exact (h.held camera held).2
          · rw [(aloof x hx camera').1] at hs
            cases hs }

theorem Tended.step (h : Tended l s) (hs : e.Step s s' o) : Tended (l ++ o) s' := by
  cases hs with
  | aside next cameraEx active progress generation tasks acts =>
    exact h.aside next cameraEx active progress generation tasks acts
  | opened inactive active next cameraEx progress generation tasks acts =>
    exact h.opened active next cameraEx progress generation tasks acts
  | closed next cameraEx active tasks generation acts => exact h.closed next cameraEx tasks acts
  | took camera event ready eq acts => exact eq ▸ acts ▸ h.took ready
  | failed camera ready eq acts => exact eq ▸ acts ▸ h.failed ready
  | released camera source ok rest held progress source_eq next cameraEx active progress'
      generation tasks acts aloof =>
    exact acts ▸ h.released held progress source_eq next cameraEx active progress' generation
      tasks aloof

variable {G : Guard ShutterState ShutterEvent ShutterAct} {es : List ShutterEvent}

theorem run_tended (h : Reach shutter G {} es l s) : Tended l s := by
  refine h.inv ⟨?_, ?_, ?_, ?_, ?_, ?_, ?_, ?_⟩ fun _ _ _ _ _ hi _ hs => hi.step (shutter_step hs)
  · exact fun a ha => by cases ha
  · exact fun camera hc => by cases hc
  · exact fun _ => rfl
  · exact fun camera hc => by cases hc
  · exact fun camera hc => by cases hc
  · exact fun g camera hm => by cases hm
  · exact fun g camera ok l₁ l₂ hl => by simp at hl
  · exact fun source camera l₁ l₂ hl => by simp at hl

/-! ## One release between two pictures -/

theorem takes_unique {a : ShutterAct} {camera' : CameraEx} (h : a.takes camera = true)
    (h' : a.takes camera' = true) : camera = camera' := by
  obtain ⟨g, rfl⟩ := takes_iff.1 h
  simpa [ShutterAct.takes] using h'

theorem once_append_iff (ho : ∀ x ∈ o, ∀ camera, x.takes camera = false) :
    Once (l ++ o) ↔ Once l := by
  constructor
  · intro h camera l₁ a m b l₂ hl
    exact h camera l₁ a m b (l₂ ++ o) (by simp [hl])
  · intro h camera l₁ a m b l₂ hl ha hb hm
    rw [← List.cons_append, ← List.append_assoc] at hl
    rcases split_append hl with ⟨r, hl, -⟩ | ⟨r, -, ho'⟩
    · exact h camera l₁ a m b r (by rw [hl]; simp) ha hb hm
    · rw [ho b (by simp [ho'])] at hb
      cases hb

theorem once_take_iff (camera : CameraEx) {b : ShutterAct} (hb : b.takes camera = true) :
    Once (l ++ [b]) ↔ Once l ∧ ∀ w, watch camera l = some w → w.2 = 1 := by
  constructor
  · intro h
    refine ⟨fun camera l₁ a m b' l₂ hl => h camera l₁ a m b' (l₂ ++ [b]) (by simp [hl]), ?_⟩
    rintro ⟨g, n⟩ hw
    obtain ⟨k, m, rfl, hm, hn⟩ := watch_some hw
    exact hn.symm.trans (h camera k _ m b [] (by simp) (takes_iff.2 ⟨g, rfl⟩) hb hm)
  · rintro ⟨h, hw⟩ camera' l₁ a m b' l₂ hl ha hb' hm
    rw [← List.cons_append, ← List.append_assoc] at hl
    rcases split_append hl with ⟨r, hl, -⟩ | ⟨r, hl₁, hr⟩
    · exact h camera' l₁ a m b' r (by rw [hl]; simp) ha hb' hm
    · cases r with
      | nil =>
        obtain rfl : b = b' := (List.cons.inj hr).1
        obtain rfl := takes_unique hb hb'
        obtain ⟨g, hg⟩ := watch_behind (k := l₁) ha hm
        rw [List.append_nil] at hl₁
        exact hw _ (hl₁ ▸ hg)
      | cons x r => simp at hr

/-- A step that is no picture takes none. -/
theorem ShutterEvent.Step.quiet (hs : e.Step s s' o)
    (h : e = .capture true → s.controller.getCameraEx = none) :
    ∀ x ∈ o, ∀ camera, x.takes camera = false := by
  cases hs with
  | aside next cameraEx active progress generation tasks acts => exact fun x hx _ => acts.takes x hx
  | opened inactive active next cameraEx progress generation tasks acts =>
    exact fun x hx _ => acts.takes x hx
  | closed next cameraEx active tasks generation acts =>
    intro x hx camera
    rcases acts with ⟨-, rfl⟩ | ⟨camera', -, rfl⟩
    · cases hx
    · simp only [closing, List.mem_cons, List.not_mem_nil, or_false] at hx
      rcases hx with rfl | rfl | rfl <;> rfl
  | took camera event ready eq acts =>
    rw [h event] at ready
    cases ready
  | failed camera ready eq acts =>
    intro x hx camera'
    rw [acts, List.mem_singleton] at hx
    rw [hx]
    rfl
  | released camera source ok rest held progress source_eq next cameraEx active progress'
      generation tasks acts aloof =>
    intro x hx camera'
    rw [acts] at hx
    rcases List.mem_cons.1 hx with rfl | hx
    · rcases source_eq with rfl | ⟨rfl, -⟩ <;> rfl
    · exact aloof.takes x hx

/-- **A step keeps to one release between pictures just when it takes none with one under way.** -/
theorem once_step_iff (h : Tended l s) (hs : shutter.step s e = some (s', o)) :
    Once (l ++ o) ↔ Once l ∧ onePicture l s e := by
  by_cases ht : e = .capture true ∧ s.controller.getCameraEx ≠ none
  · obtain ⟨rfl, hready⟩ := ht
    obtain ⟨camera, hc⟩ := Option.ne_none_iff_exists'.1 hready
    have hheld := getCameraEx_some hc
    have ho : o = [⟨.capture (s.controller.captureGeneration + 1), .takePicture camera true⟩] := by
      cases hs
      simp [ShutterState.effect, SonyCameraController.capture, hc, ShutterState.source]
    rw [ho, once_take_iff camera (takes_iff.2 ⟨_, rfl⟩)]
    refine and_congr_right fun _ => ⟨fun hw _ => ?_, fun hg w hw => ?_⟩
    · by_contra hp
      rw [Bool.not_eq_false] at hp
      obtain ⟨w, hsome⟩ := Option.ne_none_iff_exists'.1 (h.taken camera hheld hp)
      have hone := hw w hsome
      rw [h.latched camera hheld w hsome, hp] at hone
      cases hone
    · rw [h.latched camera hheld w hw, hg hready]
      rfl
  · have hguard : onePicture l s e := by
      unfold onePicture
      split
      · exact fun hready => absurd ⟨rfl, hready⟩ ht
      · trivial
    have hquiet := (shutter_step hs).quiet fun he => by
      by_contra hn
      exact ht ⟨he, hn⟩
    rw [once_append_iff hquiet]
    exact ⟨fun ho => ⟨ho, hguard⟩, fun ho => ho.1⟩

theorem protocol_iff (h : Tended l s) : ShutterProtocol l ↔ Once l :=
  ⟨fun hp => hp.once, fun ho => ⟨ho, h.own, h.ended⟩⟩

/-- **The shutter protocol holds in exactly the runs that take no picture with one under way.** -/
theorem shutter_protocol_iff :
    Reach shutter onePicture {} es l s ↔ Run shutter {} es l s ∧ ShutterProtocol l := by
  constructor
  · intro h
    refine ⟨h.run, (protocol_iff (run_tended h)).2 ?_⟩
    induction h with
    | init => exact fun camera l₁ a m b l₂ hl => by simp at hl
    | step h hg hs ih => exact (once_step_iff (run_tended h) hs).2 ⟨ih, hg⟩
  · rintro ⟨h, hp⟩
    have ho := hp.once
    clear hp
    induction h with
    | init => exact .init
    | step h hg hs ih =>
      obtain ⟨ho, hg⟩ := (once_step_iff (run_tended h) hs).1 ho
      exact .step (ih ho) hg hs

/-! ## A surface created anew -/

/-- The surface is destroyed and created between a capture and its release. -/
def doubleSession : List ShutterEvent :=
  [.start true true, .surfaceCreated true, .capture true, .surfaceDestroyed, .surfaceCreated true,
    .capture true]

/-- Two pictures, and no release between them. -/
def doubleLog : List ShutterAct :=
  [⟨.other, .openCamera true⟩, ⟨.other, .startPreview 0 true⟩,
    ⟨.capture 1, .takePicture 0 true⟩, ⟨.other, .startPreview 0 true⟩,
    ⟨.capture 2, .takePicture 0 true⟩]

theorem two_pictures : ∃ s, Run shutter {} doubleSession doubleLog s ∧
    ¬ ShutterProtocol doubleLog := by
  obtain ⟨l, s, h, hp⟩ := run_of_exec (M := shutter) (s := {}) doubleSession
    (p := fun x => x.2 == doubleLog) (by decide)
  obtain rfl : l = doubleLog := by simpa using hp
  refine ⟨s, h, fun hp => ?_⟩
  have hone := hp.once 0 _ _ [⟨.other, .startPreview 0 true⟩] ⟨.capture 2, .takePicture 0 true⟩ []
    (show doubleLog = [⟨.other, .openCamera true⟩, ⟨.other, .startPreview 0 true⟩] ++
      ⟨.capture 1, .takePicture 0 true⟩ :: _ from rfl) rfl rfl (by decide)
  exact absurd hone (by decide)

end RetroLens.Camera
