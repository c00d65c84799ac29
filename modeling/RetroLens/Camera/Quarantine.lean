import RetroLens.Camera.Activity

/-!
# Camera quarantine

`onPause` releases the camera when `stopSequence` reports success, and
`stopSequence` reports success when there is no current source. A pause whose
joins time out clears `frameSource` and sets `cameraQuarantined`, but the next
pause does not look at `cameraQuarantined`: it finds no source and releases
the camera under the worker that is still running.

`Wf` holds in every state: outside quarantine the only worker that can be
alive is the current source's, on the camera the controller holds; in
quarantine there is no current source and none is started. It decides the
guarantee exactly (`release_after_worker_iff`).
-/

namespace RetroLens.Camera

open Runs SonyCameraController

/-- A source whose `workerThread` has been cleared is not alive. -/
def FrameSource.Joined (s : FrameSource) : Prop := s.workerThread = false → s.alive = false

/-- An element of a list with one more at its end. -/
theorem getElem?_snoc {α : Type} {l : List α} {x y : α} {i : Nat} (h : (l ++ [x])[i]? = some y) :
    l[i]? = some y ∨ (i = l.length ∧ y = x) := by
  rcases Nat.lt_trichotomy i l.length with hi | rfl | hi
  · exact .inl (by rwa [List.getElem?_append_left hi] at h)
  · exact .inr ⟨rfl, by simpa [eq_comm] using h⟩
  · rw [List.getElem?_eq_none (by simp; omega)] at h; cases h

namespace Activity

structure Wf (a : Activity) : Prop where
  held : a.controller.Held
  ready : ∀ camera, a.readyCamera = some camera → a.controller.cameraEx = some camera
  current : ∀ (i : Nat) (s : FrameSource), a.frameSource = some i → a.sources[i]? = some s →
    a.controller.cameraEx = some s.camera
  bound : ∀ i, a.frameSource = some i → i < a.sources.length
  joined : ∀ (i : Nat) (s : FrameSource), a.sources[i]? = some s → s.Joined
  alive : a.cameraQuarantined = false → ∀ (i : Nat) (s : FrameSource), a.sources[i]? = some s →
    s.alive = true → a.frameSource = some i
  quarantined : a.cameraQuarantined = true →
    a.resumed = false ∧ a.readyCamera = none ∧ a.frameSource = none

theorem wf_init : Wf {} :=
  ⟨fun _ => rfl, by simp, by simp, by simp, by simp, by simp, by simp⟩

/-- `Wf` does not look at the native runtime's fields. -/
theorem Wf.of_eq {a b : Activity} (h : Wf a) (hc : b.controller = a.controller)
    (hr : b.readyCamera = a.readyCamera) (hf : b.frameSource = a.frameSource)
    (hs : b.sources = a.sources) (hq : b.cameraQuarantined = a.cameraQuarantined)
    (hm : b.resumed = a.resumed) : Wf b := by
  obtain ⟨h1, h2, h3, h4, h5, h6, h7⟩ := h
  exact ⟨hc ▸ h1, hr ▸ hc ▸ h2, hf ▸ hs ▸ hc ▸ h3, hf ▸ hs ▸ h4, hs ▸ h5, hq ▸ hs ▸ hf ▸ h6,
    hq ▸ hm ▸ hr ▸ hf ▸ h7⟩

/-- A callback that may start a frame worker, but leaves the camera alone. -/
structure Calm (a b : Activity) : Prop where
  wf : Wf b
  controller : b.controller = a.controller
  quarantined : b.cameraQuarantined = a.cameraQuarantined
  /-- In quarantine nothing is started. -/
  sources : a.cameraQuarantined = true → b.sources = a.sources

theorem Calm.refl {a : Activity} (h : Wf a) : Calm a a := ⟨h, rfl, rfl, fun _ => rfl⟩

theorem Calm.trans {a b c : Activity} (h : Calm a b) (h' : Calm b c) : Calm a c :=
  ⟨h'.wf, h'.controller.trans h.controller, h'.quarantined.trans h.quarantined, fun hq =>
    (h'.sources (h.quarantined.trans hq)).trans (h.sources hq)⟩

theorem startSequenceIfReady_calm {a : Activity} (h : Wf a) : Calm a a.startSequenceIfReady := by
  unfold startSequenceIfReady
  split
  · exact .refl h
  · rename_i camera hready
    split
    · exact .refl h
    · rename_i hgo
      simp only [Bool.or_eq_true, Bool.not_eq_true', not_or, Bool.not_eq_false,
        Bool.not_eq_true, Option.isSome_eq_false_iff, Option.isNone_iff_eq_none] at hgo
      obtain ⟨⟨hres, -⟩, hnone⟩ := hgo
      -- no source was current, so outside quarantine none of the old workers is alive
      have hq : a.cameraQuarantined = false := by
        cases hq : a.cameraQuarantined with
        | false => rfl
        | true => simp [(h.quarantined hq).1] at hres
      refine ⟨⟨h.held, h.ready, ?_, ?_, ?_, ?_, ?_⟩, rfl, rfl, by simp [hq]⟩
      · intro i s hi hs
        cases hi
        simp only [List.getElem?_concat_length, Option.some.injEq] at hs
        subst hs
        exact h.ready camera hready
      · intro i hi
        cases hi
        simp
      · intro i s hs
        rcases getElem?_snoc hs with hs | ⟨-, rfl⟩
        · exact h.joined i s hs
        · exact fun hw => by cases hw
      · intro _ i s hs hal
        rcases getElem?_snoc hs with hs | ⟨rfl, -⟩
        · have := h.alive hq i s hs hal
          simp [hnone] at this
        · rfl
      · simp [hq]

theorem onNativeRuntimeReady_calm {a : Activity} (h : Wf a) : Calm a a.onNativeRuntimeReady := by
  unfold onNativeRuntimeReady
  split
  · exact .refl h
  · obtain ⟨h1, h2, h3, h4⟩ := startSequenceIfReady_calm
      (a := { a with nativeRuntimeReady := true }) (h.of_eq rfl rfl rfl rfl rfl rfl)
    exact ⟨h1, h2, h3, h4⟩

theorem onAnalyticalPreviewUnavailable_calm {a : Activity} (h : Wf a) :
    Calm a a.onAnalyticalPreviewUnavailable := by
  unfold onAnalyticalPreviewUnavailable
  split
  · exact .refl h
  · exact ⟨h.of_eq rfl rfl rfl rfl rfl rfl, rfl, rfl, fun _ => rfl⟩

theorem probeStart_calm {a : Activity} (n : Bool) (h : Wf a) : Calm a (a.probeStart n) := by
  unfold probeStart
  split
  · exact .refl h
  · split
    · obtain ⟨h1, h2, h3, h4⟩ := onNativeRuntimeReady_calm
        (a := { a with probeActive := true }) (h.of_eq rfl rfl rfl rfl rfl rfl)
      exact ⟨h1, h2, h3, h4⟩
    · exact onAnalyticalPreviewUnavailable_calm h

/-- The camera-ready callback, for the camera that the controller holds. -/
theorem onCameraReady_calm {a : Activity} (n : Bool) {camera : CameraEx} (h : Wf a)
    (hc : a.controller.cameraEx = some camera) : Calm a (a.onCameraReady n camera) := by
  unfold onCameraReady
  split
  · exact .refl h
  · rename_i hres
    have hq : a.cameraQuarantined = false := by
      cases hq : a.cameraQuarantined with
      | false => rfl
      | true => simp [(h.quarantined hq).1] at hres
    have h' : Calm a { a with readyCamera := some camera } :=
      ⟨⟨h.held, fun _ e => by cases e; exact hc, h.current, h.bound, h.joined, h.alive,
        by simp [hq]⟩, rfl, rfl, fun _ => rfl⟩
    unfold startRuntimeIfReady
    split
    · exact h'
    · exact h'.trans (probeStart_calm n h'.wf)

/-- What a controller method that keeps the camera leaves. -/
theorem deliver_calm {a : Activity} {e : Effect} (n : Bool) (h : Wf a)
    (he : a.controller.Keeps e) : Wf (deliver n a e) ∧
      (deliver n a e).controller.cameraEx = a.controller.cameraEx ∧
      (deliver n a e).cameraQuarantined = a.cameraQuarantined ∧
      (a.cameraQuarantined = true → (deliver n a e).sources = a.sources) := by
  have h' : Wf { a with controller := e.controller } :=
    ⟨fun ha => he.cameraEx.trans (h.held (he.active.symm.trans ha)),
      fun c hc => he.cameraEx.trans (h.ready c hc),
      fun i s hi hs => he.cameraEx.trans (h.current i s hi hs), h.bound, h.joined, h.alive,
      h.quarantined⟩
  unfold deliver
  split
  · exact ⟨h', he.cameraEx, rfl, fun _ => rfl⟩
  · rename_i camera hr
    have hx := onCameraReady_calm n h' (he.cameraEx.trans (he.ready camera hr))
    exact ⟨hx.wf, (congrArg _ hx.controller).trans he.cameraEx, hx.quarantined, hx.sources⟩

theorem mem_liveCameras {a : Activity} {c : CameraEx} :
    c ∈ a.liveCameras ↔
      ∃ (i : Nat) (s : FrameSource), a.sources[i]? = some s ∧ s.alive = true ∧ s.camera = c := by
  simp only [liveCameras, List.mem_map, List.mem_filter, List.mem_iff_getElem? (l := a.sources)]
  constructor
  · rintro ⟨s, ⟨⟨i, hi⟩, ha⟩, rfl⟩
    exact ⟨i, s, hi, ha, rfl⟩
  · rintro ⟨i, s, hi, ha, rfl⟩
    exact ⟨s, ⟨⟨i, hi⟩, ha⟩, rfl⟩

/-! ## What one event does -/

/-- An event that neither releases the camera nor quarantines it. -/
structure Spares (a : Activity) (r : Activity × List SonyCall) : Prop where
  wf : Wf r.1
  quarantined : r.1.cameraQuarantined = a.cameraQuarantined
  unreleased : ∀ camera, .release camera ∉ r.2
  /-- In quarantine the camera stays, and no worker appears. -/
  frozen : a.cameraQuarantined = true → r.1.controller.cameraEx = a.controller.cameraEx ∧
    ∀ c ∈ r.1.liveCameras, c ∈ a.liveCameras

theorem Calm.spares {a b : Activity} (h : Calm a b) : Spares a (b, []) :=
  ⟨h.wf, h.quarantined, by simp, fun hq =>
    ⟨by simp [h.controller], fun c hc => by simpa [liveCameras, h.sources hq] using hc⟩⟩

/-- A controller method that keeps the camera, with its camera-ready callback. -/
theorem deliver_spares {a : Activity} {e : Effect} (n : Bool) (h : Wf a)
    (he : a.controller.Keeps e) : Spares a (deliver n a e, e.calls) := by
  obtain ⟨h1, h2, h3, h4⟩ := deliver_calm n h he
  exact ⟨h1, h3, he.unreleased, fun hq =>
    ⟨h2, fun c hc => by simpa [liveCameras, h4 hq] using hc⟩⟩

/-- Without a camera there is no current source. -/
theorem Wf.no_source {a : Activity} (h : Wf a) (hc : a.controller.cameraEx = none) :
    a.frameSource = none := by
  cases hf : a.frameSource with
  | none => rfl
  | some i =>
    have := h.current i _ hf (List.getElem?_eq_getElem (h.bound i hf))
    simp [hc] at this

theorem onResume_spares {a : Activity} (o p n : Bool) (h : Wf a) :
    Spares a (onResume o p n a) := by
  unfold onResume
  split
  · exact (Calm.refl h).spares
  · rename_i hq
    simp only [Bool.not_eq_true] at hq
    rcases start_cases a.opened o p a.controller with ⟨-, he⟩ | ⟨ha, hact, -, hr, hu⟩
    · rw [he]
      exact ⟨⟨h.held, by simp [deliver], h.current, h.bound, h.joined, h.alive,
        by simp [deliver, hq]⟩, rfl, by simp, by simp [hq]⟩
    · -- an inactive controller: no source is current, so no worker is alive
      have hf := h.no_source (h.held ha)
      set e := a.controller.start a.opened o p
      have h' : Wf { a with controller := e.controller, resumed := true
                            nativeRuntimeReady := false, readyCamera := none
                            opened := a.opened + 1 } :=
        ⟨fun hx => by simp [hact] at hx, by simp, by simp [hf], h.bound, h.joined, h.alive,
          by simp [hq]⟩
      suffices hd : Wf (deliver n { a with resumed := true, nativeRuntimeReady := false
                                           readyCamera := none, opened := a.opened + 1 } e) ∧
          (deliver n { a with resumed := true, nativeRuntimeReady := false
                              readyCamera := none, opened := a.opened + 1 } e).cameraQuarantined
            = a.cameraQuarantined from ⟨hd.1, hd.2, hu, by simp [hq]⟩
      unfold deliver
      split
      · exact ⟨h', rfl⟩
      · rename_i camera hc
        have hx := onCameraReady_calm n h' (hr camera hc)
        exact ⟨hx.wf, hx.quarantined⟩

theorem previewUnavailable_calm {a : Activity} (h : Wf a) : Calm a a.previewUnavailable := by
  unfold previewUnavailable
  split
  · obtain ⟨h1, h2, h3, h4⟩ := onAnalyticalPreviewUnavailable_calm
      (a := { a with probeActive := false }) (h.of_eq rfl rfl rfl rfl rfl rfl)
    exact ⟨h1, h2, h3, h4⟩
  · exact .refl h

theorem sequenceUnavailable_calm {a : Activity} (h : Wf a) : Calm a a.sequenceUnavailable := by
  unfold sequenceUnavailable
  split
  · exact ⟨h.of_eq rfl rfl rfl rfl rfl rfl, rfl, rfl, fun _ => rfl⟩
  · exact .refl h

theorem workerEnds_spares {a : Activity} (i : Nat) (h : Wf a) :
    Spares a (a.workerEnds i, []) := by
  -- every source is as it was, or it is the `i`-th and its thread has now ended
  have hget : ∀ (j : Nat) (s : FrameSource), (a.workerEnds i).sources[j]? = some s →
      ∃ s', a.sources[j]? = some s' ∧ s.camera = s'.camera ∧ s.workerThread = s'.workerThread ∧
        (s.alive = true → s'.alive = true) := by
    intro j s hs
    simp only [workerEnds, List.getElem?_modify, Option.map_eq_map, Option.map_eq_some_iff] at hs
    obtain ⟨s', hs', rfl⟩ := hs
    refine ⟨s', hs', ?_⟩
    split <;> simp
  refine ⟨⟨h.held, h.ready, ?_, ?_, ?_, ?_, h.quarantined⟩, rfl, by simp, fun _ => ⟨rfl, ?_⟩⟩
  · intro j s hj hs
    obtain ⟨s', hs', hc, -, -⟩ := hget j s hs
    exact hc ▸ h.current j s' hj hs'
  · intro j hj
    simpa [workerEnds] using h.bound j hj
  · intro j s hs hw
    obtain ⟨s', hs', -, ht, ha⟩ := hget j s hs
    have := h.joined j s' hs' (ht ▸ hw)
    cases hal : s.alive with
    | false => rfl
    | true => simp [ha hal] at this
  · intro hq j s hs hal
    obtain ⟨s', hs', -, -, ha⟩ := hget j s hs
    exact h.alive hq j s' hs' (ha hal)
  · intro c hc
    obtain ⟨j, s, hs, hal, rfl⟩ := mem_liveCameras.1 hc
    obtain ⟨s', hs', hcam, -, ha⟩ := hget j s hs
    exact mem_liveCameras.2 ⟨j, s', hs', ha hal, hcam.symm⟩

/-- **Every event but a pause spares the camera.** -/
theorem handle_spares {a : Activity} {e : Event} (h : Wf a) (he : ∀ f s, e ≠ .onPause f s) :
    Spares a (handle a e) := by
  cases e with
  | onResume o p n => exact onResume_spares o p n h
  | onPause f s => exact absurd rfl (he f s)
  | surfaceCreated p n => exact deliver_spares n h (surfaceCreated_keeps p _)
  | surfaceDestroyed => exact deliver_spares false h (surfaceDestroyed_keeps _)
  | focus b => exact deliver_spares false h (focus_keeps b _)
  | capture t => exact deliver_spares false h (capture_keeps t _)
  | releaseShutter k p n => exact deliver_spares n h (releaseShutterForGeneration_keeps _ k p _)
  | delayedRelease i k p n => exact deliver_spares n h (delayedRelease_keeps i k p _)
  | previewUnavailable => exact (previewUnavailable_calm h).spares
  | sequenceUnavailable => exact (sequenceUnavailable_calm h).spares
  | workerEnds i => exact workerEnds_spares i h

/-! ## Pausing -/

/-- A join that reports success leaves no live worker. -/
theorem stopAndJoin_spec (ended : Bool) {s : FrameSource} (h : s.Joined) :
    (s.stopAndJoin ended).1.camera = s.camera ∧ (s.stopAndJoin ended).1.Joined ∧
      ((s.stopAndJoin ended).2 = true → (s.stopAndJoin ended).1.alive = false) := by
  unfold FrameSource.stopAndJoin
  split
  · rename_i hw
    exact ⟨rfl, h, fun _ => h (by simpa using hw)⟩
  · split
    · exact ⟨rfl, h, by simp⟩
    · exact ⟨rfl, fun _ => rfl, fun _ => rfl⟩

theorem stopSequence_spec (first second : Bool) {a : Activity} {i : Nat} {s : FrameSource}
    (hi : a.sources[i]? = some s) (h : s.Joined) :
    ∃ s' r, stopSequence first second (some i) a = ({ a with sources := a.sources.set i s' }, r) ∧
      s'.camera = s.camera ∧ s'.Joined ∧ (r = true → s'.alive = false) := by
  obtain ⟨h1, h2, h3⟩ := stopAndJoin_spec first h
  obtain ⟨k1, k2, k3⟩ := stopAndJoin_spec second h2
  simp only [stopSequence, hi]
  split
  · rename_i hr
    exact ⟨_, _, rfl, h1, h2, fun _ => h3 hr⟩
  · exact ⟨_, _, rfl, k1.trans h1, k2, k3⟩

/-- Without a current source a pause goes straight to the controller. -/
theorem onPause_none (first second : Bool) {a : Activity} (hf : a.frameSource = none) :
    onPause first second a =
      ({ a with resumed := false, readyCamera := none, frameSource := none, probeActive := false
                controller := a.controller.stop.controller }, a.controller.stop.calls) := by
  unfold onPause
  rw [hf]
  rfl

/-- The stopped controller and its dropped camera keep `Wf` when no source is current. -/
theorem Wf.stopped {a : Activity} (h : Wf a) (hf : a.frameSource = none) :
    Wf { a with resumed := false, readyCamera := none, frameSource := none, probeActive := false
                controller := a.controller.stop.controller } :=
  ⟨fun _ => (stop_spec h.held).1, by simp, by simp, by simp, h.joined,
    fun hq i s hs hal => hf ▸ h.alive hq i s hs hal, fun _ => ⟨rfl, rfl, rfl⟩⟩

/-- What a pause leaves outside quarantine: no live worker, or the camera in
quarantine under the worker that is left. -/
theorem onPause_spec (first second : Bool) {a : Activity} (h : Wf a)
    (hq : a.cameraQuarantined = false) :
    Wf (onPause first second a).1 ∧
      ((onPause first second a).1.liveCameras = [] ∨
        ((onPause first second a).2 = [] ∧
          ∀ c ∈ (onPause first second a).1.liveCameras,
            (onPause first second a).1.controller.cameraEx = some c)) := by
  have hlive : ∀ b : Activity, (∀ (i : Nat) (s : FrameSource), b.sources[i]? = some s →
      s.alive = false) → b.liveCameras = [] := fun b hb =>
    List.eq_nil_iff_forall_not_mem.2 fun c hc => by
      obtain ⟨i, s, hs, hal, -⟩ := mem_liveCameras.1 hc
      simp [hb i s hs] at hal
  cases hf : a.frameSource with
  | none =>
    rw [onPause_none first second hf]
    refine ⟨h.stopped hf, .inl (hlive _ fun i s hs => ?_)⟩
    by_contra hal
    have := h.alive hq i s hs (by simpa using hal)
    simp [hf] at this
  | some i =>
    have hi := List.getElem?_eq_getElem (h.bound i hf)
    obtain ⟨s', r, hstop, hcam, hj, hdead⟩ := stopSequence_spec first second
      (a := { a with resumed := false, readyCamera := none, frameSource := none }) hi
      (h.joined i _ hi)
    have hset : ∀ (j : Nat) (s : FrameSource), (a.sources.set i s')[j]? = some s →
        s = s' ∨ (a.sources[j]? = some s ∧ s.alive = false) := by
      intro j s hs
      rw [List.getElem?_set] at hs
      split at hs
      · split at hs <;> simp_all
      · rename_i hne
        refine .inr ⟨hs, ?_⟩
        by_contra hal
        have := h.alive hq j s hs (by simpa using hal)
        simp [hf, hne] at this
    have hjoin : ∀ (j : Nat) (s : FrameSource), (a.sources.set i s')[j]? = some s → s.Joined := by
      intro j s hs
      rcases hset j s hs with rfl | ⟨hs, -⟩
      · exact hj
      · exact h.joined j s hs
    unfold onPause
    simp only [hf, hstop]
    cases r with
    | true =>
      have hnone : ∀ (j : Nat) (s : FrameSource), (a.sources.set i s')[j]? = some s →
          s.alive = false := by
        intro j s hs
        rcases hset j s hs with rfl | ⟨-, hal⟩
        · exact hdead rfl
        · exact hal
      refine ⟨⟨fun _ => (stop_spec h.held).1, by simp, by simp, by simp, hjoin, ?_, by simp [hq]⟩,
        .inl (hlive _ hnone)⟩
      intro _ j s hs hal
      simp [hnone j s hs] at hal
    | false =>
      refine ⟨⟨h.held, by simp, by simp, by simp, hjoin, by simp, by simp⟩, .inr ⟨rfl, ?_⟩⟩
      intro c hc
      obtain ⟨j, s, hs, hal, rfl⟩ := mem_liveCameras.1 hc
      rcases hset j s hs with rfl | ⟨-, hdead⟩
      · exact (h.current i _ hf hi).trans (congrArg some hcam.symm)
      · simp [hdead] at hal

end Activity

/-! ## Runs -/

/-- No pause arrives in quarantine while the quarantined worker is alive. -/
def PausesAfterWorker : Guard Activity Event Act := fun _ a e =>
  match e with
  | .onPause _ _ => a.cameraQuarantined = true → a.liveCameras = []
  | _ => True

/-- `CameraEx.release()` is never reached beneath a live frame worker. -/
def ReleasesAfterWorker (l : List Act) : Prop := ∀ x ∈ l, ¬ x.UnderWorker

/-- The state after a log with no early release: in quarantine, the workers
left are on the camera that the controller still holds. -/
structure Guarded (l : List Act) (a : Activity) : Prop where
  wf : a.Wf
  camera : ReleasesAfterWorker l → a.cameraQuarantined = true →
    ∀ c ∈ a.liveCameras, a.controller.cameraEx = some c

theorem releasesAfterWorker_append {l l' : List Act} :
    ReleasesAfterWorker (l ++ l') ↔ ReleasesAfterWorker l ∧ ReleasesAfterWorker l' := by
  simp [ReleasesAfterWorker, or_imp, forall_and]

/-- The acts of an event that makes no release are no early release. -/
theorem releasesAfterWorker_spares {a : Activity} {r : Activity × List SonyCall}
    (h : a.Spares r) :
    ReleasesAfterWorker (r.2.map fun call => { call, workers := r.1.liveCameras }) := by
  intro x hx
  obtain ⟨call, hcall, rfl⟩ := List.mem_map.1 hx
  rintro ⟨camera, rfl, -⟩
  exact h.unreleased camera hcall

/-- With no live worker no release is early. -/
theorem releasesAfterWorker_of_none {a : Activity} {calls : List SonyCall}
    (h : a.liveCameras = []) :
    ReleasesAfterWorker (calls.map fun call => { call, workers := a.liveCameras }) := by
  intro x hx
  obtain ⟨call, -, rfl⟩ := List.mem_map.1 hx
  rintro ⟨camera, -, hmem⟩
  simp [h] at hmem

/-- In quarantine, a pause under a live worker is an early release. -/
theorem quarantined_pause_early {a : Activity} (first second : Bool) (h : a.Wf)
    (hq : a.cameraQuarantined = true)
    (hcam : ∀ c ∈ a.liveCameras, a.controller.cameraEx = some c)
    (hl : ReleasesAfterWorker ((a.onPause first second).2.map fun call =>
      { call, workers := (a.onPause first second).1.liveCameras })) :
    a.liveCameras = [] := by
  rw [Activity.onPause_none first second (h.quarantined hq).2.2] at hl
  refine List.eq_nil_iff_forall_not_mem.2 fun c hc => ?_
  refine hl ⟨.release c, _⟩ (List.mem_map.2 ⟨.release c, ?_, rfl⟩) ⟨c, rfl, hc⟩
  exact ((stop_spec h.held).2.2.2 c).2 (hcam c hc)

theorem machine_step {a a' : Activity} {e : Event} {o : List Act}
    (h : machine.step a e = some (a', o)) :
    a' = (handle a e).1 ∧ o = (handle a e).2.map fun call => { call, workers := a'.liveCameras } := by
  simp only [machine, Option.some.injEq, Prod.mk.injEq] at h
  obtain ⟨rfl, rfl⟩ := h
  exact ⟨rfl, rfl⟩

/-- What one event keeps. -/
theorem guarded_step {l : List Act} {a a' : Activity} {e : Event} {o : List Act}
    (h : Guarded l a) (hs : machine.step a e = some (a', o)) : Guarded (l ++ o) a' := by
  obtain ⟨rfl, rfl⟩ := machine_step hs
  by_cases he : ∃ f s, e = .onPause f s
  · obtain ⟨f, s, rfl⟩ := he
    cases hq : a.cameraQuarantined with
    | false =>
      obtain ⟨hw, hlive⟩ := Activity.onPause_spec f s h.wf hq
      refine ⟨hw, fun _ _ c hc => ?_⟩
      rcases hlive with hn | ⟨-, hcam⟩
      · exact absurd hc (by simp [handle, hn])
      · exact hcam c hc
    | true =>
      refine ⟨?_, fun hl _ c hc => ?_⟩
      · simpa [handle, Activity.onPause_none f s (h.wf.quarantined hq).2.2] using
          h.wf.stopped (h.wf.quarantined hq).2.2
      · obtain ⟨hl, ho⟩ := releasesAfterWorker_append.1 hl
        have hn := quarantined_pause_early f s h.wf hq (h.camera hl hq) ho
        rw [handle, Activity.onPause_none f s (h.wf.quarantined hq).2.2] at hc
        have hc : c ∈ a.liveCameras := hc
        simp [hn] at hc
  · have hsp := Activity.handle_spares (e := e) h.wf fun f s hx => he ⟨f, s, hx⟩
    refine ⟨hsp.wf, fun hl hq c hc => ?_⟩
    have hq' := hsp.quarantined.symm.trans hq
    obtain ⟨hcam, hsub⟩ := hsp.frozen hq'
    exact hcam.trans (h.camera (releasesAfterWorker_append.1 hl).1 hq' c (hsub c hc))

theorem guarded_run {es : List Event} {l : List Act} {a : Activity} (h : Run machine {} es l a) :
    Guarded l a :=
  h.inv ⟨Activity.wf_init, by simp⟩ fun _ _ _ _ _ hi _ hs => guarded_step hi hs

/-- The acts of one event are no early release exactly when the event meets the guard. -/
theorem releasesAfterWorker_step {l : List Act} {a a' : Activity} {e : Event} {o : List Act}
    (h : Guarded l a) (hl : ReleasesAfterWorker l) (hs : machine.step a e = some (a', o)) :
    ReleasesAfterWorker o ↔ PausesAfterWorker l a e := by
  obtain ⟨rfl, rfl⟩ := machine_step hs
  by_cases he : ∃ f s, e = .onPause f s
  · obtain ⟨f, s, rfl⟩ := he
    simp only [PausesAfterWorker]
    cases hq : a.cameraQuarantined with
    | false =>
      obtain ⟨-, hlive⟩ := Activity.onPause_spec f s h.wf hq
      refine ⟨fun _ => by simp, fun _ => ?_⟩
      rcases hlive with hn | ⟨hnil, -⟩
      · exact releasesAfterWorker_of_none hn
      · simp [handle, hnil, ReleasesAfterWorker]
    | true =>
      refine ⟨fun ho _ => quarantined_pause_early f s h.wf hq (h.camera hl hq) ho, fun hn => ?_⟩
      apply releasesAfterWorker_of_none
      simpa [handle, Activity.onPause_none f s (h.wf.quarantined hq).2.2, Activity.liveCameras]
        using hn rfl
  · have hsp := Activity.handle_spares (e := e) h.wf fun f s hx => he ⟨f, s, hx⟩
    refine ⟨fun _ => ?_, fun _ => releasesAfterWorker_spares hsp⟩
    cases e with
    | onPause f s => exact absurd ⟨f, s, rfl⟩ he
    | _ => trivial

/-- **A run releases no camera beneath its worker exactly when none of its pauses
arrives in quarantine while the worker is alive.** -/
theorem releasesAfterWorker_iff {es : List Event} {l : List Act} {a : Activity}
    (h : Run machine {} es l a) :
    ReleasesAfterWorker l ↔ Reach machine PausesAfterWorker {} es l a := by
  constructor
  · intro hl
    induction h with
    | init => exact .init
    | step h _ hs ih =>
      obtain ⟨hl, ho⟩ := releasesAfterWorker_append.1 hl
      exact .step (ih hl) ((releasesAfterWorker_step (guarded_run h) hl hs).1 ho) hs
  · intro hr
    induction hr with
    | init => simp [ReleasesAfterWorker]
    | step hr hg hs ih =>
      have hl := ih hr.run
      exact releasesAfterWorker_append.2
        ⟨hl, (releasesAfterWorker_step (guarded_run hr.run) hl hs).2 hg⟩

/-- A pause with both joins timed out. -/
def quarantining : List Event :=
  [.onResume true true true, .surfaceCreated true true, .onPause false false]

/-- The worker ends in quarantine, and the camera is released behind it. -/
theorem releasesAfterWorker_iff_resumed : ∃ l a l' a',
    Run machine {} quarantining l a ∧ a.cameraQuarantined = true ∧ a.liveCameras = [0] ∧
      Run machine {} (quarantining ++ [.workerEnds 0, .onResume true true true,
        .onPause false false]) l' a' ∧ ⟨.release 0, []⟩ ∈ l' ∧
      (ReleasesAfterWorker l' ↔ Reach machine PausesAfterWorker {} (quarantining ++
        [.workerEnds 0, .onResume true true true, .onPause false false]) l' a') := by
  obtain ⟨l, a, h, hp⟩ := run_of_exec (M := machine) (s := {}) quarantining
    (p := fun x => x.1.cameraQuarantined && x.1.liveCameras == [0]) (by decide)
  obtain ⟨l', a', h', hp'⟩ := run_of_exec (M := machine) (s := {}) (quarantining ++
    [.workerEnds 0, .onResume true true true, .onPause false false])
    (p := fun x => x.2.contains ⟨.release 0, []⟩) (by decide)
  simp only [Bool.and_eq_true, beq_iff_eq] at hp
  exact ⟨l, a, l', a', h, hp.1, hp.2, h', List.contains_iff_mem.1 hp', releasesAfterWorker_iff h'⟩

/-- Two pauses, the first with both joins timed out: the second releases the
camera under the worker. -/
theorem release_beneath_worker :
    ¬ ∀ es l a, Run machine {} es l a → ReleasesAfterWorker l := by
  intro h
  have hr : Run machine {}
      [.onResume true true true, .surfaceCreated true true, .onPause false false,
        .onResume true true true, .onPause false false]
      [⟨.openCamera true, []⟩, ⟨.startPreview 0 true, [0]⟩, ⟨.cancelAutoFocus 0, [0]⟩,
        ⟨.cancelTakePicture 0 true, [0]⟩, ⟨.release 0, [0]⟩] _ := run_of_exec_eq rfl
  exact h _ _ _ hr ⟨.release 0, [0]⟩ (by simp) ⟨0, rfl, by simp⟩

end RetroLens.Camera
