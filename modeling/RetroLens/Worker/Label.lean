import RetroLens.Worker.Jobs

/-!
# The label and the pixels of a photo

`requestPhoto` copies what stands in the filter's output buffer and labels it
with the style selected at that moment. The frame thread rewrites the buffer
outside the lock, and a new style reaches it only at the next turn. `Labelled`
says that every queued photo carries the style of the call that made its
pixels; it holds in runs in which no shutter press comes in between.
-/

namespace RetroLens.Worker

open Text RetroLens.Core Store Runs

def Act.filtered? : Act → Option FilterCall
  | filtered call => some call
  | _ => none

/-- The calls of `processFrame` that have returned, in order. -/
def filteredCalls (l : List Act) : List FilterCall := l.filterMap Act.filtered?

@[simp] theorem filteredCalls_append (l o : List Act) :
    filteredCalls (l ++ o) = filteredCalls l ++ filteredCalls o := List.filterMap_append

/-- The photo is what one call of `processFrame` put out, and says with what. -/
structure MadeBy (photo : Photo) (call : FilterCall) : Prop where
  frame : photo.frame =
    applyCaptureTexture call.output (adjustedPreset photo.presetIndex photo.adjustments)
  preset : call.preset = adjustedPreset photo.presetIndex photo.adjustments
  presetIndex : photo.presetIndex = call.presetIndex
  intensity : photo.intensity = call.intensity
  adjustments : photo.adjustments = call.adjustments

/-- Every queued photo is the whole output of a call that has its label. -/
def Labelled (l : List Act) : Prop :=
  ∀ photo ∈ queuedPhotos l, ∃ call ∈ filteredCalls l, MadeBy photo call

/-! ## When the label fits -/

/-- No call of `processFrame` has begun to write. -/
def RunLoop.unwritten : RunLoop → Bool
  | filtering _ _ written => written == 0
  | _ => true

/-- The settings are those of the last call that has returned. -/
def lastFits (l : List Act) (c : Screen) : Bool :=
  match (filteredCalls l).getLast? with
  | none => false
  | some call =>
    call.presetIndex == c.style.selectedStyle && call.intensity == c.style.intensity &&
      call.adjustments == c.style.adjustments c.style.selectedStyle

/-- Style, intensity and adjustments are those of the last finished call of `processFrame`, and no
other call has begun to write, whenever the shutter is pressed and a photo can be taken. -/
def settledShutter : Guard DisplayProbeWorker Event Act := fun l s e =>
  ∀ timestampMs, e = .ui (.requestPhoto timestampMs) →
    s.shared.screen.intake.hasPrevious = true → s.shared.screen.storageReady = true →
    s.shared.slot.free = true →
    s.frame.pc.unwritten = true ∧ lastFits l s.shared.screen = true

/-! ## The buffer -/

/-- The settings that the frame thread works with. -/
def RunLoop.settings : RunLoop → Option FilterSettings
  | decoding settings _ => some settings
  | filtering call _ _ | finishing call _ => some call.toFilterSettings
  | _ => none

/-- Settings that were taken from a screen. -/
def FilterSettings.Consistent (settings : FilterSettings) : Prop :=
  settings.preset = adjustedPreset settings.presetIndex settings.adjustments

/-- What the log tells of the filter's buffer. -/
structure Developed (l : List Act) (s : DisplayProbeWorker) : Prop where
  before : s.control.beforeFrame = true → s.frame.pc = .notStarted
  current : ∀ settings, s.frame.pc.settings = some settings → settings.Consistent
  calls : ∀ call ∈ filteredCalls l, call.toFilterSettings.Consistent
  buffer : s.frame.pc.unwritten = true → ∀ call, (filteredCalls l).getLast? = some call →
    s.frame.filtered = call.output
  labelled : Labelled l

variable {l o : List Act} {s s' : DisplayProbeWorker}

theorem overwrite_zero (new old : Frame) : overwrite 0 new old = old := rfl

theorem frameSettings_consistent (timestampMs : Int64) (c : Screen) :
    (frameSettings timestampMs c).Consistent := rfl

theorem Labelled.append (h : Labelled l) (hq : queuedPhotos o = []) : Labelled (l ++ o) := by
  intro photo hp
  rw [queuedPhotos_append, hq, List.append_nil] at hp
  obtain ⟨call, hc, hm⟩ := h photo hp
  exact ⟨call, by rw [filteredCalls_append]; exact List.mem_append_left _ hc, hm⟩

/-- A step in which the frame thread takes no part and no photo is queued. -/
theorem Developed.aside (h : Developed l s) (hq : queuedPhotos o = []) (hf : filteredCalls o = [])
    (hframe : s'.frame = s.frame)
    (hbefore : s'.control.beforeFrame = true → s.control.beforeFrame = true) :
    Developed (l ++ o) s' where
  before := fun hb => hframe ▸ h.before (hbefore hb)
  current := hframe ▸ h.current
  calls := by rw [filteredCalls_append, hf, List.append_nil]; exact h.calls
  buffer := by rw [filteredCalls_append, hf, List.append_nil, hframe]; exact h.buffer
  labelled := h.labelled.append hq

/-- A step of the frame thread that finishes no call. -/
theorem Developed.goOn (h : Developed l s) {screen : Screen} {f : FrameThread}
    (hn : s.frame.pc ≠ .notStarted) (hq : queuedPhotos o = []) (hf : filteredCalls o = [])
    (hcurrent : ∀ settings, f.pc.settings = some settings → settings.Consistent)
    (hbuffer : f.pc.unwritten = true → s.frame.pc.unwritten = true ∧ f.filtered = s.frame.filtered) :
    Developed (l ++ o) { s with shared.screen := screen, frame := f } where
  before := fun hb => absurd (h.before hb) hn
  current := hcurrent
  calls := by rw [filteredCalls_append, hf, List.append_nil]; exact h.calls
  buffer := fun hu call hc => by
    rw [filteredCalls_append, hf, List.append_nil] at hc
    exact (hbuffer hu).2.trans (h.buffer (hbuffer hu).1 call hc)
  labelled := h.labelled.append hq

/-- A call of `processFrame` returns. -/
theorem Developed.filter (h : Developed l s) {call : FilterCall} {input : Bool} {written : Nat}
    (hpc : s.frame.pc = .filtering call input written) (hc : call.toFilterSettings.Consistent) :
    Developed (l ++ [.filtered call]) { s with
      frame.pc := .finishing call input, frame.filtered := call.output } where
  before := fun hb => by
    have := h.before hb
    rw [hpc] at this
    cases this
  current := fun _ hf => by
    cases hf
    exact hc
  calls := fun call' hm => by
    rw [filteredCalls_append] at hm
    rcases List.mem_append.1 hm with hm | hm
    · exact h.calls call' hm
    · obtain rfl : call' = call := by simpa [filteredCalls, Act.filtered?] using hm
      exact hc
  buffer := fun _ call' hl => by
    have hlast : filteredCalls (l ++ [.filtered call]) = filteredCalls l ++ [call] :=
      filteredCalls_append ..
    rw [hlast, List.getLast?_append] at hl
    obtain rfl : call = call' := by simpa using hl
    rfl
  labelled := h.labelled.append rfl

/-! ## The steps -/

theorem decodeDone_settings (ok : Bool) (raw : Frame) (settings : FilterSettings)
    (usePrevious : Bool) (f : FrameThread) {new : FilterSettings}
    (h : (decodeDone ok raw settings usePrevious f).pc.settings = some new) : new = settings := by
  unfold decodeDone at h
  dsimp only at h
  split at h
  · cases h
    rfl
  · cases h

theorem Developed.frame (h : Developed l s) {e : FrameEvent} {v : FrameView}
    (hs : e.run s.frameView = some v) :
    Developed (l ++ e.acts s.frameView) { s with shared.screen := v.screen, frame := v.frame } := by
  have started : ∀ {pc}, s.frame.pc = pc → pc ≠ .notStarted → s.frame.pc ≠ .notStarted :=
    fun hpc hn => hpc ▸ hn
  have hstep : e.Step s.frameView v := FrameEvent.run_step hs
  cases hstep with
  | exit now event pc running eq =>
    subst event eq
    refine h.goOn (started pc (by simp)) rfl rfl (fun _ hf => by cases hf) fun _ => ?_
    exact ⟨by rw [show s.frame.pc = .head from pc]; rfl, rfl⟩
  | take now event pc running pending eq =>
    subst event eq
    refine h.goOn (started pc (by simp)) rfl rfl (fun _ hf => ?_) fun _ => ?_
    · cases hf
      exact frameSettings_consistent ..
    · exact ⟨by rw [show s.frame.pc = .head from pc]; rfl, rfl⟩
  | again now event pc running pending dirty raw eq =>
    subst event eq
    refine h.goOn (started pc (by simp)) rfl rfl (fun _ hf => ?_) fun _ => ?_
    · cases hf
      exact frameSettings_consistent ..
    · exact ⟨by rw [show s.frame.pc = .head from pc]; rfl, rfl⟩
  | idle now event pc running pending eq =>
    subst event eq
    exact h.goOn (started pc (by simp)) rfl rfl h.current fun hu => ⟨hu, rfl⟩
  | decoded ok raw settings usePrevious event pc eq =>
    subst event eq
    have hpc : s.frame.pc = .decoding settings usePrevious := pc
    have hsettings := h.current settings (by rw [hpc]; rfl)
    rw [FrameEvent.decoded_acts pc]
    refine h.goOn (started hpc (by simp)) rfl rfl (fun new hf => ?_) fun _ => ?_
    · rw [decodeDone_settings ok raw settings usePrevious _ hf]
      exact hsettings
    · exact ⟨by rw [hpc]; rfl, rfl⟩
  | wrote pixels call input written event pc eq =>
    subst event eq
    have hpc : s.frame.pc = .filtering call input written := pc
    have hsettings := h.current call.toFilterSettings (by rw [hpc]; rfl)
    refine h.goOn (started hpc (by simp)) rfl rfl (fun _ hf => ?_) fun hu => ?_
    · cases hf
      exact hsettings
    · simp only [RunLoop.unwritten, beq_iff_eq] at hu
      obtain ⟨rfl, rfl⟩ : written = 0 ∧ pixels = 0 := by omega
      exact ⟨by rw [hpc]; rfl, overwrite_zero _ _⟩
  | filtered call input written event pc eq =>
    subst event eq
    have hpc : s.frame.pc = .filtering call input written := pc
    rw [FrameEvent.filtered_acts pc]
    exact h.filter hpc (h.current call.toFilterSettings (by rw [hpc]; rfl))
  | finish now decodeMs filterMs call input event pc eq =>
    subst event eq
    refine h.goOn (started pc (by simp)) rfl rfl (fun _ hf => by cases hf) fun _ => ?_
    exact ⟨by rw [show s.frame.pc = .finishing call input from pc]; rfl, rfl⟩
  | fail now decodeMs filterMs event pc eq =>
    subst event eq
    refine h.goOn (started pc (by simp)) rfl rfl (fun _ hf => by cases hf) fun _ => ?_
    exact ⟨by rw [show s.frame.pc = .decodeFailed from pc]; rfl, rfl⟩

/-- The shutter is pressed while the label fits. -/
theorem Developed.request (h : Developed l s) {sh : Shared} {photo : Photo}
    (hunwritten : s.frame.pc.unwritten = true) (hfits : lastFits l s.shared.screen = true)
    (hframe : photo.frame = applyCaptureTexture s.frame.filtered
      (adjustedPresetLocked s.shared.screen.style.selectedStyle s.shared.screen))
    (hindex : photo.presetIndex = s.shared.screen.style.selectedStyle)
    (hintensity : photo.intensity = s.shared.screen.style.intensity)
    (hadjustments : photo.adjustments =
      s.shared.screen.style.adjustments s.shared.screen.style.selectedStyle) :
    Developed (l ++ [.queued photo]) { s with shared := sh } := by
  have hcalls : filteredCalls (l ++ [.queued photo]) = filteredCalls l := by
    rw [filteredCalls_append]
    exact List.append_nil _
  unfold lastFits at hfits
  split at hfits
  · cases hfits
  rename_i call hlast
  simp only [Bool.and_eq_true, beq_iff_eq] at hfits
  obtain ⟨⟨hcall, hcall'⟩, hcall''⟩ := hfits
  have hmem : call ∈ filteredCalls l := List.mem_of_getLast? hlast
  have hmade : MadeBy photo call :=
    { frame := by
        rw [hframe, h.buffer hunwritten call hlast, hindex, hadjustments]
        rfl
      preset := by
        have := h.calls call hmem
        rw [hindex, hadjustments, ← hcall'', ← hcall]
        exact this
      presetIndex := hindex.trans hcall.symm
      intensity := hintensity.trans hcall'.symm
      adjustments := hadjustments.trans hcall''.symm }
  exact
    { before := h.before
      current := h.current
      calls := hcalls ▸ h.calls
      buffer := hcalls ▸ h.buffer
      labelled := fun photo' hp => by
        rw [hcalls]
        rw [queuedPhotos_append] at hp
        rcases List.mem_append.1 hp with hp | hp
        · exact h.labelled photo' hp
        · obtain rfl : photo' = photo := by simpa [queuedPhotos, Act.queued?] using hp
          exact ⟨call, hmem, hmade⟩ }

theorem call_filtered (filtered : Frame) (entries : Entries) (sh : Shared) (call : UiCall) :
    filteredCalls (call.acts filtered entries sh) = [] := by
  cases call with
  | key keyValue down timestampMs =>
    simp only [UiCall.acts]
    split <;> split <;> rfl
  | requestPhoto timestampMs =>
    simp only [UiCall.acts]
    split <;> rfl
  | touch | changeStyle | setFocus | configureStorage | noteAttempts | submitJpeg => rfl

theorem Developed.ui (h : Developed l s) (call : UiCall) (hg : settledShutter l s (.ui call)) :
    Developed (l ++ call.acts s.frame.filtered s.photo.store.entries s.shared)
      { s with shared := call.run s.frame.filtered s.shared } := by
  have hf := call_filtered s.frame.filtered s.photo.store.entries s.shared call
  cases UiCall.run_step s.frame.filtered call s.shared with
  | key keyValue down timestampMs eq spec =>
    subst eq
    exact h.aside (key_acts ..).1 hf rfl id
  | screen slot buffer screen other refused =>
    exact h.aside (call_acts _ _ _ _ other refused).1 hf rfl id
  | configured status eq shared =>
    subst eq
    exact h.aside rfl hf rfl id
  | requested timestampMs eq result hasPrevious storageReady free screen slot buffer =>
    subst eq
    have hacts : (UiCall.requestPhoto timestampMs).acts s.frame.filtered s.photo.store.entries
        s.shared = [.queued _] := if_pos result
    obtain ⟨hunwritten, hfits⟩ := hg timestampMs rfl hasPrevious storageReady free
    simp only [UiCall.run] at slot buffer
    rw [hacts]
    refine h.request hunwritten hfits buffer ?_ ?_ ?_ <;>
      simp only [JobSlot.copy, Job.photo, slot]

theorem PhotoEvent.acts_nothing (e : PhotoEvent) (v v' : PhotoView) :
    queuedPhotos (e.acts v v') = [] ∧ filteredCalls (e.acts v v') = [] := by
  unfold PhotoEvent.acts
  split
  · exact ⟨rfl, rfl⟩
  · split <;> exact ⟨rfl, rfl⟩
  · split <;> exact ⟨rfl, rfl⟩
  · exact ⟨rfl, rfl⟩

theorem Developed.owner (h : Developed l s) {created : Bool} {plan : FilePlan}
    (hs : ownerStep created plan s = some s') : Developed (l ++ []) s' := by
  rcases ownerStep_frame hs with ⟨hframe, hbefore⟩ | ⟨hc, hc', hframe⟩
  · exact h.aside rfl rfl hframe hbefore
  · have hpc := h.before (by rw [hc]; rfl)
    rw [List.append_nil]
    exact
      { before := fun hb => by
          rw [hc'] at hb
          cases hb
        current := fun _ hf => by
          rw [hframe] at hf
          cases hf
        calls := h.calls
        buffer := fun _ call hl => by
          rw [hframe]
          exact h.buffer (by rw [hpc]; rfl) call hl
        labelled := h.labelled }

theorem Developed.step (h : Developed l s) {e : Event}
    (hg : settledShutter l s e) (hs : worker.step s e = some (s', o)) : Developed (l ++ o) s' := by
  cases e with
  | ui call =>
    cases hs
    exact h.ui call hg
  | frame e =>
    obtain ⟨v, hv, hs⟩ := Option.map_eq_some_iff.1 hs
    cases hs
    exact h.frame hv
  | photo e =>
    obtain ⟨v, hv, hs⟩ := Option.map_eq_some_iff.1 hs
    cases hs
    obtain ⟨hq, hf⟩ := PhotoEvent.acts_nothing e s.photoView v
    exact h.aside hq hf rfl id
  | owner created plan =>
    obtain ⟨v, hv, hs⟩ := Option.map_eq_some_iff.1 hs
    cases hs
    exact h.owner hv

/-! ## Runs -/

variable {s₀ : DisplayProbeWorker} {es : List Event}

theorem fresh_developed (h : Fresh s) : Developed [] s := by
  obtain ⟨now, root, model, version, status, memory, card, rfl⟩ := h
  exact
    { before := fun _ => rfl
      current := fun _ hf => by cases hf
      calls := fun _ hm => by cases hm
      buffer := fun _ _ hl => by cases hl
      labelled := fun _ hm => by cases hm }

/-- **A photo taken while the label fits is what the style on its label made.** -/
theorem settled_labelled (h0 : Fresh s₀) (h : Reach worker settledShutter s₀ es l s) :
    Labelled l :=
  (h.inv (fresh_developed h0) fun _ _ _ _ _ hi hg hs => hi.step hg hs).labelled

/-- The guard as a test of an event. -/
def settledEvent (l : List Act) (s : DisplayProbeWorker) : Event → Bool
  | .ui (.requestPhoto _) => s.frame.pc.unwritten && lastFits l s.shared.screen
  | _ => true

theorem settledEvent_guard (l : List Act) (s : DisplayProbeWorker) (e : Event)
    (h : settledEvent l s e = true) : settledShutter l s e := by
  rintro timestampMs rfl - - -
  simpa [settledEvent] using h

/-- A style change, another frame, and only then the shutter. -/
def calmSession : List Event :=
  List.flatten [Event.startUp, Event.newFrame 100 blackFrame, [Event.press .next],
    Event.newFrame 140 blackFrame, [Event.capture 61007]]

theorem settled_labelled_session : ∃ l s, Reach worker settledShutter sampleWorker calmSession l s ∧
    (queuedPhotos l).map (·.presetIndex) = [1] ∧ Labelled l := by
  obtain ⟨l, s, h, hp⟩ := reach_of_execIf (M := worker) (g := settledEvent) (s := sampleWorker)
    calmSession
    (p := fun x => (queuedPhotos x.2).map (·.presetIndex) == [1]) settledEvent_guard
    (by decide +kernel)
  exact ⟨l, s, h, by simpa using hp, settled_labelled sample_fresh h⟩

/-- The shutter is pressed right after a style change. -/
def hastySession : List Event :=
  List.flatten [Event.startUp, Event.newFrame 100 blackFrame,
    [Event.press .next, Event.capture 61007]]

/-- The photo has the new label, and the pixels of the old style. -/
theorem hasty_unlabelled : ∃ l s, Run worker sampleWorker hastySession l s ∧ ¬ Labelled l := by
  obtain ⟨l, s, h, hp⟩ := run_of_exec (M := worker) (s := sampleWorker) hastySession
    (p := fun x => (queuedPhotos x.2).any (·.presetIndex == 1) &&
      (filteredCalls x.2).all (·.presetIndex == 0)) (by decide +kernel)
  simp only [Bool.and_eq_true, List.any_eq_true, List.all_eq_true, beq_iff_eq] at hp
  obtain ⟨⟨photo, hm, h1⟩, h0⟩ := hp
  refine ⟨l, s, h, fun hl => ?_⟩
  obtain ⟨call, hc, hmade⟩ := hl photo hm
  have := hmade.presetIndex
  rw [h1, h0 call hc] at this
  exact absurd this (by decide)

end RetroLens.Worker
