import RetroLens.Worker.Label
import RetroLens.Worker.Ranges

/-!
# The temporal history

`run` passes the last output to `processFrame` as the previous frame, unless
the style has changed since: then `styleDirty_` says so. A change that arrives
while the very first frame is decoded or filtered leaves no mark, because
`styleDirty_` is set to `hasRaw_`, and the next frame is mixed with one of
another style. In runs in which the first frame ends with the settings it began
with, a previous frame always has the settings of the frame it goes into.
-/

namespace RetroLens.Worker

open Text RetroLens.Core Store Runs

/-- The same preset with the same adjustments, at the same intensity. -/
structure FilterSettings.SameLook (a b : FilterSettings) : Prop where
  presetIndex : a.presetIndex = b.presetIndex
  preset : a.preset = b.preset
  intensity : a.intensity = b.intensity

/-- What the settings of a frame would be now. -/
def look (c : Screen) : FilterSettings := frameSettings 0 c

/-- A call of `processFrame` with these settings has put out `buffer`. -/
def MadeWith (l : List Act) (buffer : Frame) (settings : FilterSettings) : Prop :=
  ∃ call ∈ filteredCalls l, call.output = buffer ∧ call.toFilterSettings.SameLook settings

/-- A previous frame was made with the settings of the call it is passed to. -/
def HistoryFits (l : List Act) (s : DisplayProbeWorker) : Prop :=
  ∀ call input written, s.frame.pc = .filtering call input written →
    ∀ buffer, call.previous = some buffer → MadeWith l buffer call.toFilterSettings

/-- The first frame of all ends with the settings it was taken with. -/
def firstFrameSettled : Guard DisplayProbeWorker Event Act := fun _ s e =>
  ∀ now decodeMs filterMs call, e = .frame (.finish now decodeMs filterMs) →
    s.frame.pc = .finishing call true → s.shared.screen.intake.hasRaw = false →
    call.toFilterSettings.SameLook (look s.shared.screen)

variable {l l' o : List Act} {s s' s₀ : DisplayProbeWorker} {c c' : Screen} {es : List Event}
  {a b : FilterSettings} {buffer : Frame}

theorem FilterSettings.SameLook.trans {d : FilterSettings} (h : a.SameLook b) (h' : b.SameLook d) :
    a.SameLook d :=
  ⟨h.presetIndex.trans h'.presetIndex, h.preset.trans h'.preset, h.intensity.trans h'.intensity⟩

theorem MadeWith.append (h : MadeWith l buffer a) (o : List Act) : MadeWith (l ++ o) buffer a := by
  obtain ⟨call, hc, hm⟩ := h
  exact ⟨call, by rw [filteredCalls_append]; exact List.mem_append_left _ hc, hm⟩

theorem MadeWith.look (h : MadeWith l buffer a) (hab : a.SameLook b) : MadeWith l buffer b := by
  obtain ⟨call, hc, hout, hlook⟩ := h
  exact ⟨call, hc, hout, hlook.trans hab⟩

/-! ## What a change leaves behind -/

/-- The style is marked dirty where there is a frame, or everything is as it was. -/
def LookChange (c c' : Screen) : Prop :=
  c'.intake.hasPrevious = c.intake.hasPrevious ∧ c'.intake.hasRaw = c.intake.hasRaw ∧
    (c'.intake.styleDirty = c.intake.hasRaw ∨
      c'.intake.styleDirty = c.intake.styleDirty ∧ (look c).SameLook (look c'))

theorem look_of_settings (h : Screen.SameSettings c c') : (look c).SameLook (look c') := by
  have hpreset : c'.filterMetrics.selectedPreset = c.filterMetrics.selectedPreset :=
    congrArg Prod.fst h.selection
  have hstyle := h.style
  refine ⟨hpreset.symm, ?_, ?_⟩
  · show adjustedPresetLocked _ c = adjustedPresetLocked _ c'
    rw [hpreset, adjustedPresetLocked, adjustedPresetLocked, hstyle]
  · show c.style.intensity = c'.style.intensity
    rw [hstyle]

theorem lookChange_of_same (h : Screen.Same c c') : LookChange c c' := by
  have hintake := h.intake
  exact ⟨by rw [hintake], by rw [hintake],
    .inr ⟨by rw [hintake], look_of_settings h.toSameSettings⟩⟩

theorem lookChange_then {c'' : Screen} (hs : Screen.Same c' c'') (h : LookChange c c') :
    LookChange c c'' := by
  obtain ⟨h1, h2, h3⟩ := h
  have hintake := hs.intake
  refine ⟨by rw [hintake, h1], by rw [hintake, h2], ?_⟩
  rw [hintake]
  exact h3.imp_right fun ⟨hd, hl⟩ => ⟨hd, hl.trans (look_of_settings hs.toSameSettings)⟩

/-- **Every choice that changes what frames look like marks the style dirty**, if there is a
frame. -/
theorem Choice.look (h : Choice c c') : LookChange c c' := by
  cases h with
  | none same => exact lookChange_of_same same
  | select style range same => exact lookChange_then same ⟨rfl, rfl, .inl rfl⟩
  | parameter index range same =>
    exact lookChange_then same ⟨rfl, rfl, .inr ⟨rfl, rfl, rfl, rfl⟩⟩
  | adjust direction same => exact lookChange_then same ⟨rfl, rfl, .inl rfl⟩
  | favorite same =>
    refine lookChange_then same ⟨rfl, rfl, .inr ⟨rfl, rfl, ?_, ?_⟩⟩
    · show adjustedPresetLocked _ c = adjustedPresetLocked _ (toggleFavoriteLocked c)
      unfold adjustedPresetLocked toggleFavoriteLocked
      dsimp only
      split <;> rfl
    · show c.style.intensity = (toggleFavoriteLocked c).style.intensity
      unfold toggleFavoriteLocked
      dsimp only
      split <;> rfl
  | diagnostics on same => exact lookChange_then same ⟨rfl, rfl, .inr ⟨rfl, rfl, rfl, rfl⟩⟩

theorem submitJpeg_look (jpeg : Option Bytes) (timestampMs : Int64) (c : Screen) :
    LookChange c (submitJpeg jpeg timestampMs c).2 := by
  have hlook := look_of_settings (submitJpeg_settings jpeg timestampMs c)
  have hcases := submitJpeg_cases jpeg timestampMs c
  generalize submitJpeg jpeg timestampMs c = r at hcases hlook
  cases hcases with
  | invalid why => exact ⟨rfl, rfl, .inr ⟨rfl, hlook⟩⟩
  | dropped busy => exact ⟨rfl, rfl, .inr ⟨rfl, hlook⟩⟩
  | accepted bytes eq running pending inUse => exact ⟨rfl, rfl, .inr ⟨rfl, hlook⟩⟩

theorem call_look (filtered : Frame) (call : UiCall) (sh : Shared) :
    LookChange sh.screen (call.run filtered sh).screen := by
  rcases UiCall.run_choice filtered call sh with ⟨jpeg, timestampMs, rfl⟩ | ⟨-, hc⟩
  · exact submitJpeg_look jpeg timestampMs sh.screen
  · exact hc.look

theorem installStore_look (h : c.Selected) (state : PhotoStorageState)
    (settings : Option RuntimeSettings) (freeBytes : Int) (p : PhotoStore) :
    LookChange c (installStore state settings freeBytes p c) := by
  have hpreset : c.filterMetrics.selectedPreset = c.style.selectedStyle := congrArg Prod.fst h
  cases settings with
  | none =>
    refine ⟨rfl, rfl, .inr ⟨rfl, hpreset, ?_, rfl⟩⟩
    show adjustedPresetLocked c.filterMetrics.selectedPreset c =
      adjustedPresetLocked c.style.selectedStyle c
    rw [hpreset]
  | some settings => exact ⟨rfl, rfl, .inl rfl⟩

/-! ## The invariant -/

/-- The frame on its way is a new one. -/
def RunLoop.fresh : RunLoop → Bool
  | filtering _ input _ | finishing _ input => input
  | _ => true

/-- Where the last output and the frame on its way come from. -/
structure History (l : List Act) (s : DisplayProbeWorker) : Prop where
  raw : s.shared.screen.intake.hasPrevious = true → s.shared.screen.intake.hasRaw = true
  again : s.frame.pc.fresh = false → s.shared.screen.intake.hasRaw = true
  kept : s.shared.screen.intake.hasPrevious = true → s.shared.screen.intake.styleDirty = false →
    MadeWith l s.frame.previous (look s.shared.screen)
  current : ∀ settings, s.frame.pc.settings = some settings →
    s.shared.screen.intake.hasRaw = true → s.shared.screen.intake.styleDirty = false →
    settings.SameLook (look s.shared.screen)
  decoding : ∀ settings, s.frame.pc = .decoding settings true →
    MadeWith l s.frame.previous settings
  fits : HistoryFits l s
  output : ∀ call input, s.frame.pc = .finishing call input →
    call ∈ filteredCalls l ∧ s.frame.filtered = call.output

/-- A step that leaves the frame thread alone. -/
theorem History.change (h : History l s) (hframe : s'.frame = s.frame)
    (hlook : LookChange s.shared.screen s'.shared.screen) (o : List Act) :
    History (l ++ o) s' := by
  obtain ⟨hprevious, hraw, hdirty⟩ := hlook
  have hclean : s.shared.screen.intake.hasRaw = true →
      s'.shared.screen.intake.styleDirty = false → s.shared.screen.intake.styleDirty = false ∧
        (look s.shared.screen).SameLook (look s'.shared.screen) := fun hr hd => by
    rcases hdirty with h' | ⟨h', hsame⟩
    · rw [hd, hr] at h'
      cases h'
    · exact ⟨h' ▸ hd, hsame⟩
  refine ⟨fun hp => ?_, fun hf => ?_, fun hp hd => ?_, fun settings hs hr hd => ?_,
    fun settings hpc => ?_, fun call input written hpc buffer hb => ?_, fun call input hpc => ?_⟩
  · rw [hraw]
    exact h.raw (hprevious ▸ hp)
  · rw [hraw]
    exact h.again (hframe ▸ hf)
  · rw [hprevious] at hp
    obtain ⟨hd', hsame⟩ := hclean (h.raw hp) hd
    rw [hframe]
    exact ((h.kept hp hd').look hsame).append o
  · rw [hraw] at hr
    obtain ⟨hd', hsame⟩ := hclean hr hd
    exact (h.current settings (hframe ▸ hs) hr hd').trans hsame
  · rw [hframe] at hpc ⊢
    exact (h.decoding settings hpc).append o
  · exact (h.fits call input written (hframe ▸ hpc) buffer hb).append o
  · rw [hframe] at hpc ⊢
    obtain ⟨hm, hout⟩ := h.output call input hpc
    refine ⟨?_, hout⟩
    rw [filteredCalls_append]
    exact List.mem_append_left _ hm

theorem renderNextLocked_look (now : Int) (c : Screen) : LookChange c (renderNextLocked now c) :=
  lookChange_of_same (renderNextLocked_same now c)

theorem History.append (h : History l s) (o : List Act) : History (l ++ o) s :=
  h.change rfl ⟨rfl, rfl, .inr ⟨rfl, rfl, rfl, rfl⟩⟩ o

/-- The frame thread with no frame on its way. -/
theorem History.rest (h : History l s) {f : FrameThread} (hprevious : f.previous = s.frame.previous)
    (hpc : f.pc.settings = none) : History l { s with frame := f } := by
  have hnone : ∀ pc, f.pc = pc → pc.settings = none := fun _ h => h ▸ hpc
  refine ⟨h.raw, fun hf => ?_, fun hp hd => ?_, fun settings hs => ?_, fun settings hd => ?_,
    fun call input written hf => ?_, fun call input hf => ?_⟩
  · have hf' : f.pc.fresh = false := hf
    cases hc : f.pc <;> simp [hc, RunLoop.fresh, RunLoop.settings] at hf' hpc
  · rw [hprevious]
    exact h.kept hp hd
  · exact absurd (hpc.symm.trans hs) (by simp)
  · exact absurd (hnone _ hd) (by simp [RunLoop.settings])
  · exact absurd (hnone _ hf) (by simp [RunLoop.settings])
  · exact absurd (hnone _ hf) (by simp [RunLoop.settings])

/-- The input is taken: the previous frame goes with it only if the style is clean. -/
theorem History.take (h : History l s) :
    History l { s with
      shared.screen.intake.inputPending := false
      shared.screen.intake.inputInUse := true
      shared.screen.intake.hasPrevious :=
        if s.shared.screen.intake.styleDirty then false else s.shared.screen.intake.hasPrevious
      shared.screen.intake.styleDirty := false
      frame.pc := .decoding
        (frameSettings s.shared.screen.intake.jpegTimestampMs s.shared.screen)
        (s.shared.screen.intake.hasPrevious && !s.shared.screen.intake.styleDirty) } := by
  have hclean : (if s.shared.screen.intake.styleDirty then false
      else s.shared.screen.intake.hasPrevious) = true →
      s.shared.screen.intake.hasPrevious = true ∧ s.shared.screen.intake.styleDirty = false := by
    cases s.shared.screen.intake.styleDirty <;> simp
  refine ⟨fun hp => h.raw (hclean hp).1, (fun hf => by cases hf), fun hp _ => ?_,
    fun settings hs _ _ => ?_, fun settings hd => ?_, (fun _ _ _ hf => by cases hf),
    fun _ _ hf => by cases hf⟩
  · obtain ⟨hp, hd⟩ := hclean hp
    exact (h.kept hp hd).look ⟨rfl, rfl, rfl⟩
  · cases hs
    exact ⟨rfl, rfl, rfl⟩
  · simp only [RunLoop.decoding.injEq, Bool.and_eq_true, Bool.not_eq_true'] at hd
    obtain ⟨rfl, hp, hd⟩ := hd
    exact (h.kept hp hd).look ⟨rfl, rfl, rfl⟩

/-- The last frame is filtered anew, without a previous one. -/
theorem history_filterAgain (hraw : s.shared.screen.intake.hasRaw = true) :
    History l { s with
      shared.screen.intake.styleDirty := false
      shared.screen.intake.hasPrevious := false
      frame.pc := .filtering
        { toFilterSettings :=
            frameSettings s.shared.screen.intake.lastDecodedTimestampMs s.shared.screen
          source := s.frame.raw, previous := none } false 0 } := by
  refine ⟨(fun hp => by cases hp), fun _ => hraw, (fun hp => by cases hp), fun settings hs _ _ => ?_,
    (fun _ hd => by cases hd), fun call input written hf buffer hb => ?_, fun _ _ hf => by cases hf⟩
  · cases hs
    exact ⟨rfl, rfl, rfl⟩
  · cases hf
    cases hb

/-- A call of `processFrame` ends, and what it put out becomes the previous frame. -/
theorem History.finish (h : History l s) {call : FilterCall} {input : Bool}
    (hpc : s.frame.pc = .finishing call input)
    (hg : input = true → s.shared.screen.intake.hasRaw = false →
      call.toFilterSettings.SameLook (look s.shared.screen))
    (hraw : c.intake.hasRaw = true)
    (hdirty : c.intake.styleDirty = s.shared.screen.intake.styleDirty)
    (hlook : (look s.shared.screen).SameLook (look c)) :
    History l { s with
      shared.screen := c, frame.pc := .head, frame.previous := s.frame.filtered } := by
  refine ⟨fun _ => hraw, (fun hf => by cases hf), fun _ hd => ?_, (fun _ hs => by cases hs),
    (fun _ hd => by cases hd), (fun _ _ _ hf => by cases hf), fun _ _ hf => by cases hf⟩
  have hd' : s.shared.screen.intake.styleDirty = false := hdirty.symm.trans hd
  obtain ⟨hm, hout⟩ := h.output call input hpc
  have hcall : call.toFilterSettings.SameLook (look s.shared.screen) := by
    cases hr : s.shared.screen.intake.hasRaw with
    | true => exact h.current _ (by rw [hpc]; rfl) hr hd'
    | false =>
      cases input with
      | true => exact hg rfl hr
      | false =>
        have hagain := h.again (by rw [hpc]; rfl)
        rw [hr] at hagain
        cases hagain
  exact ⟨call, hm, hout.symm, hcall.trans hlook⟩

theorem History.frame (h : History l s) {e : FrameEvent} (hg : firstFrameSettled l s (.frame e))
    {v : FrameView} (hv : e.run s.frameView = some v) :
    History (l ++ e.acts s.frameView) { s with shared.screen := v.screen, frame := v.frame } := by
  have hstep : e.Step s.frameView v := FrameEvent.run_step hv
  cases hstep with
  | exit now event pc running eq =>
    subst eq
    refine History.append (h.rest ?_ ?_) _
    · rfl
    · rfl
  | take now event pc running pending eq =>
    subst eq
    exact h.take.append _
  | again now event pc running pending dirty raw eq =>
    subst eq
    exact (history_filterAgain raw).append _
  | idle now event pc running pending eq =>
    subst eq
    refine h.change ?_ ?_ _
    · rfl
    · exact renderNextLocked_look now s.shared.screen
  | decoded ok raw settings usePrevious event pc eq =>
    subst eq
    have hpc : s.frame.pc = .decoding settings usePrevious := pc
    cases ok with
    | false =>
      refine History.append (h.rest ?_ ?_) _
      · rfl
      · rfl
    | true =>
      refine ⟨h.raw, (fun hf => by cases hf), fun hp hd => (h.kept hp hd).append _,
        fun settings' hs => ?_, (fun _ hd => by cases hd), fun call input written hf buffer hb => ?_,
        fun _ _ hf => by cases hf⟩
      · cases hs
        exact h.current settings (by rw [hpc]; rfl)
      · cases hf
        cases usePrevious with
        | false => cases hb
        | true =>
          cases hb
          exact (h.decoding settings hpc).append _
  | wrote pixels call input written event pc eq =>
    subst eq
    have hpc : s.frame.pc = .filtering call input written := pc
    refine ⟨h.raw, fun hf => h.again (by rw [hpc]; exact hf), fun hp hd => (h.kept hp hd).append _,
      fun settings hs => h.current settings (by rw [hpc]; exact hs), (fun _ hd => by cases hd),
      fun call' input' written' hf buffer hb => ?_, fun _ _ hf => by cases hf⟩
    cases hf
    exact (h.fits call input written hpc buffer hb).append _
  | filtered call input written event pc eq =>
    subst event
    subst eq
    have hpc : s.frame.pc = .filtering call input written := pc
    have hacts : FrameEvent.filtered.acts s.frameView = [.filtered call] := by
      simp [FrameEvent.acts, pc]
    refine ⟨h.raw, fun hf => h.again (by rw [hpc]; exact hf), fun hp hd => (h.kept hp hd).append _,
      fun settings hs => h.current settings (by rw [hpc]; exact hs), (fun _ hd => by cases hd),
      (fun _ _ _ hf => by cases hf), fun call' input' hf => ?_⟩
    cases hf
    refine ⟨?_, rfl⟩
    rw [hacts, filteredCalls_append]
    exact List.mem_append_right _ (by simp [filteredCalls, Act.filtered?])
  | finish now decodeMs filterMs call input event pc eq =>
    subst eq
    have hpc : s.frame.pc = .finishing call input := pc
    have hfirst : input = true → s.shared.screen.intake.hasRaw = false →
        call.toFilterSettings.SameLook (look s.shared.screen) := fun hinput =>
      hg now decodeMs filterMs call (by rw [event]) (hinput ▸ hpc)
    refine History.change (s := { s with
      shared.screen := if input then frameDone call.timestampMs decodeMs filterMs s.shared.screen
        else styleDone filterMs s.shared.screen
      frame.pc := .head, frame.previous := s.frame.filtered }) ?_ ?_ ?_ _
    · cases input with
      | true => exact h.finish hpc hfirst rfl rfl ⟨rfl, rfl, rfl⟩
      | false => exact h.finish hpc hfirst (h.again (by rw [hpc]; rfl)) rfl ⟨rfl, rfl, rfl⟩
    · rfl
    · exact renderNextLocked_look now _
  | fail now decodeMs filterMs event pc eq =>
    subst eq
    refine History.change (s := { s with frame.pc := .head }) (h.rest ?_ ?_) ?_ ?_ _
    · rfl
    · rfl
    · rfl
    · exact lookChange_then (renderNextLocked_same now _) ⟨rfl, rfl, .inr ⟨rfl, rfl, rfl, rfl⟩⟩

/-! ## Runs -/

theorem publish_look (job : Job) (result : JobResult) (now freeBytes : Int) (p : PhotoStore)
    (sh : Shared) : LookChange sh.screen (publish job result now freeBytes p sh).screen :=
  lookChange_of_same (publish_same job result now freeBytes p sh)

theorem History.photo (h : History l s) (hselected : s.shared.screen.Selected) {e : PhotoEvent}
    {v : PhotoView} (hv : e.run s.photoView = some v) :
    History (l ++ e.acts s.photoView v) { s with shared := v.shared, photo := v.photo } := by
  have hstep : e.Step s.shared s.photo v := PhotoEvent.run_step hv
  have hlook : LookChange s.shared.screen v.shared.screen := by
    cases hstep with
    | install freeBytes state settings event pc eq =>
      rw [eq]
      exact installStore_look hselected state settings freeBytes s.photo.store
    | publish job result now freeBytes event pc eq =>
      rw [eq]
      exact publish_look ..
    | exit event pc running eq => exact eq ▸ lookChange_of_same (.refl _)
    | configure event pc eq => exact eq ▸ lookChange_of_same (.refl _)
    | opened plan readable status event pc eq => exact eq ▸ lookChange_of_same (.refl _)
    | take event pc pending eq => exact eq ▸ lookChange_of_same (.refl _)
    | call job event pc eq => exact eq ▸ lookChange_of_same (.refl _)
    | finish job work r event pc call eq => exact eq ▸ lookChange_of_same (.refl _)
    | handBack job result event pc eq => exact eq ▸ lookChange_of_same (.refl _)
  refine h.change ?_ hlook _
  rfl

theorem History.owner (h : History l s) {created : Bool} {plan : FilePlan}
    (hs : ownerStep created plan s = some s') : History l s' := by
  obtain ⟨running, complete, ready, state, hscreen⟩ := ownerStep_screen hs
  have hlook : LookChange s.shared.screen s'.shared.screen := by
    rw [hscreen]
    exact ⟨rfl, rfl, .inr ⟨rfl, rfl, rfl, rfl⟩⟩
  rcases ownerStep_frame hs with ⟨hframe, -⟩ | ⟨-, -, hframe⟩
  · have h' := h.change hframe hlook []
    rwa [List.append_nil] at h'
  · have hhead : History l { s with frame := { s.frame with pc := .head } } := h.rest rfl rfl
    have h' := hhead.change hframe hlook []
    rwa [List.append_nil] at h'

theorem History.step (h : History l s) (hselected : s.shared.screen.Selected) {e : Event}
    (hg : firstFrameSettled l s e) (hs : worker.step s e = some (s', o)) : History (l ++ o) s' := by
  cases e with
  | ui call =>
    cases hs
    refine h.change ?_ ?_ _
    · rfl
    · exact call_look s.frame.filtered call s.shared
  | frame e =>
    obtain ⟨v, hv, hs⟩ := Option.map_eq_some_iff.1 hs
    cases hs
    exact h.frame hg hv
  | photo e =>
    obtain ⟨v, hv, hs⟩ := Option.map_eq_some_iff.1 hs
    cases hs
    exact h.photo hselected hv
  | owner created plan =>
    obtain ⟨v, hv, hs⟩ := Option.map_eq_some_iff.1 hs
    cases hs
    rw [List.append_nil]
    exact h.owner hv

theorem fresh_history (h : Fresh s) : History [] s := by
  obtain ⟨now, root, model, version, status, memory, card, rfl⟩ := h
  exact ⟨(fun hp => by cases hp), (fun hf => by cases hf), (fun hp => by cases hp),
    (fun _ hs => by cases hs), (fun _ hd => by cases hd), (fun _ _ _ hf => by cases hf),
    fun _ _ hf => by cases hf⟩

/-- **A previous frame was made with the settings of the frame it goes into**, in every run in
which the first frame ends with the settings it was taken with. -/
theorem history_fits (h0 : Fresh s₀) (h : Reach worker firstFrameSettled s₀ es l s) :
    HistoryFits l s := by
  refine (h.inv (I := fun l s => History l s ∧ Bounded s ∧ Handoff s)
    ⟨fresh_history h0, fresh_bounded h0, fresh_handoff h0⟩ fun _ _ _ _ _ hi hg hs => ?_).1.fits
  obtain ⟨hhistory, hbounded, hh⟩ := hi
  exact ⟨hhistory.step hbounded.selected hg hs, hbounded.step hh hs, hh.step hs⟩

/-- The guard as a test of an event. -/
def firstFrameSettledEvent (_ : List Act) (s : DisplayProbeWorker) (e : Event) : Bool :=
  match e, s.frame.pc with
  | .frame (.finish ..), .finishing call true =>
    s.shared.screen.intake.hasRaw ||
      call.presetIndex == (look s.shared.screen).presetIndex &&
        call.preset == (look s.shared.screen).preset &&
        call.intensity == (look s.shared.screen).intensity
  | _, _ => true

theorem firstFrameSettledEvent_guard (l : List Act) (s : DisplayProbeWorker) (e : Event)
    (h : firstFrameSettledEvent l s e = true) : firstFrameSettled l s e := by
  rintro now decodeMs filterMs call rfl hpc hraw
  simp only [firstFrameSettledEvent, hpc, hraw, Bool.false_or, Bool.and_eq_true, beq_iff_eq] at h
  exact ⟨h.1.1, h.1.2, h.2⟩

/-- A frame is submitted, taken and decoded; `between` happens while it is decoded. -/
def frameInto (timestampMs : Int64) (between : List Event) : List Event :=
  [.ui (.submitJpeg (some [0xff, 0xd8, 0xff, 0xd9]) timestampMs), .frame (.turn 0)] ++ between ++
    [.frame (.decoded true blackFrame)]

/-- Two frames; `between` happens while the first is decoded. -/
def twoFrames (between : List Event) : List Event :=
  List.flatten [Event.startUp, frameInto 100 between, [.frame .filtered, .frame (.finish 0 0 0)],
    frameInto 200 []]

/-- The call that `processFrame` is in has a previous frame, and this preset. -/
def mixesPreset (preset : Int) : RunLoop → Bool
  | .filtering call _ _ => call.previous.isSome && call.presetIndex == preset
  | _ => false

theorem mixesPreset_pc {preset : Int} {pc : RunLoop} (h : mixesPreset preset pc = true) :
    ∃ call input written buffer, pc = .filtering call input written ∧
      call.previous = some buffer ∧ call.presetIndex = preset := by
  unfold mixesPreset at h
  split at h
  · simp only [Bool.and_eq_true, beq_iff_eq] at h
    obtain ⟨buffer, hb⟩ := Option.isSome_iff_exists.1 h.1
    exact ⟨_, _, _, buffer, rfl, hb, h.2⟩
  · cases h

theorem history_fits_session : ∃ l s call input written buffer,
    Reach worker firstFrameSettled sampleWorker (twoFrames []) l s ∧
      s.frame.pc = .filtering call input written ∧ call.previous = some buffer ∧
      MadeWith l buffer call.toFilterSettings := by
  obtain ⟨l, s, h, hp⟩ := reach_of_execIf (M := worker) (g := firstFrameSettledEvent)
    (s := sampleWorker) (twoFrames []) (p := fun x => mixesPreset 0 x.1.frame.pc)
    firstFrameSettledEvent_guard (by decide +kernel)
  obtain ⟨call, input, written, buffer, hpc, hb, -⟩ := mixesPreset_pc hp
  exact ⟨l, s, call, input, written, buffer, h, hpc, hb,
    history_fits sample_fresh h call input written hpc buffer hb⟩

/-- The style is changed while the first frame is decoded, and the second frame is mixed with the
first one's old style. -/
theorem first_change_mixed : ∃ l s, Run worker sampleWorker (twoFrames [.press .next]) l s ∧
    ¬ HistoryFits l s := by
  obtain ⟨l, s, h, hp⟩ := run_of_exec (M := worker) (s := sampleWorker) (twoFrames [.press .next])
    (p := fun x => mixesPreset 1 x.1.frame.pc &&
      (filteredCalls x.2).all (·.presetIndex == 0)) (by decide +kernel)
  simp only [Bool.and_eq_true, List.all_eq_true, beq_iff_eq] at hp
  obtain ⟨call, input, written, buffer, hpc, hb, hpreset⟩ := mixesPreset_pc hp.1
  refine ⟨l, s, h, fun hfits => ?_⟩
  obtain ⟨call', hm, -, hlook⟩ := hfits call input written hpc buffer hb
  have hzero := hlook.presetIndex
  rw [hp.2 call' hm, hpreset] at hzero
  cases hzero

end RetroLens.Worker
