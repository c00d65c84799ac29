import RetroLens.Worker.Calls

/-!
# What a call can choose

The calls of the camera and the user, seen from the settings and the frame on
its way in. `UiCall.run_choice` says once that a call selects a style, moves
the parameter, adjusts its value, marks a favorite, turns the diagnostics on or
off, submits a frame, or leaves all of these alone.
-/

namespace RetroLens.Worker

open Text RetroLens.Core Store

/-- The numbers of the frames so far. -/
def FilterProbeMetrics.frames (m : FilterProbeMetrics) : Int × Int × Int × Int :=
  (m.acceptedFrames, m.processedFrames, m.droppedFrames, m.decodeFailures)

/-- The style and the parameter that the metrics name. -/
def FilterProbeMetrics.selection (m : FilterProbeMetrics) : Int × Nat :=
  (m.selectedPreset, m.parameterIndex)

/-- Two screens with the same settings. -/
structure Screen.SameSettings (c c' : Screen) : Prop where
  running : c'.running = c.running
  style : c'.style = c.style
  diagnostics : c'.diagnostics = c.diagnostics
  settingsDirty : c'.settingsDirty = c.settingsDirty
  selection : c'.filterMetrics.selection = c.filterMetrics.selection

/-- Two screens with the same settings and the same frame on its way in. -/
structure Screen.Same (c c' : Screen) : Prop extends Screen.SameSettings c c' where
  intake : c'.intake = c.intake
  frames : c'.filterMetrics.frames = c.filterMetrics.frames

def moveParameter (index : Nat) (c : Screen) : Screen :=
  { c with style.parameterIndex := index, filterMetrics.parameterIndex := index }

variable {c c' c'' c₁ : Screen} {sh : Shared}

namespace Screen

theorem SameSettings.refl (c : Screen) : SameSettings c c := ⟨rfl, rfl, rfl, rfl, rfl⟩

theorem SameSettings.trans (h : SameSettings c c') (h' : SameSettings c' c'') :
    SameSettings c c'' :=
  ⟨h'.running.trans h.running, h'.style.trans h.style, h'.diagnostics.trans h.diagnostics,
    h'.settingsDirty.trans h.settingsDirty, h'.selection.trans h.selection⟩

theorem Same.refl (c : Screen) : Same c c := ⟨.refl c, rfl, rfl⟩

theorem Same.trans (h : Same c c') (h' : Same c' c'') : Same c c'' :=
  ⟨h.toSameSettings.trans h'.toSameSettings, h'.intake.trans h.intake, h'.frames.trans h.frames⟩

end Screen

open Screen (Same SameSettings)

/-! ## The basic changes -/

theorem frames_eq {m m' : FilterProbeMetrics} (h : m'.frames = m.frames) :
    m'.acceptedFrames = m.acceptedFrames ∧ m'.processedFrames = m.processedFrames ∧
      m'.droppedFrames = m.droppedFrames ∧ m'.decodeFailures = m.decodeFailures := by
  simpa [FilterProbeMetrics.frames] using h

theorem selectStyle_same (style : Int) (h : Same c c₁) :
    Same (selectStyle style c) (selectStyle style c₁) := by
  have hparameter := congrArg Prod.snd h.selection
  refine ⟨⟨h.running, ?_, h.diagnostics, rfl, congrArg (Prod.mk style) hparameter⟩, ?_, h.frames⟩ <;>
    simp only [selectStyle, h.style, h.intake]

theorem moveParameter_same (index : Nat) (h : Same c c₁) :
    Same (moveParameter index c) (moveParameter index c₁) := by
  have hpreset := congrArg Prod.fst h.selection
  refine ⟨⟨h.running, ?_, h.diagnostics, h.settingsDirty, congrArg (Prod.mk · index) hpreset⟩,
    h.intake, h.frames⟩
  simp only [moveParameter, h.style]

theorem adjustParameterLocked_same (direction : Int) (h : Same c c₁) :
    Same (adjustParameterLocked direction c) (adjustParameterLocked direction c₁) := by
  refine ⟨⟨h.running, ?_, h.diagnostics, rfl, h.selection⟩, ?_, h.frames⟩ <;>
    simp only [adjustParameterLocked, h.style, h.intake]

theorem toggleFavoriteLocked_same (h : Same c c₁) :
    Same (toggleFavoriteLocked c) (toggleFavoriteLocked c₁) := by
  refine ⟨⟨h.running, ?_, h.diagnostics, rfl, h.selection⟩, h.intake, h.frames⟩
  simp only [toggleFavoriteLocked, h.style]

/-! ## Selecting stays in the catalogue -/

theorem neighbour_range {style direction : Int} (hs : InCatalogue style)
    (hd : direction = 1 ∨ direction = -1) : InCatalogue (neighbour style direction) := by
  obtain ⟨h0, h1⟩ := hs
  have hcount := presetCount_eq
  unfold neighbour
  exact ⟨Int.tmod_nonneg _ (by omega), Int.tmod_lt_of_pos _ (by omega)⟩

theorem shiftedStyle_range (style delta : Int) : InCatalogue (shiftedStyle style delta) := by
  have hcount := presetCount_eq
  have hlt := Int.tmod_lt_of_pos (style + delta) (b := presetCount) (by omega)
  have hneg := Int.lt_tmod_of_pos (style + delta) (b := presetCount) (by omega)
  unfold shiftedStyle InCatalogue
  dsimp only
  split <;> omega

theorem nextCategory_range {category : Category} {selected direction : Int}
    (hd : direction = 1 ∨ direction = -1) (n : Nat) {candidate : Int}
    (hc : InCatalogue candidate) :
    InCatalogue (nextCategory category selected direction n candidate) := by
  induction n generalizing candidate with
  | zero => exact hc
  | succ n ih =>
    have hnext := neighbour_range hc hd
    simp only [nextCategory]
    split
    · exact ih hnext
    · exact hnext

/-! ## The calls -/

/-- What a call does to the settings. -/
inductive Choice (c c' : Screen) : Prop where
  | none (same : Same c c')
  | select (style : Int) (range : InCatalogue c.style.selectedStyle → InCatalogue style)
      (same : Same (selectStyle style c) c')
  | parameter (index : Nat) (range : index < 4) (same : Same (moveParameter index c) c')
  | adjust (direction : Int) (same : Same (adjustParameterLocked direction c) c')
  | favorite (same : Same (toggleFavoriteLocked c) c')
  | diagnostics (on : Bool)
      (same : Same { c with diagnostics := on, settingsDirty := true } c')

/-- A choice with changes before and after it that concern other things. -/
theorem Choice.around (hs : Same c c₁) (h : Choice c₁ c') (hs' : Same c' c'') : Choice c c'' := by
  cases h with
  | none same => exact .none ((hs.trans same).trans hs')
  | select style range same =>
    exact .select style (hs.style ▸ range) (((selectStyle_same style hs).trans same).trans hs')
  | parameter index range same =>
    exact .parameter index range (((moveParameter_same index hs).trans same).trans hs')
  | adjust direction same =>
    exact .adjust direction (((adjustParameterLocked_same direction hs).trans same).trans hs')
  | favorite same => exact .favorite (((toggleFavoriteLocked_same hs).trans same).trans hs')
  | diagnostics on same =>
    refine .diagnostics on ((Same.trans ?_ same).trans hs')
    exact ⟨⟨hs.running, hs.style, rfl, rfl, hs.selection⟩, hs.intake, hs.frames⟩

theorem queueGalleryLocked_same {job : PhotoJob} {status : PhotoWriteState}
    (h : Same c sh.screen) : Same c (queueGalleryLocked job status sh).2.screen := by
  unfold queueGalleryLocked
  split
  · exact h
  · split
    · exact h
    · exact h.trans ⟨⟨rfl, rfl, rfl, rfl, rfl⟩, rfl, rfl⟩

theorem moveInGallery_same (direction : Int) (sh : Shared) :
    Same sh.screen (moveInGallery direction sh).screen := by
  unfold moveInGallery
  dsimp only
  split
  · exact queueGalleryLocked_same ⟨⟨rfl, rfl, rfl, rfl, rfl⟩, rfl, rfl⟩
  · exact .refl _

theorem keyGallery_same (sh : Shared) : Same sh.screen (keyGallery sh).screen := by
  unfold keyGallery
  split
  · exact ⟨⟨rfl, rfl, rfl, rfl, rfl⟩, rfl, rfl⟩
  · dsimp only
    split
    · exact queueGalleryLocked_same ⟨⟨rfl, rfl, rfl, rfl, rfl⟩, rfl, rfl⟩
    · exact ⟨⟨rfl, rfl, rfl, rfl, rfl⟩, rfl, rfl⟩

theorem keyDirection_choice {direction : Int} (hd : direction = 1 ∨ direction = -1)
    (sh : Shared) : Choice sh.screen (keyDirection direction sh).screen := by
  unfold keyDirection
  split
  · exact .none (moveInGallery_same direction sh)
  · exact .adjust direction (.refl _)
  · exact .select _ (fun h => neighbour_range h hd) ⟨⟨rfl, rfl, rfl, rfl, rfl⟩, rfl, rfl⟩

theorem changeCategoryLocked_choice {direction : Int} (hd : direction = 1 ∨ direction = -1)
    (c : Screen) : Choice c (changeCategoryLocked direction c) :=
  .select _ (fun h => nextCategory_range hd _ h) ⟨⟨rfl, rfl, rfl, rfl, rfl⟩, rfl, rfl⟩

theorem keyVertical_choice (down : Bool) (c : Screen) : Choice c (keyVertical down c) := by
  unfold keyVertical
  split
  · exact .parameter _ (Nat.mod_lt _ (by decide)) ⟨⟨rfl, rfl, rfl, rfl, rfl⟩, rfl, rfl⟩
  · exact .none (.refl c)
  · refine changeCategoryLocked_choice ?_ c
    cases down <;> simp

theorem keyConfirm_choice (sh : Shared) : Choice sh.screen (keyConfirm sh).screen := by
  unfold keyConfirm
  split
  · have h : Same sh.screen (queueGalleryDeleteLocked sh).2.screen :=
      queueGalleryLocked_same (.refl _)
    dsimp only
    split
    · exact .none h
    · exact .none (h.trans ⟨⟨rfl, rfl, rfl, rfl, rfl⟩, rfl, rfl⟩)
  · exact .favorite (.refl _)
  · exact .none ⟨⟨rfl, rfl, rfl, rfl, rfl⟩, rfl, rfl⟩
  · exact .none ⟨⟨rfl, rfl, rfl, rfl, rfl⟩, rfl, rfl⟩

theorem keyBack_same (c : Screen) : Same c (keyBack c).2 := by
  unfold keyBack
  split <;> exact ⟨⟨rfl, rfl, rfl, rfl, rfl⟩, rfl, rfl⟩

theorem keyEffect_choice (keyValue : PhotoUiKey) (timestampMs : Int) (sh : Shared) :
    Choice sh.screen (keyEffect keyValue timestampMs sh).2.screen := by
  cases keyValue with
  | previous => exact keyDirection_choice (.inr rfl) sh
  | next => exact keyDirection_choice (.inl rfl) sh
  | up => exact keyVertical_choice false sh.screen
  | down => exact keyVertical_choice true sh.screen
  | confirm => exact keyConfirm_choice sh
  | gallery => exact .none (keyGallery_same sh)
  | back => exact .none (keyBack_same sh.screen)
  | diagnostics => exact .diagnostics _ ⟨⟨rfl, rfl, rfl, rfl, rfl⟩, rfl, rfl⟩
  | browser => exact .none ⟨⟨rfl, rfl, rfl, rfl, rfl⟩, rfl, rfl⟩
  | record => exact .none ⟨⟨rfl, rfl, rfl, rfl, rfl⟩, rfl, rfl⟩
  | focus => exact .none ⟨⟨rfl, rfl, rfl, rfl, rfl⟩, rfl, rfl⟩
  | compare => exact .none (.refl _)
  | capture => exact .none (.refl _)
  | other => exact .none (.refl _)

theorem key_choice (keyValue : PhotoUiKey) (down : Bool) (timestampMs : Int) (sh : Shared) :
    Choice sh.screen (key keyValue down timestampMs sh).2.screen := by
  unfold key
  split
  · exact .none ⟨⟨rfl, rfl, rfl, rfl, rfl⟩, rfl, rfl⟩
  · split
    · exact .none (.refl _)
    · refine Choice.around ?_ (keyEffect_choice keyValue timestampMs { sh with
        screen.controlsVisible := true
        screen.controlsVisibleUntilMs := timestampMs + 2000 }) ⟨⟨rfl, rfl, rfl, rfl, rfl⟩, rfl, rfl⟩
      exact ⟨⟨rfl, rfl, rfl, rfl, rfl⟩, rfl, rfl⟩

theorem touchUp_choice (swipe : Swipe) (timestampMs : Int) (c : Screen) :
    Choice c (touchUp swipe timestampMs c) := by
  cases swipe with
  | left => exact .select _ (fun h => neighbour_range h (.inl rfl)) ⟨⟨rfl, rfl, rfl, rfl, rfl⟩, rfl, rfl⟩
  | right => exact .select _ (fun h => neighbour_range h (.inr rfl)) ⟨⟨rfl, rfl, rfl, rfl, rfl⟩, rfl, rfl⟩
  | none => exact .none ⟨⟨rfl, rfl, rfl, rfl, rfl⟩, rfl, rfl⟩

theorem touch_choice (action : TouchAction) (timestampMs : Int) (c : Screen) :
    Choice c (touch action timestampMs c) := by
  have hmirror : ∀ c' : Screen, Choice c c' → Choice c
      { c' with
        filterMetrics.compare := c'.compare
        filterMetrics.controlsVisible := c'.controlsVisible
        filterMetrics.favorite := isFavoriteLocked c'.style.selectedStyle c' } :=
    fun c' h => h.around (.refl c) ⟨⟨rfl, rfl, rfl, rfl, rfl⟩, rfl, rfl⟩
  refine hmirror _ ?_
  cases action with
  | down => exact .none ⟨⟨rfl, rfl, rfl, rfl, rfl⟩, rfl, rfl⟩
  | move =>
    dsimp only
    split
    · exact .none ⟨⟨rfl, rfl, rfl, rfl, rfl⟩, rfl, rfl⟩
    · exact .none (.refl c)
  | up swipe =>
    refine Choice.around ?_ (touchUp_choice swipe timestampMs { c with compare := false }) (.refl _)
    exact ⟨⟨rfl, rfl, rfl, rfl, rfl⟩, rfl, rfl⟩
  | other => exact .none (.refl c)

theorem filterPresetIndex_eq {style : Int} (h : InCatalogue style) :
    filterPresetIndex style = style := by
  obtain ⟨h0, h1⟩ := h
  unfold filterPresetIndex
  rw [if_neg (by omega), if_neg (by omega)]

theorem changeStyle_eq {delta : Int} (hd : delta ≠ 0) (c : Screen) :
    changeStyle delta c = selectStyle (shiftedStyle c.style.selectedStyle delta) c := by
  have h := filterPresetIndex_eq (shiftedStyle_range c.style.selectedStyle delta)
  rw [changeStyle, if_neg hd]
  dsimp only
  rw [h]
  rfl

theorem changeStyle_choice (delta : Int) (c : Screen) : Choice c (changeStyle delta c) := by
  by_cases hd : delta = 0
  · rw [changeStyle, if_pos hd]
    exact .none (.refl c)
  · rw [changeStyle_eq hd]
    exact .select _ (fun _ => shiftedStyle_range _ _) (.refl _)

theorem requestPhoto_same (filtered : Frame) (timestampMs : Int64) (sh : Shared) :
    Same sh.screen (requestPhoto filtered timestampMs sh).2.screen := by
  unfold requestPhoto
  dsimp only
  split
  · exact ⟨⟨rfl, rfl, rfl, rfl, rfl⟩, rfl, rfl⟩
  · split
    · exact ⟨⟨rfl, rfl, rfl, rfl, rfl⟩, rfl, rfl⟩
    · split <;> exact ⟨⟨rfl, rfl, rfl, rfl, rfl⟩, rfl, rfl⟩

/-- **What a call can choose**; only `submitJpeg` has a say in the frames. -/
theorem UiCall.run_choice (filtered : Frame) (call : UiCall) (sh : Shared) :
    (∃ jpeg timestampMs, call = .submitJpeg jpeg timestampMs) ∨
      (∀ jpeg timestampMs, call ≠ .submitJpeg jpeg timestampMs) ∧
        Choice sh.screen (call.run filtered sh).screen := by
  cases call with
  | submitJpeg jpeg timestampMs => exact .inl ⟨jpeg, timestampMs, rfl⟩
  | key keyValue down timestampMs =>
    exact .inr ⟨by simp, key_choice keyValue down timestampMs sh⟩
  | touch action timestampMs => exact .inr ⟨by simp, touch_choice action timestampMs sh.screen⟩
  | changeStyle delta => exact .inr ⟨by simp, changeStyle_choice delta sh.screen⟩
  | requestPhoto timestampMs =>
    exact .inr ⟨by simp, .none (requestPhoto_same filtered timestampMs sh)⟩
  | setFocus active => exact .inr ⟨by simp, .none ⟨⟨rfl, rfl, rfl, rfl, rfl⟩, rfl, rfl⟩⟩
  | configureStorage status => exact .inr ⟨by simp, .none (.refl _)⟩
  | noteAttempts attempts => exact .inr ⟨by simp, .none ⟨⟨rfl, rfl, rfl, rfl, rfl⟩, rfl, rfl⟩⟩

/-- A choice may mark the style dirty, and leaves the frame on its way in alone. -/
theorem Choice.intake (h : Choice c c') :
    (∃ dirty, c'.intake = { c.intake with styleDirty := dirty }) ∧
      c'.filterMetrics.frames = c.filterMetrics.frames := by
  cases h with
  | none same => exact ⟨⟨_, same.intake⟩, same.frames⟩
  | select style range same => exact ⟨⟨_, same.intake⟩, same.frames⟩
  | parameter index range same => exact ⟨⟨_, same.intake⟩, same.frames⟩
  | adjust direction same => exact ⟨⟨_, same.intake⟩, same.frames⟩
  | favorite same => exact ⟨⟨_, same.intake⟩, same.frames⟩
  | diagnostics on same => exact ⟨⟨_, same.intake⟩, same.frames⟩

/-- The metrics name the style and the parameter that are selected. -/
def Screen.Selected (c : Screen) : Prop :=
  c.filterMetrics.selection = (c.style.selectedStyle, c.style.parameterIndex)

theorem Screen.Selected.same (h : c.Selected) (hs : SameSettings c c') : c'.Selected := by
  unfold Screen.Selected
  rw [hs.selection, hs.style]
  exact h

theorem adjustParameterLocked_selection (direction : Int) (c : Screen) :
    (adjustParameterLocked direction c).style.selectedStyle = c.style.selectedStyle ∧
      (adjustParameterLocked direction c).style.parameterIndex = c.style.parameterIndex := by
  unfold adjustParameterLocked
  dsimp only
  split <;> exact ⟨rfl, rfl⟩

theorem toggleFavoriteLocked_selection (c : Screen) :
    (toggleFavoriteLocked c).style.selectedStyle = c.style.selectedStyle ∧
      (toggleFavoriteLocked c).style.parameterIndex = c.style.parameterIndex := by
  unfold toggleFavoriteLocked
  dsimp only
  split <;> exact ⟨rfl, rfl⟩

/-- Every choice names what it selects. -/
theorem Choice.selected (hc : Choice c c') (h : c.Selected) : c'.Selected := by
  have hparameter : c.filterMetrics.parameterIndex = c.style.parameterIndex := congrArg Prod.snd h
  have hpreset : c.filterMetrics.selectedPreset = c.style.selectedStyle := congrArg Prod.fst h
  cases hc with
  | none same => exact h.same same.toSameSettings
  | select style range same =>
    refine Screen.Selected.same ?_ same.toSameSettings
    exact congrArg (Prod.mk style) hparameter
  | parameter index range same =>
    refine Screen.Selected.same ?_ same.toSameSettings
    exact congrArg (Prod.mk · index) hpreset
  | adjust direction same =>
    refine Screen.Selected.same ?_ same.toSameSettings
    obtain ⟨h1, h2⟩ := adjustParameterLocked_selection direction c
    rw [Screen.Selected, h1, h2]
    exact h
  | favorite same =>
    refine Screen.Selected.same ?_ same.toSameSettings
    obtain ⟨h1, h2⟩ := toggleFavoriteLocked_selection c
    rw [Screen.Selected, h1, h2]
    exact h
  | diagnostics on same =>
    have h' : Screen.Selected { c with diagnostics := on, settingsDirty := true } := h
    exact h'.same same.toSameSettings

/-! ## The threads -/

theorem renderNextLocked_same (now : Int) (c : Screen) : Same c (renderNextLocked now c) := by
  have h1 : Same c (hideControls now c) := by
    unfold hideControls
    split
    · exact ⟨⟨rfl, rfl, rfl, rfl, rfl⟩, rfl, rfl⟩
    · exact .refl c
  have h2 : ∀ c, Same c (expireMessage now c) := fun c => by
    unfold expireMessage
    split
    · exact ⟨⟨rfl, rfl, rfl, rfl, rfl⟩, rfl, rfl⟩
    · exact .refl c
  exact (h1.trans (h2 _)).trans ⟨⟨rfl, rfl, rfl, rfl, rfl⟩, rfl, rfl⟩

/-- The frame thread has no part in the settings. -/
theorem FrameEvent.run_settings {e : FrameEvent} {v v' : FrameView} (h : e.run v = some v') :
    SameSettings v.screen v'.screen := by
  cases run_step h with
  | take now event pc running pending eq => exact eq ▸ ⟨rfl, rfl, rfl, rfl, rfl⟩
  | again now event pc running pending dirty raw eq => exact eq ▸ ⟨rfl, rfl, rfl, rfl, rfl⟩
  | idle now event pc running pending eq =>
    exact eq ▸ (renderNextLocked_same now v.screen).toSameSettings
  | finish now decodeMs filterMs call input event pc eq =>
    rw [eq]
    refine SameSettings.trans ?_ (renderNextLocked_same now _).toSameSettings
    cases input <;> exact ⟨rfl, rfl, rfl, rfl, rfl⟩
  | fail now decodeMs filterMs event pc eq =>
    rw [eq]
    have h : SameSettings v.screen (decodeError decodeMs filterMs v.screen) :=
      ⟨rfl, rfl, rfl, rfl, rfl⟩
    exact h.trans (renderNextLocked_same now _).toSameSettings
  | exit now event pc running eq => exact eq ▸ .refl _
  | decoded ok raw settings usePrevious event pc eq => exact eq ▸ .refl _
  | wrote pixels call input written event pc eq => exact eq ▸ .refl _
  | filtered call input written event pc eq => exact eq ▸ .refl _

/-- A submission has no part in the settings. -/
theorem submitJpeg_settings (jpeg : Option Bytes) (timestampMs : Int64) (c : Screen) :
    SameSettings c (submitJpeg jpeg timestampMs c).2 := by
  unfold submitJpeg
  split
  · exact .refl c
  · split
    · exact .refl c
    · split
      · exact .refl c
      · split <;> exact ⟨rfl, rfl, rfl, rfl, rfl⟩

theorem mirrorPhoto_same (p : PhotoStore) (freeBytes : Int) (c : Screen) :
    Same c (mirrorPhoto p freeBytes c) := ⟨⟨rfl, rfl, rfl, rfl, rfl⟩, rfl, rfl⟩

theorem publish_same (job : Job) (result : JobResult) (now freeBytes : Int) (p : PhotoStore)
    (sh : Shared) : Same sh.screen (publish job result now freeBytes p sh).screen := by
  unfold publish
  refine Same.trans ?_ (mirrorPhoto_same p freeBytes _)
  split
  · unfold publishSave
    dsimp only
    split <;> exact ⟨⟨rfl, rfl, rfl, rfl, rfl⟩, rfl, rfl⟩
  · exact ⟨⟨rfl, rfl, rfl, rfl, rfl⟩, rfl, rfl⟩
  · unfold publishDelete
    dsimp only
    split
    · exact queueGalleryLocked_same ⟨⟨rfl, rfl, rfl, rfl, rfl⟩, rfl, rfl⟩
    · exact ⟨⟨rfl, rfl, rfl, rfl, rfl⟩, rfl, rfl⟩
  · exact .refl _

theorem installStore_intake (state : PhotoStorageState) (settings : Option RuntimeSettings)
    (freeBytes : Int) (p : PhotoStore) (c : Screen) :
    (∃ dirty, (installStore state settings freeBytes p c).intake =
      { c.intake with styleDirty := dirty }) ∧
      (installStore state settings freeBytes p c).filterMetrics.frames = c.filterMetrics.frames := by
  cases settings <;> exact ⟨⟨_, rfl⟩, rfl⟩

theorem installStore_selected {c : Screen} (h : c.Selected) (state : PhotoStorageState)
    (settings : Option RuntimeSettings) (freeBytes : Int) (p : PhotoStore) :
    (installStore state settings freeBytes p c).Selected := by
  have hparameter : c.filterMetrics.parameterIndex = c.style.parameterIndex := congrArg Prod.snd h
  cases settings with
  | none => exact congrArg (Prod.mk c.style.selectedStyle) hparameter
  | some settings => exact congrArg (Prod.mk settings.selectedPreset) hparameter

/-! ## Submitting -/

/-- The arguments that `submitJpeg` does not refuse. -/
def ValidSubmission (bytes : Bytes) (timestampMs : Int64) : Prop :=
  4 ≤ bytes.length ∧ bytes.length ≤ kFilterProbeInputCapacity ∧ 0 < timestampMs

/-- What a submission does. -/
inductive Submitted (jpeg : Option Bytes) (timestampMs : Int64) (c : Screen) :
    FilterSubmitStatus × Screen → Prop where
  | invalid (why : c.running = true → ∀ bytes, jpeg = some bytes →
      ¬ ValidSubmission bytes timestampMs) :
      Submitted jpeg timestampMs c (.invalid, c)
  | dropped (busy : c.intake.inputPending = true ∨ c.intake.inputInUse = true) :
      Submitted jpeg timestampMs c
        (.busyDropped,
          { c with filterMetrics.droppedFrames := c.filterMetrics.droppedFrames + 1 })
  | accepted (bytes : Bytes) (eq : jpeg = some bytes) (running : c.running = true)
      (pending : c.intake.inputPending = false) (inUse : c.intake.inputInUse = false) :
      Submitted jpeg timestampMs c
        (.accepted, { c with
          intake.jpeg := bytes
          intake.jpegTimestampMs := timestampMs
          intake.inputPending := true
          filterMetrics.acceptedFrames := c.filterMetrics.acceptedFrames + 1 })

theorem submitJpeg_cases (jpeg : Option Bytes) (timestampMs : Int64) (c : Screen) :
    Submitted jpeg timestampMs c (submitJpeg jpeg timestampMs c) := by
  unfold submitJpeg
  split
  · exact .invalid fun _ _ h => by cases h
  · rename_i bytes
    split
    · rename_i h
      refine .invalid fun _ _ hb ⟨h1, h2, h3⟩ => ?_
      cases hb
      rcases h with h | h | h
      · omega
      · omega
      · exact absurd h (by simpa using h3)
    · split
      · rename_i hr
        exact .invalid fun hr' => by simp [hr] at hr'
      · rename_i hr
        rw [Bool.not_eq_false] at hr
        split
        · rename_i hb
          exact .dropped hb
        · rename_i hb
          rw [not_or, Bool.not_eq_true, Bool.not_eq_true] at hb
          exact .accepted bytes rfl hr hb.1 hb.2

end RetroLens.Worker
