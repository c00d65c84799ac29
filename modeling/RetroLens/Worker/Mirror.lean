import RetroLens.Worker.Ranges

/-!
# The displayed copy of the state

`filterMetrics_` is a second copy of what the user sees, refreshed by hand in
every branch. `Mirrored` says that the two agree. Two branches forget a part:
`changeStyle` the favorite, and the section that installs the settings the
value of any parameter but the intensity. Runs in which these two make no
difference are exactly those that pass through mirrored states only.
-/

namespace RetroLens.Worker

open Text RetroLens.Core Store Runs

/-- What the display shows of the style. -/
structure ShownStyle where
  selectedPreset : Int
  intensity : Int
  parameterIndex : Nat
  parameterValue : Int
  deriving DecidableEq

def Style.shown (s : Style) : ShownStyle :=
  { selectedPreset := s.selectedStyle, intensity := s.intensity
    parameterIndex := s.parameterIndex, parameterValue := s.parameterValue }

def FilterProbeMetrics.shown (m : FilterProbeMetrics) : ShownStyle :=
  { selectedPreset := m.selectedPreset, intensity := m.intensity
    parameterIndex := m.parameterIndex, parameterValue := m.parameterValue }

/-- The metrics show the state as it is. -/
structure Mirrored (c : Screen) : Prop where
  style : c.filterMetrics.shown = c.style.shown
  favorite : c.filterMetrics.favorite = isFavoriteLocked c.style.selectedStyle c
  scene : c.filterMetrics.scene = c.scene
  compare : c.filterMetrics.compare = c.compare
  focusActive : c.filterMetrics.focusActive = c.focusActive
  photoStatus : c.filterMetrics.photoStatus = c.photoStatus
  galleryIndex : c.filterMetrics.galleryIndex = c.gallery.galleryIndex

/-- The part of it that the end of `key` does not refresh. -/
structure PartlyMirrored (c : Screen) : Prop where
  style : c.filterMetrics.shown = c.style.shown
  compare : c.filterMetrics.compare = c.compare

variable {c c' : Screen} {sh sh' : Shared}

/-! ## The style -/

theorem shown_iff {m : FilterProbeMetrics} {s : Style} : m.shown = s.shown ↔
    m.selectedPreset = s.selectedStyle ∧ m.intensity = s.intensity ∧
      m.parameterIndex = s.parameterIndex ∧ m.parameterValue = s.parameterValue := by
  simp [FilterProbeMetrics.shown, Style.shown]

theorem selectStyle_shown (style : Int) (h : c.filterMetrics.shown = c.style.shown) :
    (selectStyle style c).filterMetrics.shown = (selectStyle style c).style.shown := by
  obtain ⟨-, hintensity, hparameter, -⟩ := shown_iff.1 h
  exact shown_iff.2 ⟨rfl, hintensity, hparameter, rfl⟩

theorem adjustParameterLocked_shown (direction : Int) (h : c.filterMetrics.shown = c.style.shown) :
    (adjustParameterLocked direction c).filterMetrics.shown =
      (adjustParameterLocked direction c).style.shown := by
  obtain ⟨hpreset, hintensity, hparameter, -⟩ := shown_iff.1 h
  refine shown_iff.2 ?_
  unfold adjustParameterLocked
  dsimp only
  split
  · exact ⟨hpreset, rfl, hparameter, rfl⟩
  · exact ⟨hpreset, hintensity, hparameter, rfl⟩

theorem changeCategoryLocked_shown (direction : Int) (h : c.filterMetrics.shown = c.style.shown) :
    (changeCategoryLocked direction c).filterMetrics.shown =
      (changeCategoryLocked direction c).style.shown := by
  have hs := selectStyle_shown (nextCategory (presetAt c.style.selectedStyle).category
    c.style.selectedStyle direction presets.length c.style.selectedStyle) h
  exact hs

theorem keyVertical_shown (down : Bool) (h : c.filterMetrics.shown = c.style.shown) :
    (keyVertical down c).filterMetrics.shown = (keyVertical down c).style.shown := by
  obtain ⟨hpreset, hintensity, -, -⟩ := shown_iff.1 h
  unfold keyVertical
  split
  · exact shown_iff.2 ⟨hpreset, hintensity, rfl, rfl⟩
  · exact h
  · exact changeCategoryLocked_shown _ h

theorem toggleFavoriteLocked_shown (h : c.filterMetrics.shown = c.style.shown) :
    (toggleFavoriteLocked c).filterMetrics.shown = (toggleFavoriteLocked c).style.shown := by
  obtain ⟨hpreset, hintensity, hparameter, hvalue⟩ := shown_iff.1 h
  refine shown_iff.2 ?_
  unfold toggleFavoriteLocked
  dsimp only
  split <;> exact ⟨hpreset, hintensity, hparameter, hvalue⟩

/-! ## Keys -/

theorem queueGalleryLocked_partly {job : PhotoJob} {status : PhotoWriteState}
    (h : PartlyMirrored sh.screen) : PartlyMirrored (queueGalleryLocked job status sh).2.screen := by
  unfold queueGalleryLocked
  split
  · exact h
  · split
    · exact h
    · exact ⟨h.style, h.compare⟩

theorem keyDirection_partly (direction : Int) (h : PartlyMirrored sh.screen) :
    PartlyMirrored (keyDirection direction sh).screen := by
  unfold keyDirection
  split
  · unfold moveInGallery
    dsimp only
    split
    · exact queueGalleryLocked_partly ⟨h.style, h.compare⟩
    · exact h
  · exact ⟨adjustParameterLocked_shown direction h.style, h.compare⟩
  · have hs := selectStyle_shown (neighbour sh.screen.style.selectedStyle direction) h.style
    exact ⟨hs, h.compare⟩

theorem keyGallery_partly (h : PartlyMirrored sh.screen) :
    PartlyMirrored (keyGallery sh).screen := by
  unfold keyGallery
  split
  · exact ⟨h.style, h.compare⟩
  · dsimp only
    split
    · exact queueGalleryLocked_partly ⟨h.style, h.compare⟩
    · exact ⟨h.style, h.compare⟩

theorem keyConfirm_partly (h : PartlyMirrored sh.screen) :
    PartlyMirrored (keyConfirm sh).screen := by
  unfold keyConfirm
  split
  · have hq : PartlyMirrored (queueGalleryDeleteLocked sh).2.screen := queueGalleryLocked_partly h
    dsimp only
    split
    · exact hq
    · exact ⟨hq.style, hq.compare⟩
  · exact ⟨toggleFavoriteLocked_shown h.style, h.compare⟩
  · exact ⟨h.style, h.compare⟩
  · exact ⟨h.style, h.compare⟩

theorem keyVertical_compare (down : Bool) (h : c.filterMetrics.compare = c.compare) :
    (keyVertical down c).filterMetrics.compare = (keyVertical down c).compare := by
  unfold keyVertical
  split <;> exact h

theorem keyBack_partly (h : PartlyMirrored c) : PartlyMirrored (keyBack c).2 := by
  unfold keyBack
  split <;> exact ⟨h.style, h.compare⟩

theorem keyEffect_partly (keyValue : PhotoUiKey) (timestampMs : Int)
    (h : PartlyMirrored sh.screen) :
    PartlyMirrored (keyEffect keyValue timestampMs sh).2.screen := by
  cases keyValue with
  | previous => exact keyDirection_partly _ h
  | next => exact keyDirection_partly _ h
  | up => exact ⟨keyVertical_shown _ h.style, keyVertical_compare _ h.compare⟩
  | down => exact ⟨keyVertical_shown _ h.style, keyVertical_compare _ h.compare⟩
  | confirm => exact keyConfirm_partly h
  | gallery => exact keyGallery_partly h
  | back => exact keyBack_partly h
  | diagnostics => exact ⟨h.style, h.compare⟩
  | browser | record | focus | compare | capture | other => exact ⟨h.style, h.compare⟩

theorem mirrorKey_mirrored (h : PartlyMirrored c) : Mirrored (mirrorKey c) :=
  ⟨h.style, rfl, rfl, h.compare, rfl, rfl, rfl⟩

theorem key_mirrored (keyValue : PhotoUiKey) (down : Bool) (timestampMs : Int)
    (h : Mirrored sh.screen) : Mirrored (key keyValue down timestampMs sh).2.screen := by
  unfold key
  split
  · exact ⟨h.style, h.favorite, h.scene, rfl, h.focusActive, h.photoStatus, h.galleryIndex⟩
  · split
    · exact h
    · exact mirrorKey_mirrored (keyEffect_partly keyValue timestampMs ⟨h.style, h.compare⟩)

/-! ## The other calls -/

theorem touch_mirrored (action : TouchAction) (timestampMs : Int) (h : Mirrored c) :
    Mirrored (touch action timestampMs c) := by
  cases action with
  | down => exact ⟨h.style, rfl, h.scene, rfl, h.focusActive, h.photoStatus, h.galleryIndex⟩
  | move =>
    unfold touch
    dsimp only
    split <;> exact ⟨h.style, rfl, h.scene, rfl, h.focusActive, h.photoStatus, h.galleryIndex⟩
  | up swipe =>
    have hs := fun direction => selectStyle_shown (neighbour c.style.selectedStyle direction) h.style
    cases swipe with
    | left => exact ⟨hs 1, rfl, h.scene, rfl, h.focusActive, h.photoStatus, h.galleryIndex⟩
    | right => exact ⟨hs (-1), rfl, h.scene, rfl, h.focusActive, h.photoStatus, h.galleryIndex⟩
    | none => exact ⟨h.style, rfl, h.scene, rfl, h.focusActive, h.photoStatus, h.galleryIndex⟩
  | other => exact ⟨h.style, rfl, h.scene, rfl, h.focusActive, h.photoStatus, h.galleryIndex⟩

theorem setPhotoStatus_mirrored (status : PhotoWriteState) (until' : Int) (h : Mirrored c) :
    Mirrored (setPhotoStatus status until' c) :=
  ⟨h.style, h.favorite, h.scene, h.compare, h.focusActive, rfl, h.galleryIndex⟩

theorem requestPhoto_mirrored (filtered : Frame) (timestampMs : Int64) (h : Mirrored sh.screen) :
    Mirrored (requestPhoto filtered timestampMs sh).2.screen := by
  unfold requestPhoto
  dsimp only
  split
  · exact setPhotoStatus_mirrored _ _ h
  · split
    · exact setPhotoStatus_mirrored _ _ h
    · split <;> exact setPhotoStatus_mirrored _ _ h

theorem submitJpeg_mirrored (jpeg : Option Bytes) (timestampMs : Int64) (h : Mirrored c) :
    Mirrored (submitJpeg jpeg timestampMs c).2 := by
  unfold submitJpeg
  split
  · exact h
  · split
    · exact h
    · split
      · exact h
      · split <;> exact ⟨h.style, h.favorite, h.scene, h.compare, h.focusActive, h.photoStatus,
          h.galleryIndex⟩

/-- `changeStyle` forgets the favorite. -/
theorem changeStyle_mirrored_iff {delta : Int} (hd : delta ≠ 0) (h : Mirrored c) :
    Mirrored (changeStyle delta c) ↔
      isFavorite (shiftedStyle c.style.selectedStyle delta) c.style =
        isFavorite c.style.selectedStyle c.style := by
  rw [changeStyle_eq hd]
  refine ⟨fun h' => ?_, fun hf => ?_⟩
  · have hnew : c.filterMetrics.favorite =
        isFavorite (shiftedStyle c.style.selectedStyle delta) c.style := h'.favorite
    rw [← hnew, h.favorite]
    rfl
  · exact ⟨selectStyle_shown _ h.style, h.favorite.trans hf.symm, h.scene, h.compare,
      h.focusActive, h.photoStatus, h.galleryIndex⟩

/-! ## The threads -/

theorem renderNextLocked_mirrored (now : Int) (h : Mirrored c) :
    Mirrored (renderNextLocked now c) := by
  have hhide : ∀ c, Mirrored c → Mirrored (hideControls now c) := fun c h => by
    unfold hideControls
    split
    · exact ⟨h.style, h.favorite, h.scene, h.compare, h.focusActive, h.photoStatus, h.galleryIndex⟩
    · exact h
  have hexpire : ∀ c, Mirrored c → Mirrored (expireMessage now c) := fun c h => by
    unfold expireMessage
    split
    · exact ⟨h.style, h.favorite, h.scene, h.compare, h.focusActive, rfl, h.galleryIndex⟩
    · exact h
  have h := hexpire _ (hhide c h)
  exact ⟨h.style, h.favorite, h.scene, h.compare, h.focusActive, h.photoStatus, h.galleryIndex⟩

theorem FrameEvent.run_mirrored {e : FrameEvent} {v v' : FrameView} (hs : e.run v = some v')
    (h : Mirrored v.screen) : Mirrored v'.screen := by
  cases run_step hs with
  | take now event pc running pending eq =>
    exact eq ▸ ⟨h.style, h.favorite, h.scene, h.compare, h.focusActive, h.photoStatus,
      h.galleryIndex⟩
  | again now event pc running pending dirty raw eq =>
    exact eq ▸ ⟨h.style, h.favorite, h.scene, h.compare, h.focusActive, h.photoStatus,
      h.galleryIndex⟩
  | idle now event pc running pending eq => exact eq ▸ renderNextLocked_mirrored now h
  | finish now decodeMs filterMs call input event pc eq =>
    rw [eq]
    refine renderNextLocked_mirrored now ?_
    cases input <;> exact ⟨h.style, h.favorite, h.scene, h.compare, h.focusActive,
      h.photoStatus, h.galleryIndex⟩
  | fail now decodeMs filterMs event pc eq =>
    rw [eq]
    refine renderNextLocked_mirrored now ?_
    exact ⟨h.style, h.favorite, h.scene, h.compare, h.focusActive, h.photoStatus, h.galleryIndex⟩
  | exit now event pc running eq => exact eq ▸ h
  | decoded ok raw settings usePrevious event pc eq => exact eq ▸ h
  | wrote pixels call input written event pc eq => exact eq ▸ h
  | filtered call input written event pc eq => exact eq ▸ h

/-- The style once the settings are installed. -/
def loadedStyle (settings : Option RuntimeSettings) (s : Style) : Style :=
  match settings with
  | none => s
  | some settings =>
    { s with
      selectedStyle := settings.selectedPreset
      intensity := settings.intensity
      favoritesLo := settings.favoritesLo
      favoritesHi := settings.favoritesHi
      recent := settings.recent
      adjustments := settings.adjustments }

theorem installStore_style (state : PhotoStorageState) (settings : Option RuntimeSettings)
    (freeBytes : Int) (p : PhotoStore) (c : Screen) :
    (installStore state settings freeBytes p c).style = loadedStyle settings c.style := by
  cases settings <;> rfl

/-- The section that installs the settings shows the intensity, whatever the parameter. -/
theorem installStore_mirrored_iff (state : PhotoStorageState) (settings : Option RuntimeSettings)
    (freeBytes : Int) (p : PhotoStore) (h : Mirrored c) :
    Mirrored (installStore state settings freeBytes p c) ↔
      (loadedStyle settings c.style).parameterValue = (loadedStyle settings c.style).intensity := by
  obtain ⟨-, -, hparameter, -⟩ := shown_iff.1 h.style
  refine ⟨fun h' => ?_, fun hv => ?_⟩
  · obtain ⟨-, -, -, hvalue⟩ := shown_iff.1 h'.style
    rw [installStore_style] at hvalue
    rw [← hvalue]
    cases settings <;> rfl
  · cases settings with
    | none =>
      exact ⟨shown_iff.2 ⟨rfl, rfl, hparameter, hv.symm⟩, rfl, h.scene, h.compare, h.focusActive,
        h.photoStatus, h.galleryIndex⟩
    | some settings =>
      exact ⟨shown_iff.2 ⟨rfl, rfl, hparameter, hv.symm⟩, rfl, h.scene, h.compare, h.focusActive,
        h.photoStatus, h.galleryIndex⟩

/-- What a job's result leaves alone until the metrics are refreshed. -/
structure Unrefreshed (c c' : Screen) : Prop where
  metrics : c'.filterMetrics = c.filterMetrics
  style : c'.style = c.style
  compare : c'.compare = c.compare
  focusActive : c'.focusActive = c.focusActive

theorem Unrefreshed.mirrored (hu : Unrefreshed c c') (h : Mirrored c) (p : PhotoStore)
    (freeBytes : Int) : Mirrored (mirrorPhoto p freeBytes c') := by
  refine ⟨?_, ?_, rfl, ?_, ?_, rfl, rfl⟩
  · show c'.filterMetrics.shown = c'.style.shown
    rw [hu.metrics, hu.style]
    exact h.style
  · show c'.filterMetrics.favorite = isFavorite c'.style.selectedStyle c'.style
    rw [hu.metrics, hu.style]
    exact h.favorite
  · show c'.filterMetrics.compare = c'.compare
    rw [hu.metrics, hu.compare]
    exact h.compare
  · show c'.filterMetrics.focusActive = c'.focusActive
    rw [hu.metrics, hu.focusActive]
    exact h.focusActive

theorem queueGalleryLocked_unrefreshed {job : PhotoJob} {status : PhotoWriteState}
    (h : Unrefreshed c sh.screen) : Unrefreshed c (queueGalleryLocked job status sh).2.screen := by
  unfold queueGalleryLocked
  split
  · exact h
  · split
    · exact h
    · exact ⟨h.metrics, h.style, h.compare, h.focusActive⟩

theorem publish_mirrored (job : Job) (result : JobResult) (now freeBytes : Int) (p : PhotoStore)
    (h : Mirrored sh.screen) : Mirrored (publish job result now freeBytes p sh).screen := by
  unfold publish
  refine Unrefreshed.mirrored ?_ h p freeBytes
  split
  · unfold publishSave
    dsimp only
    split <;> exact ⟨rfl, rfl, rfl, rfl⟩
  · exact ⟨rfl, rfl, rfl, rfl⟩
  · unfold publishDelete
    dsimp only
    split
    · exact queueGalleryLocked_unrefreshed ⟨rfl, rfl, rfl, rfl⟩
    · exact ⟨rfl, rfl, rfl, rfl⟩
  · exact ⟨rfl, rfl, rfl, rfl⟩

/-! ## When nothing is forgotten -/

/-- A call of `changeStyle` leads to a style that is a favorite just when the one before is; the
settings are installed while the selected parameter's value is that of the intensity, as it is
for the intensity itself. -/
def forgetsNothing : Guard DisplayProbeWorker Event Act := fun _ s e =>
  (∀ delta, e = .ui (.changeStyle delta) → delta ≠ 0 →
    isFavorite (shiftedStyle s.shared.screen.style.selectedStyle delta) s.shared.screen.style =
      isFavorite s.shared.screen.style.selectedStyle s.shared.screen.style) ∧
  ∀ freeBytes state settings, e = .photo (.install freeBytes) →
    s.photo.pc = .initialized state settings →
    (loadedStyle settings s.shared.screen.style).parameterValue =
      (loadedStyle settings s.shared.screen.style).intensity

variable {s s' s₀ : DisplayProbeWorker} {l o : List Act} {es : List Event} {e : Event}

/-- Other steps have nothing to forget. -/
theorem forgetsNothing_other (hui : ∀ delta, e ≠ .ui (.changeStyle delta))
    (hphoto : ∀ freeBytes, e ≠ .photo (.install freeBytes)) : forgetsNothing l s e :=
  ⟨fun delta he => absurd he (hui delta), fun freeBytes _ _ he => absurd he (hphoto freeBytes)⟩

/-- **A step from a mirrored state leads to one just when it forgets nothing.** -/
theorem mirrored_step_iff (h : Mirrored s.shared.screen) (hs : worker.step s e = some (s', o)) :
    Mirrored s'.shared.screen ↔ forgetsNothing l s e := by
  cases e with
  | ui call =>
    cases hs
    cases call with
    | changeStyle delta =>
      by_cases hd : delta = 0
      · subst hd
        refine iff_of_true h ⟨fun _ he h0 => ?_, fun _ _ _ he => ?_⟩
        · cases he
          exact absurd rfl h0
        · cases he
      · refine (changeStyle_mirrored_iff hd h).trans
          ⟨fun hf => ⟨fun _ he _ => ?_, fun _ _ _ he => ?_⟩, fun hg => hg.1 delta rfl hd⟩
        · cases he
          exact hf
        · cases he
    | key keyValue down timestampMs =>
      exact iff_of_true (key_mirrored keyValue down timestampMs h)
        (forgetsNothing_other (by simp) (by simp))
    | touch action timestampMs =>
      exact iff_of_true (touch_mirrored action timestampMs h)
        (forgetsNothing_other (by simp) (by simp))
    | requestPhoto timestampMs =>
      exact iff_of_true (requestPhoto_mirrored _ timestampMs h)
        (forgetsNothing_other (by simp) (by simp))
    | setFocus active =>
      exact iff_of_true ⟨h.style, h.favorite, h.scene, h.compare, rfl, h.photoStatus,
        h.galleryIndex⟩ (forgetsNothing_other (by simp) (by simp))
    | configureStorage status =>
      exact iff_of_true h (forgetsNothing_other (by simp) (by simp))
    | noteAttempts attempts =>
      exact iff_of_true ⟨h.style, h.favorite, h.scene, h.compare, h.focusActive, h.photoStatus,
        h.galleryIndex⟩ (forgetsNothing_other (by simp) (by simp))
    | submitJpeg jpeg timestampMs =>
      exact iff_of_true (submitJpeg_mirrored jpeg timestampMs h)
        (forgetsNothing_other (by simp) (by simp))
  | frame e =>
    obtain ⟨v, hv, hs⟩ := Option.map_eq_some_iff.1 hs
    cases hs
    exact iff_of_true (FrameEvent.run_mirrored hv h) (forgetsNothing_other (by simp) (by simp))
  | photo e =>
    obtain ⟨v, hv, hs⟩ := Option.map_eq_some_iff.1 hs
    cases hs
    have hrun : e.Step s.shared s.photo v := PhotoEvent.run_step hv
    cases hrun with
    | install freeBytes state settings event pc eq =>
      subst event eq
      refine (installStore_mirrored_iff state settings freeBytes s.photo.store h).trans
        ⟨fun hi => ⟨fun _ he => ?_, fun _ _ _ he hpc => ?_⟩,
          fun hg => hg.2 freeBytes state settings rfl pc⟩
      · cases he
      · rw [pc] at hpc
        cases hpc
        exact hi
    | publish job result now freeBytes event pc eq =>
      subst event eq
      exact iff_of_true (publish_mirrored job result now freeBytes s.photo.store h)
        (forgetsNothing_other (by simp) (by simp))
    | exit event pc running eq =>
      subst eq
      refine iff_of_true h (forgetsNothing_other (by simp) ?_)
      rcases event with rfl | rfl <;> simp
    | configure event pc eq =>
      subst event eq
      exact iff_of_true h (forgetsNothing_other (by simp) (by simp))
    | opened plan readable status event pc eq =>
      subst event eq
      exact iff_of_true h (forgetsNothing_other (by simp) (by simp))
    | take event pc pending eq =>
      subst event eq
      exact iff_of_true h (forgetsNothing_other (by simp) (by simp))
    | call job event pc eq =>
      subst event eq
      exact iff_of_true h (forgetsNothing_other (by simp) (by simp))
    | finish job work r event pc call eq =>
      subst event eq
      exact iff_of_true h (forgetsNothing_other (by simp) (by simp))
    | handBack job result event pc eq =>
      subst event eq
      exact iff_of_true h (forgetsNothing_other (by simp) (by simp))
  | owner created plan =>
    obtain ⟨v, hv, hs⟩ := Option.map_eq_some_iff.1 hs
    cases hs
    obtain ⟨running, complete, ready, state, hscreen⟩ := ownerStep_screen hv
    refine iff_of_true ?_ (forgetsNothing_other (by simp) (by simp))
    rw [hscreen]
    exact ⟨h.style, h.favorite, h.scene, h.compare, h.focusActive, h.photoStatus, h.galleryIndex⟩

theorem fresh_mirrored (h : Fresh s) : Mirrored s.shared.screen := by
  obtain ⟨now, root, model, version, status, memory, card, rfl⟩ := h
  have hfavorite : false = isFavorite 0 {} := by decide
  exact ⟨rfl, hfavorite, rfl, rfl, rfl, rfl, rfl⟩

/-- **The runs that forget nothing are those through mirrored states.** -/
theorem mirrored_iff (h0 : Fresh s₀) : Reach worker forgetsNothing s₀ es l s ↔
    Reach worker (fun _ s _ => Mirrored s.shared.screen) s₀ es l s ∧ Mirrored s.shared.screen := by
  constructor
  · intro h
    induction h with
    | init => exact ⟨.init, fresh_mirrored h0⟩
    | step _ hg hs ih => exact ⟨.step ih.1 ih.2 hs, (mirrored_step_iff ih.2 hs).2 hg⟩
  · rintro ⟨h, hm⟩
    induction h with
    | init => exact .init
    | step _ hg hs ih => exact .step (ih hg) ((mirrored_step_iff hg hs).1 hm) hs

/-- The guard as a test of an event. -/
def forgetsNothingEvent (_ : List Act) (s : DisplayProbeWorker) : Event → Bool
  | .ui (.changeStyle delta) =>
    isFavorite (shiftedStyle s.shared.screen.style.selectedStyle delta) s.shared.screen.style ==
      isFavorite s.shared.screen.style.selectedStyle s.shared.screen.style
  | .photo (.install _) =>
    match s.photo.pc with
    | .initialized _ settings =>
      (loadedStyle settings s.shared.screen.style).parameterValue ==
        (loadedStyle settings s.shared.screen.style).intensity
    | _ => true
  | _ => true

theorem forgetsNothingEvent_guard (l : List Act) (s : DisplayProbeWorker) (e : Event)
    (h : forgetsNothingEvent l s e = true) : forgetsNothing l s e := by
  refine ⟨fun delta he _ => ?_, fun freeBytes state settings he hpc => ?_⟩
  · subst he
    simpa [forgetsNothingEvent] using h
  · subst he
    simpa [forgetsNothingEvent, hpc] using h

/-- The favorite of the next style is marked with the keys, and the styles changed with them. -/
def keysSession : List Event :=
  List.flatten [Event.startUp, [.press .next, .press .gallery, .press .confirm, .press .gallery,
    .press .previous, .press .next, .ui (.changeStyle 70)]]

theorem mirrored_iff_session : ∃ l s, Reach worker forgetsNothing sampleWorker keysSession l s ∧
    s.shared.screen.filterMetrics.favorite = true ∧ Mirrored s.shared.screen := by
  obtain ⟨l, s, h, hp⟩ := reach_of_execIf (M := worker) (g := forgetsNothingEvent)
    (s := sampleWorker) keysSession
    (p := fun x => x.1.shared.screen.filterMetrics.favorite) forgetsNothingEvent_guard
    (by decide +kernel)
  exact ⟨l, s, h, hp, ((mirrored_iff sample_fresh).1 h).2⟩

/-- The selected style is marked as a favorite, and left with `changeStyle`. -/
def forgetfulSession : List Event :=
  List.flatten [Event.startUp, [.press .gallery, .press .confirm, .ui (.changeStyle 1)]]

/-- The display still shows the mark. -/
theorem changeStyle_unmirrored : ∃ l s, Run worker sampleWorker forgetfulSession l s ∧
    ¬ Mirrored s.shared.screen := by
  obtain ⟨l, s, h, hp⟩ := run_of_exec (M := worker) (s := sampleWorker) forgetfulSession
    (p := fun x => x.1.shared.screen.filterMetrics.favorite !=
      isFavoriteLocked x.1.shared.screen.style.selectedStyle x.1.shared.screen) (by decide +kernel)
  refine ⟨l, s, h, fun hm => ?_⟩
  simp [hm.favorite] at hp

end RetroLens.Worker
