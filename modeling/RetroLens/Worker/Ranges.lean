import RetroLens.Store.SettingsText
import RetroLens.Worker.Choices
import RetroLens.Worker.Gallery

/-!
# The ranges of the worker's fields

Modular and clamping arithmetic keeps the style, the parameters, the recent
styles and the gallery in their ranges, whatever the settings file and the card
hold, so every array index and every shift is in range.
-/

namespace RetroLens.Worker

open Text RetroLens.Core Store Runs

/-! ## The ranges -/

structure Style.InRange (s : Style) : Prop where
  selectedStyle : InCatalogue s.selectedStyle
  intensity : 0 ≤ s.intensity ∧ s.intensity ≤ 100
  parameterIndex : s.parameterIndex < 4
  adjustments : ∀ i, (s.adjustments i).InRange
  recent : ∀ i ∈ s.recent, InCatalogue i
  recentCount : s.recent.length ≤ kRecentPresetCount

structure Gallery.InRange (g : Gallery) : Prop where
  galleryPhotoCount : 0 ≤ g.galleryPhotoCount ∧ g.galleryPhotoCount ≤ kMaxPhotoEntries
  galleryIndex : g.galleryIndex = 0 ∨ 0 ≤ g.galleryIndex ∧ g.galleryIndex < g.galleryPhotoCount

variable {st st' : Style} {g : Gallery}

theorem clampValue_range {lo hi value : Int} (h : lo ≤ hi) :
    lo ≤ clampValue value lo hi ∧ clampValue value lo hi ≤ hi := by
  unfold clampValue
  split
  · omega
  · split <;> omega

theorem setAdjustment_range {row : Adjustments} (h : row.InRange) (index : Nat) (direction : Int) :
    (setAdjustment row index (clampValue
      (adjustmentAt row index + direction * (adjustmentRange index).2.2)
      (adjustmentRange index).1 (adjustmentRange index).2.1)).InRange := by
  unfold setAdjustment adjustmentRange
  by_cases h0 : index = 0
  · simp only [h0, if_true]
    exact ⟨clampValue_range (by decide), h.grain, h.motion⟩
  · by_cases h1 : index = 1
    · simp only [h1, if_true, Nat.one_ne_zero, if_false]
      exact ⟨h.contrast, clampValue_range (by decide), h.motion⟩
    · simp only [h0, h1, if_false]
      exact ⟨h.contrast, h.grain, clampValue_range (by decide)⟩

theorem lastIndexOf_lt {presetIndex : Int} {recent : List Int} {existing : Nat}
    (h : lastIndexOf presetIndex recent = some existing) : existing < recent.length := by
  obtain ⟨i, hi, rfl⟩ := Option.map_eq_some_iff.1 h
  have := (List.findIdx?_eq_some_iff_getElem.1 hi).1
  rw [List.length_reverse] at this
  omega

theorem recordRecent_length {recent : List Int} (style : Int)
    (h : recent.length ≤ kRecentPresetCount) :
    (recordRecent style recent).length ≤ kRecentPresetCount := by
  unfold recordRecent
  split
  · rename_i existing hex
    have hlt := lastIndexOf_lt hex
    rw [List.length_cons, List.length_eraseIdx_of_lt hlt]
    omega
  · rw [List.length_cons, List.length_take]
    have : 0 < kRecentPresetCount := by decide
    omega

theorem recordRecent_mem {style i : Int} {recent : List Int} (h : i ∈ recordRecent style recent) :
    i = style ∨ i ∈ recent := by
  unfold recordRecent at h
  split at h
  · exact (List.mem_cons.1 h).imp_right List.mem_of_mem_eraseIdx
  · exact (List.mem_cons.1 h).imp_right List.mem_of_mem_take

/-! ## The choices -/

variable {c c' : Screen}

open Screen (Same)

theorem selectStyle_range {style : Int} (h : c.style.InRange) (hs : InCatalogue style) :
    (selectStyle style c).style.InRange := by
  refine ⟨hs, h.intensity, h.parameterIndex, h.adjustments, fun i hi => ?_,
    recordRecent_length style h.recentCount⟩
  rcases recordRecent_mem hi with rfl | hi
  · exact hs
  · exact h.recent i hi

theorem adjustParameterLocked_range (h : c.style.InRange) (direction : Int) :
    (adjustParameterLocked direction c).style.InRange := by
  unfold adjustParameterLocked
  dsimp only
  split
  · exact ⟨h.selectedStyle, clampValue_range (by decide), h.parameterIndex, h.adjustments,
      h.recent, h.recentCount⟩
  · refine ⟨h.selectedStyle, h.intensity, h.parameterIndex, fun i => ?_, h.recent, h.recentCount⟩
    dsimp only
    by_cases hi : i = c.style.selectedStyle
    · subst hi
      rw [Function.update_self]
      exact setAdjustment_range (h.adjustments _) _ _
    · rw [Function.update_of_ne hi]
      exact h.adjustments i

theorem toggleFavoriteLocked_range (h : c.style.InRange) :
    (toggleFavoriteLocked c).style.InRange := by
  unfold toggleFavoriteLocked
  dsimp only
  split <;> exact ⟨h.selectedStyle, h.intensity, h.parameterIndex, h.adjustments, h.recent,
    h.recentCount⟩

theorem Choice.range (hc : Choice c c') (h : c.style.InRange) : c'.style.InRange := by
  cases hc with
  | none same => exact same.style ▸ h
  | select style range same => exact same.style ▸ selectStyle_range h (range h.selectedStyle)
  | parameter index range same =>
    rw [same.style]
    exact ⟨h.selectedStyle, h.intensity, range, h.adjustments, h.recent, h.recentCount⟩
  | adjust direction same => exact same.style ▸ adjustParameterLocked_range h direction
  | favorite same => exact same.style ▸ toggleFavoriteLocked_range h
  | diagnostics on same => exact same.style ▸ h

theorem applySettings_range {settings : RuntimeSettings} (hs : settings.InRange)
    (h : c.style.InRange) : (applySettings settings c).style.InRange :=
  ⟨hs.selectedPreset, hs.intensity, h.parameterIndex, hs.adjustments, hs.recent, hs.recentCount⟩

theorem installStore_range {settings : Option RuntimeSettings}
    (hs : ∀ s, settings = some s → s.InRange) (h : c.style.InRange) (state : PhotoStorageState)
    (freeBytes : Int) (p : PhotoStore) :
    (installStore state settings freeBytes p c).style.InRange := by
  cases settings with
  | none => exact h
  | some s => exact applySettings_range (hs s rfl) h

/-! ## The gallery -/

/-- The number of photos stays, and the selection in its range. -/
def Gallery.Moved (g g' : Gallery) : Prop :=
  g'.galleryPhotoCount = g.galleryPhotoCount ∧ (g.InRange → g'.InRange)

variable {sh sh' : Shared}

theorem Gallery.Moved.of_eq {g' : Gallery} (h : g' = g) : g.Moved g' := ⟨h ▸ rfl, fun hg => h ▸ hg⟩

theorem moveInGallery_moved {direction : Int} (hd : direction = 1 ∨ direction = -1) (sh : Shared) :
    sh.screen.gallery.Moved (moveInGallery direction sh).screen.gallery := by
  unfold moveInGallery
  dsimp only
  split
  · rename_i hpos
    rw [queueGalleryLoadLocked_gallery]
    refine ⟨rfl, fun h => ⟨h.galleryPhotoCount, .inr ⟨?_, Int.tmod_lt_of_pos _ hpos⟩⟩⟩
    refine Int.tmod_nonneg _ ?_
    have := h.galleryIndex
    omega
  · exact .of_eq rfl

theorem keyGallery_moved (sh : Shared) :
    sh.screen.gallery.Moved (keyGallery sh).screen.gallery := by
  unfold keyGallery
  split
  · exact .of_eq rfl
  · dsimp only
    split
    · rw [queueGalleryLoadLocked_gallery]
      exact ⟨rfl, fun h => ⟨h.galleryPhotoCount, .inl rfl⟩⟩
    · exact ⟨rfl, fun h => ⟨h.galleryPhotoCount, .inl rfl⟩⟩

theorem keyDirection_moved {direction : Int} (hd : direction = 1 ∨ direction = -1) (sh : Shared) :
    sh.screen.gallery.Moved (keyDirection direction sh).screen.gallery := by
  unfold keyDirection
  split
  · exact moveInGallery_moved hd sh
  · exact .of_eq rfl
  · exact .of_eq rfl

theorem keyConfirm_moved (sh : Shared) :
    sh.screen.gallery.Moved (keyConfirm sh).screen.gallery := by
  unfold keyConfirm
  split
  · rcases queueGalleryLocked_cases .delete .saving sh with h | ⟨h1, -, ha, -⟩
    · simp only [queueGalleryDeleteLocked, h]
      exact .of_eq rfl
    · simp only [queueGalleryDeleteLocked, h1, if_true]
      exact .of_eq ha.gallery
  · exact .of_eq rfl
  · exact .of_eq rfl
  · exact .of_eq rfl

theorem keyEffect_moved (keyValue : PhotoUiKey) (timestampMs : Int) (sh : Shared) :
    sh.screen.gallery.Moved (keyEffect keyValue timestampMs sh).2.screen.gallery := by
  cases keyValue with
  | previous => exact keyDirection_moved (.inr rfl) sh
  | next => exact keyDirection_moved (.inl rfl) sh
  | up => exact .of_eq (keyVertical_aside false).gallery
  | down => exact .of_eq (keyVertical_aside true).gallery
  | confirm => exact keyConfirm_moved sh
  | gallery => exact keyGallery_moved sh
  | back => exact .of_eq keyBack_aside.gallery
  | diagnostics => exact .of_eq keyDiagnostics_aside.gallery
  | browser | record | focus | compare | capture | other => exact .of_eq rfl

theorem key_moved (keyValue : PhotoUiKey) (down : Bool) (timestampMs : Int) (sh : Shared) :
    sh.screen.gallery.Moved (key keyValue down timestampMs sh).2.screen.gallery := by
  unfold key
  split
  · exact .of_eq rfl
  · split
    · exact .of_eq rfl
    · exact keyEffect_moved keyValue timestampMs { sh with
        screen.controlsVisible := true
        screen.controlsVisibleUntilMs := timestampMs + 2000 }

theorem call_moved (filtered : Frame) (call : UiCall) (sh : Shared) :
    sh.screen.gallery.Moved (call.run filtered sh).screen.gallery := by
  cases UiCall.run_step filtered call sh with
  | key keyValue down timestampMs eq spec =>
    subst eq
    exact key_moved keyValue down timestampMs sh
  | screen slot buffer screen => exact .of_eq screen.gallery
  | configured status eq shared => exact .of_eq (by rw [shared])
  | requested timestampMs eq result hasPrevious storageReady free screen => exact .of_eq screen.gallery

theorem photoCount_range (p : PhotoStore) : 0 ≤ (photoCount p : Int) ∧
    (photoCount p : Int) ≤ kMaxPhotoEntries :=
  ⟨Int.natCast_nonneg _, Int.ofNat_le.2 p.entries.bound⟩

theorem publish_range (job : Job) (result : JobResult) (now freeBytes : Int) (p : PhotoStore)
    (h : sh.screen.gallery.InRange) :
    (publish job result now freeBytes p sh).screen.gallery.InRange := by
  have hcount := photoCount_range p
  unfold publish
  dsimp only
  split <;> simp only [mirrorPhoto]
  · unfold publishSave
    dsimp only
    split
    · exact ⟨hcount, .inl rfl⟩
    · exact h
  · unfold publishLoad
    dsimp only
    split <;> exact ⟨h.galleryPhotoCount, h.galleryIndex⟩
  · have hindex := h.galleryIndex
    unfold publishDelete
    dsimp only
    split
    · rw [queueGalleryLoadLocked_gallery]
      refine ⟨hcount, ?_⟩
      dsimp only
      split <;> omega
    · refine ⟨hcount, ?_⟩
      dsimp only
      split <;> omega
  · exact h

/-! ## The worker -/

variable {s s' : DisplayProbeWorker} {l o : List Act}

/-- What every step keeps: the ranges, also of settings that are loaded but not yet applied. -/
structure Bounded (s : DisplayProbeWorker) : Prop where
  style : s.shared.screen.style.InRange
  gallery : s.shared.screen.gallery.InRange
  selected : s.shared.screen.Selected
  settings : ∀ state settings, s.photo.pc = .initialized state (some settings) → settings.InRange
  unopened : s.photo.pc.opening = true → s.shared.screen.gallery.galleryPhotoCount = 0

theorem Bounded.ui (h : Bounded s) (call : UiCall) :
    Bounded { s with shared := call.run s.frame.filtered s.shared } := by
  obtain ⟨hcount, hgallery⟩ := call_moved s.frame.filtered call s.shared
  have hstyle : (call.run s.frame.filtered s.shared).screen.style.InRange ∧
      (call.run s.frame.filtered s.shared).screen.Selected := by
    rcases UiCall.run_choice s.frame.filtered call s.shared with ⟨jpeg, timestampMs, rfl⟩ | ⟨-, hc⟩
    · have hs := submitJpeg_settings jpeg timestampMs s.shared.screen
      exact ⟨hs.style ▸ h.style, h.selected.same hs⟩
    · exact ⟨hc.range h.style, hc.selected h.selected⟩
  exact ⟨hstyle.1, hgallery h.gallery, hstyle.2, h.settings, fun ho => hcount.trans (h.unopened ho)⟩

theorem Bounded.frame (h : Bounded s) {e : FrameEvent} {v : FrameView}
    (hs : e.run s.frameView = some v) :
    Bounded { s with shared.screen := v.screen, frame := v.frame } := by
  have ha := FrameEvent.run_aside hs
  have hset := FrameEvent.run_settings hs
  have hgallery : v.screen.gallery = s.shared.screen.gallery := ha.gallery
  have hstyle : v.screen.style = s.shared.screen.style := hset.style
  refine ⟨?_, ?_, h.selected.same hset, h.settings, fun ho => ?_⟩
  · show v.screen.style.InRange
    rw [hstyle]
    exact h.style
  · show v.screen.gallery.InRange
    rw [hgallery]
    exact h.gallery
  · show v.screen.gallery.galleryPhotoCount = 0
    rw [hgallery]
    exact h.unopened ho

theorem openStore_range (plan : InitPlan) (readable : Bool) (status : StorageProbeStatus)
    (p : PhotoThread) {state : PhotoStorageState} {settings : RuntimeSettings}
    (h : (openStore plan readable status p).pc = .initialized state (some settings)) :
    settings.InRange := by
  cases status with
  | ready =>
    simp only [openStore, PhotoLoop.initialized.injEq] at h
    obtain ⟨-, h⟩ := h
    split at h
    · exact loadSettings_range h
    · cases h
  | initializing | rootUnavailable | directoryFailed | writeFailed | insufficientSpace
  | other => cases h

theorem Bounded.photo (h : Bounded s) {e : PhotoEvent} {v : PhotoView}
    (hs : e.run s.photoView = some v) :
    Bounded { s with shared := v.shared, photo := v.photo } := by
  have hrun : e.Step s.shared s.photo v := PhotoEvent.run_step hs
  cases hrun with
  | exit event pc running eq =>
    subst eq
    exact ⟨h.style, h.gallery, h.selected, (fun _ _ hp => by cases hp), fun ho => by cases ho⟩
  | configure event pc eq =>
    subst eq
    exact ⟨h.style, h.gallery, h.selected, (fun _ _ hp => by cases hp),
      fun _ => h.unopened (by rw [pc]; rfl)⟩
  | opened plan readable status event pc eq =>
    subst eq
    exact ⟨h.style, h.gallery, h.selected, fun _ _ hp => openStore_range plan readable status _ hp,
      fun _ => h.unopened (by rw [pc]; rfl)⟩
  | install freeBytes state settings event pc eq =>
    subst eq
    have hcount := h.unopened (by rw [pc]; rfl)
    have hindex : s.shared.screen.gallery.galleryIndex = 0 := by
      have := h.gallery.galleryIndex
      omega
    have hgallery : (installStore state settings freeBytes s.photo.store s.shared.screen).gallery =
        { s.shared.screen.gallery with galleryPhotoCount := photoCount s.photo.store } :=
      installStore_gallery ..
    refine ⟨?_, ?_, installStore_selected h.selected .., (fun _ _ hp => by cases hp),
      fun ho => by cases ho⟩
    · exact installStore_range (fun _ hset => h.settings state _ (hset ▸ pc)) h.style ..
    · show (installStore state settings freeBytes s.photo.store s.shared.screen).gallery.InRange
      rw [hgallery]
      exact ⟨photoCount_range _, .inl hindex⟩
  | take event pc pending eq =>
    subst eq
    exact ⟨h.style, h.gallery, h.selected, (fun _ _ hp => by cases hp), fun ho => by cases ho⟩
  | call job event pc eq =>
    subst eq
    exact ⟨h.style, h.gallery, h.selected, (fun _ _ hp => by cases hp), fun ho => by cases ho⟩
  | finish job work r event pc call eq =>
    subst eq
    exact ⟨h.style, h.gallery, h.selected, (fun _ _ hp => by cases hp), fun ho => by cases ho⟩
  | handBack job result event pc eq =>
    subst eq
    exact ⟨h.style, h.gallery, h.selected, (fun _ _ hp => by cases hp), fun ho => by cases ho⟩
  | publish job result now freeBytes event pc eq =>
    subst eq
    have hsame := publish_same job result now freeBytes s.photo.store s.shared
    have hstyle : (publish job result now freeBytes s.photo.store s.shared).screen.style =
        s.shared.screen.style := hsame.style
    refine ⟨?_, publish_range job result now freeBytes _ h.gallery,
      h.selected.same hsame.toSameSettings, (fun _ _ hp => by cases hp), fun ho => by cases ho⟩
    show (publish job result now freeBytes s.photo.store s.shared).screen.style.InRange
    rw [hstyle]
    exact h.style

theorem Bounded.owner (h : Bounded s) (hk : OwnerKeeps s s') {created : Bool} {plan : FilePlan}
    (hs : ownerStep created plan s = some s') : Bounded s' := by
  obtain ⟨running, complete, ready, state, hscreen⟩ := ownerStep_screen hs
  have hselected : s'.shared.screen.Selected := by
    rw [hscreen]
    exact h.selected
  refine ⟨hk.style ▸ h.style, hk.gallery ▸ h.gallery, hselected, fun state settings hp => ?_,
    fun ho => ?_⟩
  · rcases hk.pc with hpc | ⟨-, hpc⟩
    · exact h.settings state settings (hpc ▸ hp)
    · rw [hpc] at hp
      cases hp
  · rw [hk.gallery]
    rcases hk.pc with hpc | ⟨hpc, -⟩
    · exact h.unopened (hpc ▸ ho)
    · exact h.unopened (by rw [hpc]; rfl)

theorem Bounded.step (h : Bounded s) (hh : Handoff s) {e : Event}
    (hs : worker.step s e = some (s', o)) : Bounded s' := by
  cases e with
  | ui call =>
    cases hs
    exact h.ui call
  | frame e =>
    obtain ⟨v, hv, hs⟩ := Option.map_eq_some_iff.1 hs
    cases hs
    exact h.frame hv
  | photo e =>
    obtain ⟨v, hv, hs⟩ := Option.map_eq_some_iff.1 hs
    cases hs
    exact h.photo hv
  | owner created plan =>
    obtain ⟨v, hv, hs⟩ := Option.map_eq_some_iff.1 hs
    cases hs
    exact h.owner (hh.owner_keeps hv) hv

theorem style_default_range : Style.InRange {} where
  selectedStyle := by decide
  intensity := by decide
  parameterIndex := by decide
  adjustments _ := adjustments_default_range
  recent _ h := by cases h
  recentCount := by decide

theorem gallery_default_range : Gallery.InRange {} := ⟨by decide, .inl rfl⟩

theorem fresh_bounded (h : Fresh s) : Bounded s := by
  obtain ⟨now, root, model, version, status, memory, card, rfl⟩ := h
  exact ⟨style_default_range, gallery_default_range, rfl, (fun _ _ hp => by cases hp), fun _ => rfl⟩

variable {s₀ : DisplayProbeWorker} {G : Guard DisplayProbeWorker Event Act} {es : List Event}

theorem reach_bounded (h0 : Fresh s₀) (h : Reach worker G s₀ es l s) : Bounded s := by
  refine (h.inv_state (I := fun s => Bounded s ∧ Handoff s) ⟨fresh_bounded h0, fresh_handoff h0⟩
    fun _ _ _ _ _ hi _ hs => ?_).1
  exact ⟨hi.1.step hi.2 hs, hi.2.step hs⟩

/-! ## Indices and shifts -/

def kPresetAdjustmentCount : Nat := 3

/-- Every index and every shift amount that the worker computes from its fields is in range, and
so is every preset that it adjusts. -/
structure IndicesInRange (c : Screen) : Prop where
  /-- The rows of `adjustments_`: the selected style's, and the one to filter with. -/
  rows : InCatalogue c.style.selectedStyle ∧ InCatalogue c.filterMetrics.selectedPreset
  column : c.style.parameterIndex ≠ 0 → c.style.parameterIndex - 1 < kPresetAdjustmentCount
  /-- `recent_` has room for whatever is recorded next. -/
  recent : ∀ style, (recordRecent style c.style.recent).length ≤ kRecentPresetCount
  /-- The name of the parameter, in `kParameters`. -/
  parameter : c.filterMetrics.parameterIndex < 4
  shift : (c.style.selectedStyle < 64 → 0 ≤ c.style.selectedStyle) ∧
    (64 ≤ c.style.selectedStyle → c.style.selectedStyle - 64 < 64)
  contrast : ∀ i, -100 ≤ (adjustedPresetLocked i c).contrast ∧
    (adjustedPresetLocked i c).contrast ≤ 100
  noise : ∀ i, 0 ≤ (adjustedPresetLocked i c).noise ∧ (adjustedPresetLocked i c).noise ≤ 100
  temporal : ∀ i, 0 ≤ (adjustedPresetLocked i c).temporal ∧
    (adjustedPresetLocked i c).temporal ≤ 100

theorem Bounded.indices (h : Bounded s) : IndicesInRange s.shared.screen where
  rows := by
    have hpreset : s.shared.screen.filterMetrics.selectedPreset =
        s.shared.screen.style.selectedStyle := congrArg Prod.fst h.selected
    rw [hpreset]
    exact ⟨h.style.selectedStyle, h.style.selectedStyle⟩
  column := fun h0 => by
    have := h.style.parameterIndex
    unfold kPresetAdjustmentCount
    omega
  recent := fun style => recordRecent_length style h.style.recentCount
  parameter := by
    have hparameter : s.shared.screen.filterMetrics.parameterIndex =
        s.shared.screen.style.parameterIndex := congrArg Prod.snd h.selected
    rw [hparameter]
    exact h.style.parameterIndex
  shift := by
    have := h.style.selectedStyle.2
    rw [presetCount_eq] at this
    exact ⟨fun _ => h.style.selectedStyle.1, fun _ => by omega⟩
  contrast := fun _ => clampValue_range (by decide)
  noise := fun _ => clampValue_range (by decide)
  temporal := fun _ => clampValue_range (by decide)

/-- **The fields of the worker stay in their ranges**, in every run over every card. -/
theorem fields_inRange (h0 : Fresh s₀) (h : Run worker s₀ es l s) :
    s.shared.screen.style.InRange ∧ s.shared.screen.gallery.InRange ∧
      IndicesInRange s.shared.screen :=
  have hb := reach_bounded h0 h
  ⟨hb.style, hb.gallery, hb.indices⟩

/-- A style is changed, a photo taken and saved, and the gallery opened. -/
def browsingSession : List Event :=
  List.flatten [Event.startUp, [.ui (.changeStyle (-75)), .press .confirm, .press .down,
    .press .previous], Event.newFrame 100 blackFrame, [Event.capture 61007],
    Event.work (.save samplePlan), Event.publish, [Event.press .gallery, .press .next]]

theorem fields_inRange_session : ∃ l s, Run worker sampleWorker browsingSession l s ∧
    (s.shared.screen.style.selectedStyle = 65 ∧ s.shared.screen.gallery.galleryPhotoCount = 1) ∧
    s.shared.screen.style.InRange ∧ s.shared.screen.gallery.InRange ∧
      IndicesInRange s.shared.screen := by
  obtain ⟨l, s, h, hp⟩ := run_of_exec (M := worker) (s := sampleWorker) browsingSession
    (p := fun x => x.1.shared.screen.style.selectedStyle == 65 &&
      x.1.shared.screen.gallery.galleryPhotoCount == 1) (by decide +kernel)
  exact ⟨l, s, h, by simpa using hp, fields_inRange sample_fresh h⟩

end RetroLens.Worker
