import RetroLens.Worker.Machine

/-!
# What a call can do

The calls of the camera and the user, seen from the job slot and the gallery:
most leave both alone, browsing hides the thumbnail and may post a load, a
press in the delete dialog may post a deletion, a capture may post a save.
`UiCall.run_step` says so once; the invariants of later modules follow from it.
-/

namespace RetroLens.Worker

open Text RetroLens.Core Store

/-- The fields of a screen that only the photo thread and the owner change. -/
structure Screen.Kept (c c' : Screen) : Prop where
  running : c'.running = c.running
  storageReady : c'.storageReady = c.storageReady
  photoSavedCount : c'.photoSavedCount = c.photoSavedCount
  photoFailedCount : c'.photoFailedCount = c.photoFailedCount

/-- A change of the screen that leaves the gallery alone too. -/
structure Screen.Aside (c c' : Screen) : Prop extends Screen.Kept c c' where
  gallery : c'.gallery = c.gallery

/-- A job for the gallery's photo is posted. -/
structure Posted (job : PhotoJob) (sh sh' : Shared) : Prop where
  free : sh.slot.free = true
  storageReady : sh.screen.storageReady = true
  stored : 0 < sh'.screen.gallery.galleryPhotoCount
  slot : sh'.slot =
    { sh.slot with
      photoGalleryIndex := sh'.screen.gallery.galleryIndex, photoJob := job, photoPending := true }

variable {c c' c'' : Screen} {sh sh' : Shared} {job : PhotoJob} {status : PhotoWriteState}

namespace Screen

theorem Kept.refl (c : Screen) : Kept c c := ⟨rfl, rfl, rfl, rfl⟩

theorem Kept.trans (h : Kept c c') (h' : Kept c' c'') : Kept c c'' :=
  ⟨h'.running.trans h.running, h'.storageReady.trans h.storageReady,
    h'.photoSavedCount.trans h.photoSavedCount, h'.photoFailedCount.trans h.photoFailedCount⟩

theorem Aside.refl (c : Screen) : Aside c c := ⟨.refl c, rfl⟩

theorem Aside.trans (h : Aside c c') (h' : Aside c' c'') : Aside c c'' :=
  ⟨h.toKept.trans h'.toKept, h'.gallery.trans h.gallery⟩

end Screen

open Screen (Kept Aside)

/-! ## Calls that only change the screen -/

theorem adjustParameterLocked_aside (direction : Int) :
    Aside c (adjustParameterLocked direction c) :=
  ⟨⟨rfl, rfl, rfl, rfl⟩, rfl⟩

theorem toggleFavoriteLocked_aside : Aside c (toggleFavoriteLocked c) :=
  ⟨⟨rfl, rfl, rfl, rfl⟩, rfl⟩

theorem changeCategoryLocked_aside (direction : Int) :
    Aside c (changeCategoryLocked direction c) := ⟨⟨rfl, rfl, rfl, rfl⟩, rfl⟩

theorem mirrorKey_aside : Aside c (mirrorKey c) := ⟨⟨rfl, rfl, rfl, rfl⟩, rfl⟩

theorem keyVertical_aside (down : Bool) : Aside c (keyVertical down c) := by
  unfold keyVertical
  split
  · exact ⟨⟨rfl, rfl, rfl, rfl⟩, rfl⟩
  · exact .refl c
  · exact changeCategoryLocked_aside _

theorem keyBack_aside : Aside c (keyBack c).2 := by
  unfold keyBack
  split <;> exact ⟨⟨rfl, rfl, rfl, rfl⟩, rfl⟩

theorem keyDiagnostics_aside : Aside c (keyDiagnostics c) := ⟨⟨rfl, rfl, rfl, rfl⟩, rfl⟩

theorem touchUp_aside (swipe : Swipe) (timestampMs : Int) :
    Aside c (touchUp swipe timestampMs c) := by
  cases swipe <;> exact ⟨⟨rfl, rfl, rfl, rfl⟩, rfl⟩

theorem touch_aside (action : TouchAction) (timestampMs : Int) :
    Aside c (touch action timestampMs c) := by
  have hmirror : ∀ c' : Screen, Aside c c' → Aside c
      { c' with
        filterMetrics.compare := c'.compare
        filterMetrics.controlsVisible := c'.controlsVisible
        filterMetrics.favorite := isFavoriteLocked c'.style.selectedStyle c' } :=
    fun c' h => h.trans ⟨⟨rfl, rfl, rfl, rfl⟩, rfl⟩
  refine hmirror _ ?_
  cases action with
  | down => exact ⟨⟨rfl, rfl, rfl, rfl⟩, rfl⟩
  | move =>
    dsimp only
    split
    · exact ⟨⟨rfl, rfl, rfl, rfl⟩, rfl⟩
    · exact .refl c
  | up swipe =>
    have h : Aside c { c with compare := false } := ⟨⟨rfl, rfl, rfl, rfl⟩, rfl⟩
    exact h.trans (touchUp_aside swipe timestampMs)
  | other => exact .refl c

theorem changeStyle_aside (delta : Int) : Aside c (changeStyle delta c) := by
  unfold changeStyle
  split
  · exact .refl c
  · exact ⟨⟨rfl, rfl, rfl, rfl⟩, rfl⟩

theorem submitJpeg_aside (jpeg : Option Bytes) (timestampMs : Int64) :
    Aside c (submitJpeg jpeg timestampMs c).2 := by
  unfold submitJpeg
  split
  · exact .refl c
  · split
    · exact .refl c
    · split
      · exact .refl c
      · split <;> exact ⟨⟨rfl, rfl, rfl, rfl⟩, rfl⟩

theorem setPhotoStatus_aside (until' : Int) : Aside c (setPhotoStatus status until' c) :=
  ⟨⟨rfl, rfl, rfl, rfl⟩, rfl⟩

/-! ## Posting a job of the gallery -/

/-- The job is posted, or nothing happens. -/
theorem queueGalleryLocked_cases (job : PhotoJob) (status : PhotoWriteState) (sh : Shared) :
    (queueGalleryLocked job status sh = (false, sh)) ∨
      (queueGalleryLocked job status sh).1 = true ∧
        Posted job sh (queueGalleryLocked job status sh).2 ∧
        Aside sh.screen (queueGalleryLocked job status sh).2.screen ∧
        (queueGalleryLocked job status sh).2.photoFrame = sh.photoFrame := by
  unfold queueGalleryLocked
  split
  · exact .inl rfl
  · rename_i hready
    split
    · exact .inl rfl
    · rename_i hfree
      rw [not_or] at hready
      exact .inr ⟨rfl, ⟨by simpa using hfree, by simpa using hready.1, by simpa using hready.2, rfl⟩,
        ⟨⟨rfl, rfl, rfl, rfl⟩, rfl⟩, rfl⟩

/-- What a key press can do. -/
inductive KeyStep (keyValue : PhotoUiKey) (down : Bool) (sh sh' : Shared) : Prop where
  | aside (slot : sh'.slot = sh.slot) (screen : Aside sh.screen sh'.screen)
  /-- Another photo is selected, and its thumbnail asked for if it can be. -/
  | browsed (slot : sh'.slot = sh.slot ∨ Posted .load sh sh') (screen : Kept sh.screen sh'.screen)
      (hidden : sh'.screen.gallery.galleryHasThumbnail = false)
  /-- The gallery opens with the newest thumbnail still there. -/
  | reopened (slot : sh'.slot = sh.slot) (screen : Kept sh.screen sh'.screen)
      (shown : sh.screen.gallery.galleryHasThumbnail = true)
      (loaded : sh.screen.gallery.galleryLoadedIndex = 0)
      (gallery : sh'.screen.gallery = { sh.screen.gallery with galleryIndex := 0 })
  | confirmed (key : keyValue = .confirm) (pressed : down = true)
      (scene : sh.screen.scene = .deleteConfirm) (posted : Posted .delete sh sh')
      (screen : Aside sh.screen sh'.screen)

/-- What a key press does, and that it leaves the photo buffer alone. -/
structure KeySpec (keyValue : PhotoUiKey) (down : Bool) (sh sh' : Shared) : Prop where
  step : KeyStep keyValue down sh sh'
  buffer : sh'.photoFrame = sh.photoFrame

variable {keyValue : PhotoUiKey} {down : Bool} {sh₁ sh₂ : Shared}

theorem Posted.congr (h : Posted job sh₁ sh') (hslot : sh₁.slot = sh.slot)
    (hready : sh₁.screen.storageReady = sh.screen.storageReady) : Posted job sh sh' :=
  ⟨hslot ▸ h.free, hready ▸ h.storageReady, h.stored, hslot ▸ h.slot⟩

theorem Posted.aside (h : Posted job sh sh₁) (hslot : sh'.slot = sh₁.slot)
    (ha : Aside sh₁.screen sh'.screen) : Posted job sh sh' :=
  ⟨h.free, h.storageReady, ha.gallery ▸ h.stored, by rw [hslot, h.slot, ha.gallery]⟩

/-- A step of the keys with changes of the screen before and after it. -/
theorem KeySpec.around (h : KeySpec keyValue down sh₁ sh₂) (hslot : sh₁.slot = sh.slot)
    (hbuffer : sh₁.photoFrame = sh.photoFrame) (ha : Aside sh.screen sh₁.screen)
    (hscene : sh₁.screen.scene = sh.screen.scene) (hslot' : sh'.slot = sh₂.slot)
    (hbuffer' : sh'.photoFrame = sh₂.photoFrame) (ha' : Aside sh₂.screen sh'.screen) :
    KeySpec keyValue down sh sh' := by
  refine ⟨?_, hbuffer'.trans (h.buffer.trans hbuffer)⟩
  have hready := ha.storageReady
  cases h.step with
  | aside slot screen => exact .aside (hslot'.trans (slot.trans hslot)) ((ha.trans screen).trans ha')
  | browsed slot screen hidden =>
    refine .browsed (slot.imp (fun h => hslot'.trans (h.trans hslot)) fun h => ?_)
      ((ha.toKept.trans screen).trans ha'.toKept) ?_
    · exact (h.congr hslot hready).aside hslot' ha'
    · rw [ha'.gallery, hidden]
  | reopened slot screen shown loaded gallery =>
    have hg := ha.gallery
    refine .reopened (hslot'.trans (slot.trans hslot))
      ((ha.toKept.trans screen).trans ha'.toKept) (hg ▸ shown) (hg ▸ loaded) ?_
    rw [ha'.gallery, gallery, hg]
  | confirmed hkey pressed scene posted screen =>
    exact .confirmed hkey pressed (hscene ▸ scene) ((posted.congr hslot hready).aside hslot' ha')
      ((ha.trans screen).trans ha')

theorem KeySpec.of_aside {c : Screen} (ha : Aside sh.screen c) :
    KeySpec keyValue down sh { sh with screen := c } := ⟨.aside rfl ha, rfl⟩

/-- Asking for a thumbnail after the selection moved. -/
theorem queueGalleryLoadLocked_spec (hslot : sh₁.slot = sh.slot)
    (hbuffer : sh₁.photoFrame = sh.photoFrame) (hkept : Kept sh.screen sh₁.screen)
    (hhidden : sh₁.screen.gallery.galleryHasThumbnail = false) :
    KeySpec keyValue down sh (queueGalleryLoadLocked sh₁).2 := by
  rcases queueGalleryLocked_cases .load .loading sh₁ with h | ⟨-, hp, ha, hf⟩
  · rw [queueGalleryLoadLocked, h]
    exact ⟨.browsed (.inl hslot) hkept hhidden, hbuffer⟩
  · refine ⟨.browsed (.inr (hp.congr hslot hkept.storageReady)) (hkept.trans ha.toKept) ?_,
      hf.trans hbuffer⟩
    rw [queueGalleryLoadLocked, ha.gallery, hhidden]

theorem moveInGallery_spec (direction : Int) :
    KeySpec keyValue down sh (moveInGallery direction sh) := by
  unfold moveInGallery
  dsimp only
  split
  · exact queueGalleryLoadLocked_spec rfl rfl ⟨rfl, rfl, rfl, rfl⟩ rfl
  · exact .of_aside (.refl _)

theorem keyDirection_spec (direction : Int) :
    KeySpec keyValue down sh (keyDirection direction sh) := by
  unfold keyDirection
  split
  · exact moveInGallery_spec direction
  · exact .of_aside (adjustParameterLocked_aside direction)
  · exact .of_aside ⟨⟨rfl, rfl, rfl, rfl⟩, rfl⟩

theorem keyGallery_spec : KeySpec keyValue down sh (keyGallery sh) := by
  unfold keyGallery
  split
  · exact .of_aside ⟨⟨rfl, rfl, rfl, rfl⟩, rfl⟩
  · dsimp only
    split
    · exact queueGalleryLoadLocked_spec rfl rfl ⟨rfl, rfl, rfl, rfl⟩ rfl
    · rename_i h
      rw [not_or, Bool.not_eq_false, not_not] at h
      exact ⟨.reopened rfl ⟨rfl, rfl, rfl, rfl⟩ h.1 h.2 rfl, rfl⟩

theorem keyConfirm_spec : KeySpec .confirm true sh (keyConfirm sh) := by
  unfold keyConfirm
  split
  · rename_i hscene
    rcases queueGalleryLocked_cases .delete .saving sh with h | ⟨h1, hp, ha, hf⟩
    · simp only [queueGalleryDeleteLocked, h]
      exact .of_aside ⟨⟨rfl, rfl, rfl, rfl⟩, rfl⟩
    · simp only [queueGalleryDeleteLocked, h1, if_true]
      exact ⟨.confirmed rfl rfl hscene hp ha, hf⟩
  · exact .of_aside toggleFavoriteLocked_aside
  · exact .of_aside ⟨⟨rfl, rfl, rfl, rfl⟩, rfl⟩
  · exact .of_aside ⟨⟨rfl, rfl, rfl, rfl⟩, rfl⟩

theorem keyEffect_spec (timestampMs : Int) (sh : Shared) :
    KeySpec keyValue true sh (keyEffect keyValue timestampMs sh).2 := by
  cases keyValue with
  | previous => exact keyDirection_spec _
  | next => exact keyDirection_spec _
  | up => exact .of_aside (keyVertical_aside _)
  | down => exact .of_aside (keyVertical_aside _)
  | confirm => exact keyConfirm_spec
  | gallery => exact keyGallery_spec
  | back => exact .of_aside keyBack_aside
  | diagnostics => exact .of_aside keyDiagnostics_aside
  | browser => exact .of_aside ⟨⟨rfl, rfl, rfl, rfl⟩, rfl⟩
  | record => exact .of_aside ⟨⟨rfl, rfl, rfl, rfl⟩, rfl⟩
  | focus => exact .of_aside ⟨⟨rfl, rfl, rfl, rfl⟩, rfl⟩
  | compare => exact .of_aside (.refl _)
  | capture => exact .of_aside (.refl _)
  | other => exact .of_aside (.refl _)

/-- **What a key press does** to the slot and the gallery. -/
theorem key_spec (keyValue : PhotoUiKey) (down : Bool) (timestampMs : Int) (sh : Shared) :
    KeySpec keyValue down sh (key keyValue down timestampMs sh).2 := by
  unfold key
  split
  · exact .of_aside ⟨⟨rfl, rfl, rfl, rfl⟩, rfl⟩
  · split
    · exact .of_aside (.refl _)
    · rename_i h
      obtain rfl : down = true := by simpa using h
      exact (keyEffect_spec timestampMs { sh with
        screen.controlsVisible := true
        screen.controlsVisibleUntilMs := timestampMs + 2000 }).around rfl rfl
          ⟨⟨rfl, rfl, rfl, rfl⟩, rfl⟩ rfl rfl rfl mirrorKey_aside

/-! ## All calls -/

/-- What a call can do; `filtered` is what the frame thread's buffer holds. -/
inductive UiCall.Step (filtered : Frame) (call : UiCall) (sh sh' : Shared) : Prop where
  | key (keyValue : PhotoUiKey) (down : Bool) (timestampMs : Int)
      (eq : call = .key keyValue down timestampMs) (spec : KeySpec keyValue down sh sh')
  | screen (slot : sh'.slot = sh.slot) (buffer : sh'.photoFrame = sh.photoFrame)
      (screen : Aside sh.screen sh'.screen) (other : ∀ keyValue down timestampMs,
        call ≠ .key keyValue down timestampMs)
      (refused : ∀ timestampMs, call = .requestPhoto timestampMs →
        (Worker.requestPhoto filtered timestampMs sh).1 ≠ .queued)
  | configured (status : StorageProbeStatus) (eq : call = .configureStorage status)
      (shared : sh' = { sh with slot := Worker.configureStorage status sh.slot })
  /-- A photo is queued. -/
  | requested (timestampMs : Int64) (eq : call = .requestPhoto timestampMs)
      (result : (Worker.requestPhoto filtered timestampMs sh).1 = .queued)
      (hasPrevious : sh.screen.intake.hasPrevious = true)
      (storageReady : sh.screen.storageReady = true) (free : sh.slot.free = true)
      (screen : Aside sh.screen sh'.screen)
      (slot : sh'.slot =
        { sh.slot with
          photoPreset := sh.screen.style.selectedStyle
          photoIntensity := sh.screen.style.intensity
          photoAdjustments := sh.screen.style.adjustments sh.screen.style.selectedStyle
          photoFavorite := isFavoriteLocked sh.screen.style.selectedStyle sh.screen
          photoTimestampMs := timestampMs
          photoJob := .save
          photoPending := true })
      (buffer : sh'.photoFrame = applyCaptureTexture filtered
        (adjustedPresetLocked sh.screen.style.selectedStyle sh.screen))

theorem requestPhoto_step (filtered : Frame) (timestampMs : Int64) (sh : Shared) :
    UiCall.Step filtered (.requestPhoto timestampMs) sh
      (requestPhoto filtered timestampMs sh).2 := by
  have hrefused : ∀ {until' : Int} {status : PhotoWriteState},
      (requestPhoto filtered timestampMs sh).1 ≠ .queued →
      UiCall.Step filtered (.requestPhoto timestampMs) sh
        { sh with screen := setPhotoStatus status until' sh.screen } := fun h =>
    .screen rfl rfl (setPhotoStatus_aside _) (fun _ _ _ h => by cases h) fun _ ht => by
      cases ht
      exact h
  unfold requestPhoto at hrefused ⊢
  dsimp only at hrefused ⊢
  split
  · exact hrefused (by simp [*])
  rename_i hprev
  split
  · exact hrefused (by simp [*])
  rename_i hready
  split
  · exact hrefused (by simp [*])
  rename_i hfree
  rw [Bool.not_eq_false] at hprev hready hfree
  refine .requested timestampMs rfl ?_ hprev hready hfree (setPhotoStatus_aside _) rfl rfl
  simp [requestPhoto, hprev, hready, hfree]

/-- A call that is neither a key press nor a capture, and only changes the screen. -/
theorem UiCall.Step.of_aside {filtered : Frame} {call : UiCall} {c : Screen}
    (ha : Aside sh.screen c)
    (other : ∀ keyValue down timestampMs, call ≠ .key keyValue down timestampMs)
    (hcall : ∀ timestampMs, call ≠ .requestPhoto timestampMs) :
    call.Step filtered sh { sh with screen := c } :=
  .screen rfl rfl ha other fun _ h => absurd h (hcall _)

/-- **What a call can do.** -/
theorem UiCall.run_step (filtered : Frame) (call : UiCall) (sh : Shared) :
    call.Step filtered sh (call.run filtered sh) := by
  cases call with
  | key keyValue down timestampMs => exact .key _ _ _ rfl (key_spec ..)
  | touch action timestampMs => exact .of_aside (touch_aside ..) (by simp) (by simp)
  | changeStyle delta => exact .of_aside (changeStyle_aside _) (by simp) (by simp)
  | requestPhoto timestampMs => exact requestPhoto_step ..
  | setFocus active => exact .of_aside ⟨⟨rfl, rfl, rfl, rfl⟩, rfl⟩ (by simp) (by simp)
  | configureStorage status => exact .configured status rfl rfl
  | noteAttempts attempts => exact .of_aside ⟨⟨rfl, rfl, rfl, rfl⟩, rfl⟩ (by simp) (by simp)
  | submitJpeg jpeg timestampMs => exact .of_aside (submitJpeg_aside ..) (by simp) (by simp)

/-- A call leaves the slot alone or posts a job in it. -/
inductive SlotChange (sh sh' : Shared) : Prop where
  | kept (photoRunning : sh'.slot.photoRunning = sh.slot.photoRunning)
      (photoPending : sh'.slot.photoPending = sh.slot.photoPending)
      (photoInUse : sh'.slot.photoInUse = sh.slot.photoInUse)
      (copy : sh'.slot.copy = sh.slot.copy)
  | posted (free : sh.slot.free = true) (storageReady : sh.screen.storageReady = true)
      (photoRunning : sh'.slot.photoRunning = sh.slot.photoRunning)
      (photoPending : sh'.slot.photoPending = true)
      (photoInUse : sh'.slot.photoInUse = sh.slot.photoInUse)
      (photoJob : sh'.slot.photoJob ≠ .none)

theorem SlotChange.of_eq (h : sh'.slot = sh.slot) : SlotChange sh sh' := by
  refine .kept ?_ ?_ ?_ ?_ <;> rw [h]

theorem Posted.change (h : Posted job sh sh') (hjob : job ≠ .none) : SlotChange sh sh' := by
  refine .posted h.free h.storageReady ?_ ?_ ?_ ?_ <;> rw [h.slot]
  exact hjob

theorem configureStorage_copy (status : StorageProbeStatus) (slot : JobSlot) :
    (configureStorage status slot).photoRunning = slot.photoRunning ∧
      (configureStorage status slot).photoPending = slot.photoPending ∧
      (configureStorage status slot).photoInUse = slot.photoInUse ∧
      (configureStorage status slot).copy = slot.copy := by
  unfold configureStorage
  split <;> exact ⟨rfl, rfl, rfl, rfl⟩

theorem KeySpec.change (h : KeySpec keyValue down sh sh') : SlotChange sh sh' := by
  cases h.step with
  | aside slot screen => exact .of_eq slot
  | browsed slot screen hidden => exact slot.elim .of_eq fun h => h.change (by decide)
  | reopened slot => exact .of_eq slot
  | confirmed key pressed scene posted => exact posted.change (by decide)

theorem KeySpec.kept (h : KeySpec keyValue down sh sh') : Kept sh.screen sh'.screen := by
  cases h.step with
  | aside slot screen => exact screen.toKept
  | browsed slot screen => exact screen
  | reopened slot screen => exact screen
  | confirmed key pressed scene posted screen => exact screen.toKept

variable {filtered : Frame} {call : UiCall}

theorem UiCall.Step.change (h : call.Step filtered sh sh') : SlotChange sh sh' := by
  cases h with
  | key keyValue down timestampMs eq spec => exact spec.change
  | screen slot => exact .of_eq slot
  | configured status eq shared =>
    obtain ⟨h1, h2, h3, h4⟩ := configureStorage_copy status sh.slot
    rw [shared]
    exact .kept h1 h2 h3 h4
  | requested timestampMs eq result hasPrevious storageReady free screen slot =>
    refine .posted free storageReady ?_ ?_ ?_ ?_ <;> rw [slot]
    exact (by decide : PhotoJob.save ≠ .none)

theorem UiCall.Step.kept (h : call.Step filtered sh sh') : Kept sh.screen sh'.screen := by
  cases h with
  | key keyValue down timestampMs eq spec => exact spec.kept
  | screen slot buffer screen => exact screen.toKept
  | configured status eq shared =>
    rw [shared]
    exact .refl _
  | requested timestampMs eq result hasPrevious storageReady free screen => exact screen.toKept

/-! ## The frame thread -/

theorem renderNextLocked_aside (now : Int) : Aside c (renderNextLocked now c) := by
  have h1 : Aside c (hideControls now c) := by
    unfold hideControls
    split
    · exact ⟨⟨rfl, rfl, rfl, rfl⟩, rfl⟩
    · exact .refl c
  have h2 : ∀ c, Aside c (expireMessage now c) := fun c => by
    unfold expireMessage
    split
    · exact ⟨⟨rfl, rfl, rfl, rfl⟩, rfl⟩
    · exact .refl c
  exact (h1.trans (h2 _)).trans ⟨⟨rfl, rfl, rfl, rfl⟩, rfl⟩

/-- What a section of the frame thread does. -/
inductive FrameEvent.Step (e : FrameEvent) (v v' : FrameView) : Prop where
  | exit (now : Int) (event : e = .turn now) (pc : v.frame.pc = .head)
      (running : v.screen.running = false) (eq : v' = { v with frame.pc := .exited })
  /-- The input is taken. -/
  | take (now : Int) (event : e = .turn now) (pc : v.frame.pc = .head)
      (running : v.screen.running = true) (pending : v.screen.intake.inputPending = true)
      (eq : v' =
        { screen :=
            { v.screen with
              intake.inputPending := false
              intake.inputInUse := true
              intake.hasPrevious :=
                if v.screen.intake.styleDirty then false else v.screen.intake.hasPrevious
              intake.styleDirty := false }
          frame :=
            { v.frame with
              pc := .decoding (frameSettings v.screen.intake.jpegTimestampMs v.screen)
                (v.screen.intake.hasPrevious && !v.screen.intake.styleDirty) } })
  /-- The last frame is to be filtered anew. -/
  | again (now : Int) (event : e = .turn now) (pc : v.frame.pc = .head)
      (running : v.screen.running = true) (pending : v.screen.intake.inputPending = false)
      (dirty : v.screen.intake.styleDirty = true) (raw : v.screen.intake.hasRaw = true)
      (eq : v' =
        { screen := { v.screen with intake.styleDirty := false, intake.hasPrevious := false }
          frame :=
            { v.frame with
              pc := .filtering
                { toFilterSettings := frameSettings v.screen.intake.lastDecodedTimestampMs v.screen
                  source := v.frame.raw, previous := none } false 0 } })
  | idle (now : Int) (event : e = .turn now) (pc : v.frame.pc = .head)
      (running : v.screen.running = true) (pending : v.screen.intake.inputPending = false)
      (eq : v' = { v with screen := renderNextLocked now v.screen })
  | decoded (ok : Bool) (raw : Frame) (settings : FilterSettings) (usePrevious : Bool)
      (event : e = .decoded ok raw) (pc : v.frame.pc = .decoding settings usePrevious)
      (eq : v' = { v with frame := decodeDone ok raw settings usePrevious v.frame })
  | wrote (pixels : Nat) (call : FilterCall) (input : Bool) (written : Nat)
      (event : e = .wrote pixels) (pc : v.frame.pc = .filtering call input written)
      (eq : v' =
        { v with
          frame.pc := .filtering call input (written + pixels)
          frame.filtered := overwrite (written + pixels) call.output v.frame.filtered })
  | filtered (call : FilterCall) (input : Bool) (written : Nat) (event : e = .filtered)
      (pc : v.frame.pc = .filtering call input written)
      (eq : v' =
        { v with frame.pc := .finishing call input, frame.filtered := call.output })
  | finish (now decodeMs filterMs : Int) (call : FilterCall) (input : Bool)
      (event : e = .finish now decodeMs filterMs) (pc : v.frame.pc = .finishing call input)
      (eq : v' =
        { screen := renderNextLocked now
            (if input then frameDone call.timestampMs decodeMs filterMs v.screen
              else styleDone filterMs v.screen)
          frame := { v.frame with pc := .head, previous := v.frame.filtered } })
  | fail (now decodeMs filterMs : Int) (event : e = .finish now decodeMs filterMs)
      (pc : v.frame.pc = .decodeFailed)
      (eq : v' =
        { screen := renderNextLocked now (decodeError decodeMs filterMs v.screen)
          frame := { v.frame with pc := .head } })

theorem FrameEvent.turn_step {v : FrameView} (now : Int) (hpc : v.frame.pc = .head) :
    FrameEvent.Step (.turn now) v (runTurn now v) := by
  unfold runTurn
  dsimp only
  split
  · rename_i hr
    exact .exit now rfl hpc hr rfl
  · rename_i hr
    rw [Bool.not_eq_false] at hr
    split
    · rename_i hp
      exact .take now rfl hpc hr hp rfl
    · rename_i hp
      rw [Bool.not_eq_true] at hp
      split
      · rename_i hd
        rw [Bool.and_eq_true] at hd
        exact .again now rfl hpc hr hp hd.1 hd.2 rfl
      · exact .idle now rfl hpc hr hp rfl

/-- **What a section of the frame thread can do.** -/
theorem FrameEvent.run_step {e : FrameEvent} {v v' : FrameView} (h : e.run v = some v') :
    e.Step v v' := by
  unfold FrameEvent.run at h
  split at h <;> rename_i hpc
  · cases h
    exact turn_step _ hpc
  · cases h
    exact .decoded _ _ _ _ rfl hpc rfl
  · split at h
    · cases h
      exact .wrote _ _ _ _ rfl hpc rfl
    · cases h
  · cases h
    exact .filtered _ _ _ rfl hpc rfl
  · cases h
    exact .finish _ _ _ _ _ rfl hpc rfl
  · cases h
    exact .fail _ _ _ rfl hpc rfl
  · cases h

theorem FrameEvent.decoded_acts {v : FrameView} {ok : Bool} {raw : Frame}
    {settings : FilterSettings} {usePrevious : Bool} (hpc : v.frame.pc = .decoding settings usePrevious) :
    (FrameEvent.decoded ok raw).acts v =
      [.decoded v.screen.intake.jpeg settings.timestampMs ok raw] := by
  simp only [FrameEvent.acts, hpc]

theorem FrameEvent.filtered_acts {v : FrameView} {call : FilterCall} {input : Bool} {written : Nat}
    (hpc : v.frame.pc = .filtering call input written) :
    FrameEvent.filtered.acts v = [.filtered call] := by
  simp only [FrameEvent.acts, hpc]

/-- The frame thread has no part in the photos. -/
theorem FrameEvent.run_aside {e : FrameEvent} {v v' : FrameView} (h : e.run v = some v') :
    Aside v.screen v'.screen := by
  cases run_step h with
  | take now event pc running pending eq => exact eq ▸ ⟨⟨rfl, rfl, rfl, rfl⟩, rfl⟩
  | again now event pc running pending dirty raw eq => exact eq ▸ ⟨⟨rfl, rfl, rfl, rfl⟩, rfl⟩
  | idle now event pc running pending eq => exact eq ▸ renderNextLocked_aside now
  | finish now decodeMs filterMs call input event pc eq =>
    rw [eq]
    refine Aside.trans ?_ (renderNextLocked_aside now)
    cases input <;> exact ⟨⟨rfl, rfl, rfl, rfl⟩, rfl⟩
  | fail now decodeMs filterMs event pc eq =>
    rw [eq]
    have h : Aside v.screen (decodeError decodeMs filterMs v.screen) := ⟨⟨rfl, rfl, rfl, rfl⟩, rfl⟩
    exact h.trans (renderNextLocked_aside now)
  | exit now event pc running eq => exact eq ▸ .refl _
  | decoded ok raw settings usePrevious event pc eq => exact eq ▸ .refl _
  | wrote pixels call input written event pc eq => exact eq ▸ .refl _
  | filtered call input written event pc eq => exact eq ▸ .refl _

end RetroLens.Worker
