import RetroLens.Worker.Jobs

/-!
# Messages that expire

A photo message is shown until `photoMessageUntilMs_`; only the status of a job
under way needs no end, since the job's publication replaces it. Two paths set
the status alone: Confirm in the delete dialog where no deletion can be posted,
and a load that fails. After them the message may stay for good. The runs in
which these two find an end already set are exactly those in which every
message expires (`messages_expire_iff`).
-/

namespace RetroLens.Worker

open Text RetroLens.Core Store Runs

/-! ## What is shown -/

/-- The status of a job under way. -/
def PhotoWriteState.working : PhotoWriteState → Bool
  | saving | loading => true
  | _ => false

/-- A status that tells the user something, for a while. -/
def PhotoWriteState.transient (status : PhotoWriteState) : Bool :=
  status != .idle && !status.working

/-- A message has its end. -/
def Dated (c : Screen) : Prop := c.photoStatus.transient = true → 0 < c.photoMessageUntilMs

/-- A status of work has a job: pending, in use, or not yet published. -/
def Backed (s : DisplayProbeWorker) : Prop :=
  s.shared.screen.photoStatus.working = true →
    s.shared.slot.photoPending = true ∨ s.shared.slot.photoInUse = true ∨
      ∃ job result, s.photo.pc = .handedBack job result

structure MessagesExpire (s : DisplayProbeWorker) : Prop where
  dated : Dated s.shared.screen
  expires : s.shared.screen.photoStatus.transient = true →
    ∀ now ≥ s.shared.screen.photoMessageUntilMs,
      (renderNextLocked now s.shared.screen).photoStatus = .idle
  backed : Backed s

/-- What a section does to the message. -/
inductive MessageStep (sh sh' : Shared) : Prop where
  | same (status : sh'.screen.photoStatus = sh.screen.photoStatus)
      (until' : sh'.screen.photoMessageUntilMs = sh.screen.photoMessageUntilMs)
  | idle (status : sh'.screen.photoStatus = .idle)
  | posted (status : sh'.screen.photoStatus.working = true)
      (pending : sh'.slot.photoPending = true)
  | dated (status : sh'.screen.photoStatus.transient = true)
      (until' : 0 < sh'.screen.photoMessageUntilMs)

/-- A message is shown, and the old end stays. -/
structure Undated (sh sh' : Shared) : Prop where
  status : sh'.screen.photoStatus.transient = true
  until' : sh'.screen.photoMessageUntilMs = sh.screen.photoMessageUntilMs

variable {c : Screen} {sh sh' sh₁ : Shared} {status : PhotoWriteState} {job : PhotoJob}

theorem not_transient_of_working (h : status.working = true) : status.transient = false := by
  simp [PhotoWriteState.transient, h]

theorem not_working_of_transient (h : status.transient = true) : status.working = false := by
  cases hw : status.working with
  | true => simp [not_transient_of_working hw] at h
  | false => rfl

theorem MessageStep.keeps_dated (h : MessageStep sh sh') (hd : Dated sh.screen) :
    Dated sh'.screen := by
  intro ht
  cases h with
  | same status until' =>
    rw [until']
    exact hd (status ▸ ht)
  | idle status =>
    rw [status] at ht
    cases ht
  | posted status pending =>
    rw [not_transient_of_working status] at ht
    cases ht
  | dated status until' => exact until'

theorem Undated.dated_iff (h : Undated sh sh') :
    Dated sh'.screen ↔ 0 < sh.screen.photoMessageUntilMs := by
  unfold Dated
  rw [h.until']
  exact ⟨fun hd => hd h.status, fun hpos _ => hpos⟩

/-- A step seen after a change that leaves the message alone. -/
theorem MessageStep.after (h : MessageStep sh₁ sh')
    (hstatus : sh₁.screen.photoStatus = sh.screen.photoStatus)
    (huntil : sh₁.screen.photoMessageUntilMs = sh.screen.photoMessageUntilMs) :
    MessageStep sh sh' := by
  cases h with
  | same status until' => exact .same (status.trans hstatus) (until'.trans huntil)
  | idle status => exact .idle status
  | posted status pending => exact .posted status pending
  | dated status until' => exact .dated status until'

/-! ## Keys -/

theorem queueGalleryLocked_message (job : PhotoJob) (hstatus : status.working = true)
    (sh : Shared) : MessageStep sh (queueGalleryLocked job status sh).2 := by
  unfold queueGalleryLocked
  split
  · exact .same rfl rfl
  · split
    · exact .same rfl rfl
    · exact .posted hstatus rfl

theorem queueGalleryLoadLocked_message (sh : Shared) :
    MessageStep sh (queueGalleryLoadLocked sh).2 :=
  queueGalleryLocked_message .load rfl sh

theorem keyDirection_message (direction : Int) (sh : Shared) :
    MessageStep sh (keyDirection direction sh) := by
  unfold keyDirection
  split
  · unfold moveInGallery
    dsimp only
    split
    · exact (queueGalleryLoadLocked_message _).after rfl rfl
    · exact .same rfl rfl
  · exact .same rfl rfl
  · exact .same rfl rfl

theorem keyGallery_message (sh : Shared) : MessageStep sh (keyGallery sh) := by
  unfold keyGallery
  split
  · exact .same rfl rfl
  · dsimp only
    split
    · exact (queueGalleryLoadLocked_message _).after rfl rfl
    · exact .same rfl rfl

theorem keyVertical_message (down : Bool) (c : Screen) :
    (keyVertical down c).photoStatus = c.photoStatus ∧
      (keyVertical down c).photoMessageUntilMs = c.photoMessageUntilMs := by
  unfold keyVertical
  split <;> exact ⟨rfl, rfl⟩

theorem keyBack_message (c : Screen) : (keyBack c).2.photoStatus = c.photoStatus ∧
    (keyBack c).2.photoMessageUntilMs = c.photoMessageUntilMs := by
  unfold keyBack
  split <;> exact ⟨rfl, rfl⟩

/-- The slot takes a job for the gallery's photo. -/
def takesGallery (sh : Shared) : Bool :=
  sh.screen.storageReady && decide (0 < sh.screen.gallery.galleryPhotoCount) && sh.slot.free

theorem queueGalleryLocked_fst : (queueGalleryLocked job status sh).1 = takesGallery sh := by
  unfold queueGalleryLocked takesGallery
  split
  · rename_i h
    rcases h with h | h
    · simp [h]
    · simp [Int.not_lt.2 h]
  · rename_i h
    rw [not_or, Int.not_le] at h
    split
    · rename_i hfree
      simp [hfree]
    · rename_i hfree
      simp [h.1, h.2, hfree]

theorem queueGalleryLocked_refused (h : takesGallery sh = false) :
    queueGalleryLocked job status sh = (false, sh) := by
  rcases queueGalleryLocked_cases job status sh with hq | ⟨hq, -⟩
  · exact hq
  · rw [queueGalleryLocked_fst, h] at hq
    cases hq

/-- In the delete dialog, with no place for the deletion. -/
def refusesDelete (sh : Shared) : Bool := sh.screen.scene == .deleteConfirm && !takesGallery sh

theorem keyConfirm_message (h : refusesDelete sh = false) : MessageStep sh (keyConfirm sh) := by
  unfold keyConfirm
  split
  · rename_i hscene
    have hposts : (queueGalleryDeleteLocked sh).1 = true := by
      rw [queueGalleryDeleteLocked, queueGalleryLocked_fst]
      simpa [refusesDelete, hscene] using h
    dsimp only
    rw [if_pos hposts]
    exact queueGalleryLocked_message .delete rfl sh
  · exact .same rfl rfl
  · exact .same rfl rfl
  · exact .same rfl rfl

theorem keyConfirm_undated (h : refusesDelete sh = true) : Undated sh (keyConfirm sh) := by
  simp only [refusesDelete, Bool.and_eq_true, beq_iff_eq, Bool.not_eq_true'] at h
  obtain ⟨hscene, hrefused⟩ := h
  have hq : queueGalleryDeleteLocked sh = (false, sh) := queueGalleryLocked_refused hrefused
  unfold keyConfirm
  rw [hscene]
  dsimp only
  rw [hq]
  exact ⟨rfl, rfl⟩

theorem keyEffect_message (keyValue : PhotoUiKey) {timestampMs : Int} (hpos : 0 < timestampMs)
    (h : keyValue = .confirm → refusesDelete sh = false) :
    MessageStep sh (keyEffect keyValue timestampMs sh).2 := by
  cases keyValue with
  | previous => exact keyDirection_message _ _
  | next => exact keyDirection_message _ _
  | up => exact .same (keyVertical_message _ _).1 (keyVertical_message _ _).2
  | down => exact .same (keyVertical_message _ _).1 (keyVertical_message _ _).2
  | confirm => exact keyConfirm_message (h rfl)
  | gallery => exact keyGallery_message _
  | back => exact .same (keyBack_message _).1 (keyBack_message _).2
  | record =>
    refine .dated rfl ?_
    show 0 < timestampMs + 1200
    omega
  | browser | focus | diagnostics | compare | capture | other => exact .same rfl rfl

/-- Mirroring leaves the message alone. -/
theorem MessageStep.mirror (h : MessageStep sh sh') :
    MessageStep sh { sh' with screen := mirrorKey sh'.screen } := by
  cases h with
  | same status until' => exact .same status until'
  | idle status => exact .idle status
  | posted status pending => exact .posted status pending
  | dated status until' => exact .dated status until'

theorem key_message (keyValue : PhotoUiKey) (down : Bool) {timestampMs : Int}
    (hpos : 0 < timestampMs)
    (h : keyValue = .confirm → down = true → refusesDelete sh = false) :
    MessageStep sh (key keyValue down timestampMs sh).2 := by
  unfold key
  split
  · exact .same rfl rfl
  · split
    · exact .same rfl rfl
    · rename_i hdown
      have hconfirm : keyValue = .confirm → refusesDelete { sh with
          screen.controlsVisible := true
          screen.controlsVisibleUntilMs := timestampMs + 2000 } = false := fun hk =>
        h hk (by simpa using hdown)
      exact (keyEffect_message keyValue hpos hconfirm).mirror.after rfl rfl

theorem key_undated {timestampMs : Int} (h : refusesDelete sh = true) :
    Undated sh (key .confirm true timestampMs sh).2 := by
  have hr : Undated _ (keyConfirm { sh with
      screen.controlsVisible := true
      screen.controlsVisibleUntilMs := timestampMs + 2000 }) := keyConfirm_undated h
  exact ⟨hr.status, hr.until'⟩

/-! ## The other calls -/

theorem touch_message (action : TouchAction) (timestampMs : Int) (c : Screen) :
    (touch action timestampMs c).photoStatus = c.photoStatus ∧
      (touch action timestampMs c).photoMessageUntilMs = c.photoMessageUntilMs := by
  cases action with
  | down | other => exact ⟨rfl, rfl⟩
  | move =>
    unfold touch
    dsimp only
    split <;> exact ⟨rfl, rfl⟩
  | up swipe => cases swipe <;> exact ⟨rfl, rfl⟩

theorem changeStyle_message (delta : Int) (c : Screen) :
    (changeStyle delta c).photoStatus = c.photoStatus ∧
      (changeStyle delta c).photoMessageUntilMs = c.photoMessageUntilMs := by
  unfold changeStyle
  split <;> exact ⟨rfl, rfl⟩

theorem submitJpeg_message (jpeg : Option Bytes) (timestampMs : Int64) (c : Screen) :
    (submitJpeg jpeg timestampMs c).2.photoStatus = c.photoStatus ∧
      (submitJpeg jpeg timestampMs c).2.photoMessageUntilMs = c.photoMessageUntilMs := by
  unfold submitJpeg
  split
  · exact ⟨rfl, rfl⟩
  · split
    · exact ⟨rfl, rfl⟩
    · split
      · exact ⟨rfl, rfl⟩
      · split <;> exact ⟨rfl, rfl⟩

theorem requestPhoto_message (filtered : Frame) {timestampMs : Int64}
    (hpos : 0 < timestampMs.toInt) (sh : Shared) :
    MessageStep sh (requestPhoto filtered timestampMs sh).2 := by
  unfold requestPhoto
  dsimp only
  split
  · refine .dated rfl ?_
    show 0 < timestampMs.toInt + 1200
    omega
  · split
    · refine .dated rfl ?_
      show 0 < timestampMs.toInt + 1800
      omega
    · split
      · refine .dated rfl ?_
        show 0 < timestampMs.toInt + 1200
        omega
      · exact .posted rfl rfl

/-! ## The frame thread -/

theorem expireMessage_cases (now : Int) (c : Screen) :
    (expireMessage now c).photoStatus = .idle ∨ expireMessage now c = c := by
  unfold expireMessage
  split
  · exact .inl rfl
  · exact .inr rfl

theorem hideControls_message (now : Int) (c : Screen) :
    (hideControls now c).photoStatus = c.photoStatus ∧
      (hideControls now c).photoMessageUntilMs = c.photoMessageUntilMs := by
  unfold hideControls
  split <;> exact ⟨rfl, rfl⟩

theorem renderNextLocked_message (now : Int) (sh : Shared) :
    MessageStep sh { sh with screen := renderNextLocked now sh.screen } := by
  rcases expireMessage_cases now (hideControls now sh.screen) with h | h
  · exact .idle h
  · obtain ⟨hstatus, huntil⟩ := hideControls_message now sh.screen
    exact .same ((congrArg Screen.photoStatus h).trans hstatus)
      ((congrArg Screen.photoMessageUntilMs h).trans huntil)

/-- **What has an end is taken away at its end.** -/
theorem renderNextLocked_expires {now : Int} (ht : c.photoStatus.transient = true)
    (hpos : 0 < c.photoMessageUntilMs) (hnow : c.photoMessageUntilMs ≤ now) :
    (renderNextLocked now c).photoStatus = .idle := by
  obtain ⟨hstatus, huntil⟩ := hideControls_message now c
  have hw := not_working_of_transient ht
  show (expireMessage now (hideControls now c)).photoStatus = .idle
  unfold expireMessage
  rw [hstatus, huntil, if_pos]
  refine ⟨?_, ?_, hpos, hnow⟩
  · rintro h
    rw [h] at hw
    cases hw
  · rintro h
    rw [h] at hw
    cases hw

/-! ## Publications -/

/-- A load that failed. -/
def failsLoad (job : Job) (result : JobResult) : Bool := job.job == .load && !result.ok

/-- What a publication may leave: a status of work only with a job pending. -/
def Published (sh sh' : Shared) : Prop :=
  MessageStep sh sh' ∧ (sh'.screen.photoStatus.working = true → sh'.slot.photoPending = true)

theorem Published.of_dated (ht : sh'.screen.photoStatus.transient = true)
    (hpos : 0 < sh'.screen.photoMessageUntilMs) : Published sh sh' :=
  ⟨.dated ht hpos, fun hw => by rw [not_working_of_transient ht] at hw; cases hw⟩

/-- A load may follow a deletion. -/
theorem Published.load (ht : sh₁.screen.photoStatus.transient = true)
    (hpos : 0 < sh₁.screen.photoMessageUntilMs) :
    Published sh (queueGalleryLoadLocked sh₁).2 := by
  unfold queueGalleryLoadLocked queueGalleryLocked
  split
  · exact .of_dated ht hpos
  · split
    · exact .of_dated ht hpos
    · exact ⟨.posted rfl rfl, fun _ => rfl⟩

theorem Published.mirror (h : Published sh sh') (p : PhotoStore) (freeBytes : Int) :
    Published sh { sh' with screen := mirrorPhoto p freeBytes sh'.screen } := by
  obtain ⟨hstep, hw⟩ := h
  refine ⟨?_, hw⟩
  cases hstep with
  | same status until' => exact .same status until'
  | idle status => exact .idle status
  | posted status pending => exact .posted status pending
  | dated status until' => exact .dated status until'

theorem publishDelete_message {result : JobResult} {now : Int} (hpos : 0 < now) (p : PhotoStore)
    (sh : Shared) : Published sh (publishDelete result now p sh) := by
  unfold publishDelete
  dsimp only
  split
  · refine .load ?_ ?_
    · cases result.ok <;> rfl
    · cases result.ok
      · show 0 < now + 1800
        omega
      · show 0 < now + 1200
        omega
  · refine .of_dated ?_ ?_
    · cases result.ok <;> rfl
    · cases result.ok
      · show 0 < now + 1800
        omega
      · show 0 < now + 1200
        omega

theorem publish_message {job : Job} {result : JobResult} {now : Int} (hpos : 0 < now)
    (freeBytes : Int) (p : PhotoStore) (sh : Shared) (hjob : job.job ≠ .none)
    (h : failsLoad job result = false) :
    Published sh (publish job result now freeBytes p sh) := by
  unfold publish
  refine Published.mirror ?_ p freeBytes
  split
  · unfold publishSave
    dsimp only
    split
    · refine .of_dated rfl ?_
      show 0 < now + 1200
      omega
    · refine .of_dated rfl ?_
      show 0 < now + 1800
      omega
  · rename_i hload
    have hok : result.ok = true := by simpa [failsLoad, hload] using h
    simp only [publishLoad, hok, if_true]
    exact ⟨.idle rfl, fun hw => by cases hw⟩
  · exact publishDelete_message hpos p sh
  · rename_i hnone
    exact absurd hnone hjob

theorem publish_undated {job : Job} {result : JobResult} (now freeBytes : Int) (p : PhotoStore)
    (sh : Shared)
    (h : failsLoad job result = true) : Undated sh (publish job result now freeBytes p sh) := by
  simp only [failsLoad, Bool.and_eq_true, beq_iff_eq, Bool.not_eq_true'] at h
  obtain ⟨hload, hfails⟩ := h
  unfold publish
  rw [hload]
  simp only [publishLoad, hfails]
  exact ⟨rfl, rfl⟩

/-! ## The steps -/

/-- The clocks that date the messages are past zero. -/
def positiveTimes : Guard DisplayProbeWorker Event Act := fun _ _ e =>
  match e with
  | .ui (.key _ _ timestampMs) => 0 < timestampMs
  | .ui (.requestPhoto timestampMs) => 0 < timestampMs.toInt
  | .photo (.publish now _) => 0 < now
  | _ => True

/-- The step shows a message without giving it an end. -/
def showsUndated (s : DisplayProbeWorker) : Event → Bool
  | .ui (.key .confirm true _) => refusesDelete s.shared
  | .photo (.publish _ _) =>
    match s.photo.pc with
    | .handedBack job result => failsLoad job result
    | _ => false
  | _ => false

/-- A message shown without an end of its own finds one set. -/
def endsSet : Guard DisplayProbeWorker Event Act := fun _ s e =>
  showsUndated s e = true → 0 < s.shared.screen.photoMessageUntilMs

variable {s s' s₀ : DisplayProbeWorker} {l o : List Act} {es : List Event} {e : Event}

/-- The job whose result is to be published is one. -/
def Owed (s : DisplayProbeWorker) : Prop :=
  ∀ job result, s.photo.pc = .handedBack job result → job.job ≠ .none

/-- A call's step, as far as the message goes. -/
theorem call_message {filtered : Frame} {call : UiCall}
    (hpos : positiveTimes l s (.ui call)) (hshows : showsUndated s (.ui call) = false) :
    MessageStep s.shared (call.run filtered s.shared) := by
  cases call with
  | key keyValue down timestampMs =>
    refine key_message keyValue down hpos fun hk hd => ?_
    subst hk hd
    exact hshows
  | touch action timestampMs => exact .same (touch_message ..).1 (touch_message ..).2
  | changeStyle delta => exact .same (changeStyle_message ..).1 (changeStyle_message ..).2
  | requestPhoto timestampMs => exact requestPhoto_message filtered hpos s.shared
  | setFocus active => exact .same rfl rfl
  | configureStorage status => exact .same rfl rfl
  | noteAttempts attempts => exact .same rfl rfl
  | submitJpeg jpeg timestampMs => exact .same (submitJpeg_message ..).1 (submitJpeg_message ..).2

theorem call_undated (filtered : Frame) {call : UiCall}
    (hshows : showsUndated s (.ui call) = true) :
    Undated s.shared (call.run filtered s.shared) := by
  unfold showsUndated at hshows
  split at hshows
  · rename_i he
    cases he
    exact key_undated hshows
  · rename_i he
    cases he
  · cases hshows

/-- A frame thread's step, as far as the message goes. -/
theorem frame_message {e : FrameEvent} {v : FrameView} (hs : e.run s.frameView = some v) :
    MessageStep s.shared { s.shared with screen := v.screen } := by
  cases FrameEvent.run_step hs with
  | exit now event pc running eq => exact eq ▸ .same rfl rfl
  | take now event pc running pending eq => exact eq ▸ .same rfl rfl
  | again now event pc running pending dirty raw eq => exact eq ▸ .same rfl rfl
  | idle now event pc running pending eq => exact eq ▸ renderNextLocked_message now s.shared
  | decoded ok raw settings usePrevious event pc eq => exact eq ▸ .same rfl rfl
  | wrote pixels call input written event pc eq => exact eq ▸ .same rfl rfl
  | filtered call input written event pc eq => exact eq ▸ .same rfl rfl
  | finish now decodeMs filterMs call input event pc eq =>
    subst eq
    cases input with
    | true =>
      exact (renderNextLocked_message now { s.shared with
        screen := frameDone call.timestampMs decodeMs filterMs s.shared.screen }).after rfl rfl
    | false =>
      exact (renderNextLocked_message now { s.shared with
        screen := styleDone filterMs s.shared.screen }).after rfl rfl
  | fail now decodeMs filterMs event pc eq =>
    subst eq
    exact (renderNextLocked_message now { s.shared with
      screen := decodeError decodeMs filterMs s.shared.screen }).after rfl rfl

theorem installStore_message (state : PhotoStorageState) (settings : Option RuntimeSettings)
    (freeBytes : Int) (p : PhotoStore) (c : Screen) :
    (installStore state settings freeBytes p c).photoStatus = c.photoStatus ∧
      (installStore state settings freeBytes p c).photoMessageUntilMs = c.photoMessageUntilMs := by
  cases settings <;> exact ⟨rfl, rfl⟩

/-- A photo thread's step: a publication, or the message stays. -/
theorem photo_message {e : PhotoEvent} {v : PhotoView} (hs : e.run s.photoView = some v) :
    (v.shared.screen.photoStatus = s.shared.screen.photoStatus ∧
        v.shared.screen.photoMessageUntilMs = s.shared.screen.photoMessageUntilMs ∧
        showsUndated s (.photo e) = false) ∨
      ∃ job result now freeBytes, e = .publish now freeBytes ∧
        s.photo.pc = .handedBack job result ∧
        v = ⟨publish job result now freeBytes s.photo.store s.shared,
          { s.photo with pc := .waiting }⟩ := by
  have hrun : e.Step s.shared s.photo v := PhotoEvent.run_step hs
  cases hrun with
  | publish job result now freeBytes event pc eq =>
    exact .inr ⟨job, result, now, freeBytes, event, pc, eq⟩
  | install freeBytes state settings event pc eq =>
    subst event eq
    obtain ⟨hstatus, huntil⟩ :=
      installStore_message state settings freeBytes s.photo.store s.shared.screen
    exact .inl ⟨hstatus, huntil, rfl⟩
  | exit event pc running eq =>
    subst eq
    rcases event with rfl | rfl <;> exact .inl ⟨rfl, rfl, rfl⟩
  | configure event pc eq => subst event eq; exact .inl ⟨rfl, rfl, rfl⟩
  | opened plan readable status event pc eq => subst event eq; exact .inl ⟨rfl, rfl, rfl⟩
  | take event pc pending eq => subst event eq; exact .inl ⟨rfl, rfl, rfl⟩
  | call job event pc eq => subst event eq; exact .inl ⟨rfl, rfl, rfl⟩
  | finish job work r event pc call eq => subst event eq; exact .inl ⟨rfl, rfl, rfl⟩
  | handBack job result event pc eq => subst event eq; exact .inl ⟨rfl, rfl, rfl⟩

/-- **A step keeps the messages dated just when it finds an end for the undated ones.** -/
theorem dated_step_iff (hd : Dated s.shared.screen) (howed : Owed s)
    (hpos : positiveTimes l s e) (hs : worker.step s e = some (s', o)) :
    Dated s'.shared.screen ↔ endsSet l s e := by
  have hquiet : showsUndated s e = false → endsSet l s e := fun h h' => by
    rw [h] at h'
    cases h'
  have hloud : ∀ {sh' : Shared}, Undated s.shared sh' → showsUndated s e = true →
      (Dated sh'.screen ↔ endsSet l s e) := fun hu h =>
    hu.dated_iff.trans ⟨fun hp _ => hp, fun hg => hg h⟩
  cases e with
  | ui call =>
    cases hs
    cases h : showsUndated s (.ui call) with
    | false => exact iff_of_true ((call_message hpos h).keeps_dated hd) (hquiet h)
    | true => exact hloud (call_undated _ h) h
  | frame e =>
    obtain ⟨v, hv, hs⟩ := Option.map_eq_some_iff.1 hs
    cases hs
    exact iff_of_true ((frame_message hv).keeps_dated hd) (hquiet rfl)
  | photo e =>
    obtain ⟨v, hv, hs⟩ := Option.map_eq_some_iff.1 hs
    cases hs
    rcases photo_message hv with ⟨hstatus, huntil, hq⟩ | ⟨job, result, now, freeBytes, rfl, pc, rfl⟩
    · exact iff_of_true ((MessageStep.same hstatus huntil).keeps_dated hd) (hquiet hq)
    · have hshows : showsUndated s (.photo (.publish now freeBytes)) = failsLoad job result := by
        simp only [showsUndated, pc]
      cases h : failsLoad job result with
      | false =>
        obtain ⟨hstep, -⟩ := publish_message hpos freeBytes s.photo.store s.shared
          (howed job result pc) h
        exact iff_of_true (hstep.keeps_dated hd) (hquiet (hshows.trans h))
      | true => exact hloud (publish_undated now freeBytes s.photo.store _ h) (hshows.trans h)
  | owner created plan =>
    obtain ⟨v, hv, hs⟩ := Option.map_eq_some_iff.1 hs
    cases hs
    obtain ⟨running, complete, ready, state, hscreen⟩ := ownerStep_screen hv
    refine iff_of_true ?_ (hquiet rfl)
    rw [hscreen]
    exact hd

/-! ## The job behind a status -/

/-- The status stays, and so does its job. -/
theorem Backed.keep (h : Backed s)
    (hstatus : s'.shared.screen.photoStatus = s.shared.screen.photoStatus)
    (hpending : s.shared.slot.photoPending = true →
      s'.shared.slot.photoPending = true ∨ s'.shared.slot.photoInUse = true)
    (hinUse : s.shared.slot.photoInUse = true →
      s'.shared.slot.photoInUse = true ∨ ∃ job result, s'.photo.pc = .handedBack job result)
    (hback : ∀ job result, s.photo.pc = .handedBack job result → s'.photo.pc = s.photo.pc) :
    Backed s' := by
  intro hw
  rcases h (hstatus ▸ hw) with hp | hu | ⟨job, result, hpc⟩
  · exact (hpending hp).imp_right .inl
  · exact .inr (hinUse hu)
  · exact .inr (.inr ⟨job, result, (hback job result hpc).trans hpc⟩)

theorem MessageStep.backed (h : MessageStep s.shared sh') (hb : Backed s)
    (hc : SlotChange s.shared sh') : Backed { s with shared := sh' } := by
  cases h with
  | same status until' =>
    refine hb.keep status (fun hp => .inl ?_) (fun hu => .inl ?_) fun _ _ _ => rfl
    · cases hc with
      | kept photoRunning photoPending => exact photoPending.trans hp
      | posted free storageReady photoRunning photoPending => exact photoPending
    · cases hc with
      | kept photoRunning photoPending photoInUse => exact photoInUse.trans hu
      | posted free storageReady photoRunning photoPending photoInUse => exact photoInUse.trans hu
  | idle status => exact fun hw => by rw [status] at hw; cases hw
  | posted status pending => exact fun _ => .inl pending
  | dated status => exact fun hw => by rw [not_working_of_transient status] at hw; cases hw

theorem Backed.photo (hb : Backed s) (hh : Handoff s) (howed : Owed s) {e : PhotoEvent}
    (hpos : positiveTimes l s (.photo e)) {v : PhotoView} (hs : e.run s.photoView = some v) :
    Backed { s with shared := v.shared, photo := v.photo } := by
  have hrun : e.Step s.shared s.photo v := PhotoEvent.run_step hs
  cases hrun with
  | exit event pc running eq =>
    subst eq
    have hidle : s.shared.slot.photoInUse = false ∧ ∀ job result,
        s.photo.pc ≠ .handedBack job result := by
      rw [hh.inUse]
      rcases pc with pc | ⟨pc, -⟩ <;> simp [pc, PhotoLoop.job]
    refine hb.keep rfl .inl (fun hu => ?_) fun job result hpc => absurd hpc (hidle.2 job result)
    rw [hidle.1] at hu
    cases hu
  | configure event pc eq =>
    subst eq
    exact hb.keep rfl .inl .inl fun job result hpc => by rw [pc] at hpc; cases hpc
  | opened plan readable status event pc eq =>
    subst eq
    exact hb.keep rfl .inl .inl fun job result hpc => by rw [pc] at hpc; cases hpc
  | install freeBytes state settings event pc eq =>
    subst eq
    exact hb.keep (installStore_message ..).1 .inl .inl
      fun job result hpc => by rw [pc] at hpc; cases hpc
  | take event pc pending eq =>
    subst eq
    exact fun _ => .inr (.inl rfl)
  | call job event pc eq =>
    subst eq
    exact hb.keep rfl .inl .inl fun job result hpc => by rw [pc] at hpc; cases hpc
  | finish job work r event pc call eq =>
    subst eq
    exact hb.keep rfl .inl .inl fun job result hpc => by rw [pc] at hpc; cases hpc
  | handBack job result event pc eq =>
    subst eq
    exact fun _ => .inr (.inr ⟨job, result, rfl⟩)
  | publish job result now freeBytes event pc eq =>
    subst event eq
    intro hw
    cases h : failsLoad job result with
    | false =>
      obtain ⟨-, hpending⟩ := publish_message hpos freeBytes s.photo.store s.shared
        (howed job result pc) h
      exact .inl (hpending hw)
    | true =>
      have hu := publish_undated now freeBytes s.photo.store s.shared h
      have hw' := not_working_of_transient hu.status
      rw [hw'] at hw
      cases hw

theorem Backed.step (hb : Backed s) (hh : Handoff s) (howed : Owed s)
    (hpos : positiveTimes l s e) (hs : worker.step s e = some (s', o)) : Backed s' := by
  cases e with
  | ui call =>
    cases hs
    have hchange := (UiCall.run_step s.frame.filtered call s.shared).change
    cases h : showsUndated s (.ui call) with
    | false => exact (call_message hpos h).backed hb hchange
    | true =>
      intro hw
      have hw' := not_working_of_transient (call_undated s.frame.filtered h).status
      rw [hw'] at hw
      cases hw
  | frame e =>
    obtain ⟨v, hv, hs⟩ := Option.map_eq_some_iff.1 hs
    cases hs
    exact (frame_message hv).backed hb (.of_eq rfl)
  | photo e =>
    obtain ⟨v, hv, hs⟩ := Option.map_eq_some_iff.1 hs
    cases hs
    exact hb.photo hh howed hpos hv
  | owner created plan =>
    obtain ⟨v, hv, hs⟩ := Option.map_eq_some_iff.1 hs
    cases hs
    obtain ⟨running, complete, ready, state, hscreen⟩ := ownerStep_screen hv
    have hk := hh.owner_keeps hv
    refine hb.keep (by rw [hscreen]) (fun hp => .inl ?_) (fun hu => .inl ?_) ?_
    · rw [hk.slot]
      exact hp
    · rw [hk.slot]
      exact hu
    · intro job result hpc
      exact hk.pc.resolve_right fun h => by rw [h.1] at hpc; cases hpc

/-! ## Runs -/

theorem Owed.step (h : Owed s) (hh : Handoff s) (hs : worker.step s e = some (s', o)) :
    Owed s' := by
  cases e with
  | ui call =>
    cases hs
    exact h
  | frame e =>
    obtain ⟨v, hv, hs⟩ := Option.map_eq_some_iff.1 hs
    cases hs
    exact h
  | photo e =>
    obtain ⟨v, hv, hs⟩ := Option.map_eq_some_iff.1 hs
    cases hs
    have hrun : e.Step s.shared s.photo v := PhotoEvent.run_step hv
    intro job' result' hpc
    cases hrun with
    | handBack job result event pc eq =>
      subst eq
      cases hpc
      exact hh.known _ (by rw [pc]; rfl)
    | opened plan readable status event pc eq =>
      subst eq
      obtain ⟨state, settings, hopen⟩ := openStore_pc plan readable status s.photo
      cases hopen.symm.trans hpc
    | exit event pc running eq => subst eq; cases hpc
    | configure event pc eq => subst eq; cases hpc
    | install freeBytes state settings event pc eq => subst eq; cases hpc
    | take event pc pending eq => subst eq; cases hpc
    | call job event pc eq => subst eq; cases hpc
    | finish job work r event pc call eq => subst eq; cases hpc
    | publish job result now freeBytes event pc eq => subst eq; cases hpc
  | owner created plan =>
    obtain ⟨v, hv, hs⟩ := Option.map_eq_some_iff.1 hs
    cases hs
    intro job result hpc
    rcases (hh.owner_keeps hv).pc with hk | ⟨-, hk⟩
    · exact h job result (hk ▸ hpc)
    · rw [hk] at hpc
      cases hpc

theorem reach_owed {G : Guard DisplayProbeWorker Event Act} (h0 : Fresh s₀)
    (h : Reach worker G s₀ es l s) : Owed s := by
  induction h with
  | init =>
    obtain ⟨now, root, model, version, status, memory, card, rfl⟩ := h0
    exact fun _ _ hpc => by cases hpc
  | step h hg hs ih => exact ih.step (reach_handoff h0 h) hs

theorem fresh_message (h : Fresh s) : Dated s.shared.screen ∧ Backed s := by
  obtain ⟨now, root, model, version, status, memory, card, rfl⟩ := h
  exact ⟨(fun ht => by cases ht), fun hw => by cases hw⟩

theorem messagesExpire_iff (hb : Backed s) : MessagesExpire s ↔ Dated s.shared.screen :=
  ⟨fun h => h.dated, fun hd =>
    ⟨hd, fun ht _ hnow => renderNextLocked_expires ht (hd ht) hnow, hb⟩⟩

/-- **Messages expire in the runs in which an undated one always finds an end set, and in no
others.** -/
theorem messages_expire_iff (h0 : Fresh s₀) :
    Reach worker (fun l s e => positiveTimes l s e ∧ endsSet l s e) s₀ es l s ↔
      Reach worker (fun l s e => positiveTimes l s e ∧ MessagesExpire s) s₀ es l s ∧
        MessagesExpire s := by
  constructor
  · intro h
    induction h with
    | init =>
      obtain ⟨hd, hb⟩ := fresh_message h0
      exact ⟨.init, (messagesExpire_iff hb).2 hd⟩
    | step h hg hs ih =>
      have hd := (dated_step_iff ih.2.dated (reach_owed h0 h) hg.1 hs).2 hg.2
      have hb := ih.2.backed.step (reach_handoff h0 h) (reach_owed h0 h) hg.1 hs
      exact ⟨.step ih.1 ⟨hg.1, ih.2⟩ hs, (messagesExpire_iff hb).2 hd⟩
  · rintro ⟨h, hm⟩
    induction h with
    | init => exact .init
    | step h hg hs ih =>
      have hend := (dated_step_iff hg.2.dated (reach_owed h0 h) hg.1 hs).1 hm.dated
      exact .step (ih hg.2) ⟨hg.1, hend⟩ hs

/-! ## Sessions -/

def positiveTimesEvent : Event → Bool
  | .ui (.key _ _ timestampMs) => 0 < timestampMs
  | .ui (.requestPhoto timestampMs) => 0 < timestampMs.toInt
  | .photo (.publish now _) => 0 < now
  | _ => true

theorem positiveTimesEvent_guard (h : positiveTimesEvent e = true) : positiveTimes l s e := by
  unfold positiveTimesEvent at h
  unfold positiveTimes
  split at h
  · simpa using h
  · simpa using h
  · simpa using h
  · trivial

/-- The guard as a test of an event. -/
def endsSetEvent (_ : List Act) (s : DisplayProbeWorker) (e : Event) : Bool :=
  positiveTimesEvent e &&
    (!showsUndated s e || decide (0 < s.shared.screen.photoMessageUntilMs))

theorem endsSetEvent_guard (l : List Act) (s : DisplayProbeWorker) (e : Event)
    (h : endsSetEvent l s e = true) : positiveTimes l s e ∧ endsSet l s e := by
  rw [endsSetEvent, Bool.and_eq_true] at h
  refine ⟨positiveTimesEvent_guard h.1, fun hs => ?_⟩
  simpa [hs] using h.2

/-- The video message is up when Confirm finds nothing to delete. -/
def datedSession : List Event :=
  Event.startUp ++ [.press .record, .press .gallery, .press .back, .press .confirm]

theorem messages_expire_session : ∃ l s,
    Reach worker (fun l s e => positiveTimes l s e ∧ endsSet l s e) sampleWorker datedSession l s ∧
      s.shared.screen.photoStatus = .busy ∧ MessagesExpire s := by
  obtain ⟨l, s, h, hp⟩ := reach_of_execIf (M := worker) (g := endsSetEvent) (s := sampleWorker)
    datedSession (p := fun x => x.1.shared.screen.photoStatus == .busy) endsSetEvent_guard
    (by decide +kernel)
  exact ⟨l, s, h, by simpa using hp, ((messages_expire_iff sample_fresh).1 h).2⟩

/-- Confirm finds nothing to delete, and no message is up. -/
def stuckSession : List Event :=
  Event.startUp ++ [.press .gallery, .press .back, .press .confirm]

/-- The message stays however late it gets. -/
theorem busy_stays : ∃ l s, Reach worker positiveTimes sampleWorker stuckSession l s ∧
    ¬ MessagesExpire s ∧
    ∀ now, (renderNextLocked now s.shared.screen).photoStatus = .busy := by
  obtain ⟨l, s, h, hp⟩ := reach_of_execIf (M := worker) (g := fun _ _ => positiveTimesEvent)
    (s := sampleWorker) stuckSession
    (p := fun x => x.1.shared.screen.photoStatus == .busy &&
      x.1.shared.screen.photoMessageUntilMs == 0)
    (fun _ _ _ => positiveTimesEvent_guard) (by decide +kernel)
  simp only [Bool.and_eq_true, beq_iff_eq] at hp
  obtain ⟨hstatus, huntil⟩ := hp
  have ht : s.shared.screen.photoStatus.transient = true := by
    rw [hstatus]
    rfl
  refine ⟨l, s, h, fun hm => ?_, fun now => ?_⟩
  · have hpos := hm.dated ht
    omega
  · obtain ⟨hstatus', huntil'⟩ := hideControls_message now s.shared.screen
    show (expireMessage now (hideControls now s.shared.screen)).photoStatus = .busy
    unfold expireMessage
    rw [huntil', huntil, if_neg fun h => absurd h.2.2.1 (by decide)]
    exact hstatus'.trans hstatus

end RetroLens.Worker
