import RetroLens.Worker.Jobs

/-!
# Deletions and the dialogs that ask for them

A deletion is posted with a place in the gallery, and another photo stands at
that place once one is saved or deleted. `SafeDeletions` says that a dialog
deletes the photo it opened over, and deletes once. It holds in runs in which
nothing happens to the gallery between the opening of a dialog and a press in it.
-/

namespace RetroLens.Worker

open Text RetroLens.Core Store Runs

/-! ## The ledger of dialogs and deletions -/

/-- A dialog that opened: the entries of the store, and the selected place. -/
structure Opening where
  entries : Entries
  galleryIndex : Int
  deriving DecidableEq

/-- The photo that the dialog opened over. -/
def Opening.photo (o : Opening) : Option PhotoEntry :=
  (o.entries.storageIndex o.galleryIndex).bind fun i => o.entries.list[i]?

/-- A deletion, and the number of the dialog that asked for it. -/
structure Deletion where
  dialog : Nat
  before : Entries
  after : Entries
  deriving DecidableEq

structure Ledger where
  openings : List Opening := []
  /-- The dialog that asked last. -/
  asked : Nat := 0
  /-- The deletions that removed something. -/
  deletions : List Deletion := []

def Ledger.note (b : Ledger) : Act → Ledger
  | .dialogOpened entries galleryIndex =>
    { b with openings := b.openings ++ [⟨entries, galleryIndex⟩] }
  | .deleteQueued => { b with asked := b.openings.length - 1 }
  | .deleteReturned _ before after _ =>
    if after = before then b
    else { b with deletions := b.deletions ++ [⟨b.asked, before, after⟩] }
  | _ => b

def ledger (l : List Act) : Ledger := l.foldl Ledger.note {}

theorem ledger_append (l o : List Act) : ledger (l ++ o) = o.foldl Ledger.note (ledger l) :=
  List.foldl_append

/-- That photo is removed, and nothing else. -/
def RemovesExactly (photo : PhotoEntry) (before after : Entries) : Prop :=
  ∃ k, before.list[k]? = some photo ∧ after = before.erase k

instance (photo : PhotoEntry) (before after : Entries) :
    Decidable (RemovesExactly photo before after) :=
  decidable_of_iff
    (∃ k, k < before.list.length ∧ before.list[k]? = some photo ∧ after = before.erase k)
    ⟨fun ⟨k, _, h⟩ => ⟨k, h⟩, fun ⟨k, h, h'⟩ =>
      ⟨k, (List.getElem?_eq_some_iff.1 h).1, h, h'⟩⟩

/-- A dialog deletes the photo it opened over, and deletes at most once. -/
structure SafeDeletions (b : Ledger) : Prop where
  exact : ∀ d ∈ b.deletions, ∀ opening, b.openings[d.dialog]? = some opening →
    ∀ photo, opening.photo = some photo → RemovesExactly photo d.before d.after
  once : (b.deletions.map (·.dialog)).Nodup

/-- When a press in the dialog can post a deletion, the store's entries and the selected place are
those that the dialog opened over. -/
def undisturbedDialog : Guard DisplayProbeWorker Event Act := fun l s e =>
  ∀ timestampMs, e = .ui (.key .confirm true timestampMs) →
    s.shared.screen.scene = .deleteConfirm → s.shared.slot.free = true →
    s.shared.screen.storageReady = true → 0 < s.shared.screen.gallery.galleryPhotoCount →
    (ledger l).openings.getLast? =
      some ⟨s.photo.store.entries, s.shared.screen.gallery.galleryIndex⟩

/-! ## The invariant -/

/-- A deletion is posted or taken, its call not returned. -/
def Deleting (s : DisplayProbeWorker) (galleryIndex : Int) : Prop :=
  (s.shared.slot.photoPending = true ∧ s.shared.slot.photoJob = .delete ∧
    s.shared.slot.photoGalleryIndex = galleryIndex) ∨
  ∃ job, (s.photo.pc = .taken job ∨ s.photo.pc = .calling job) ∧ job.job = .delete ∧
    job.galleryIndex = galleryIndex

/-- A deletion has returned, its result is not published. -/
def Unpublished (s : DisplayProbeWorker) : Prop :=
  ∃ job result, (s.photo.pc = .returned job result ∨ s.photo.pc = .handedBack job result) ∧
    job.job = .delete

/-- What the ledger and the state have to do with each other. -/
structure Watched (b : Ledger) (s : DisplayProbeWorker) : Prop where
  safe : SafeDeletions b
  dialog : s.shared.screen.scene = .deleteConfirm → b.openings ≠ []
  known : ∀ d ∈ b.deletions, d.dialog < b.openings.length
  asked : ∀ galleryIndex, Deleting s galleryIndex →
    b.openings[b.asked]? = some ⟨s.photo.store.entries, galleryIndex⟩ ∧
      ∀ d ∈ b.deletions, d.dialog ≠ b.asked
  /-- A dialog that has deleted is open only until the deletion is published. -/
  spent : ∀ d ∈ b.deletions, d.dialog + 1 = b.openings.length →
    s.shared.screen.scene = .deleteConfirm →
    Unpublished s ∧ ∀ opening, b.openings.getLast? = some opening →
      opening.entries ≠ s.photo.store.entries

variable {b : Ledger} {s s' : DisplayProbeWorker} {l o : List Act}

/-- A step that opens no dialog, posts no deletion and does not end one. -/
theorem Watched.quiet (h : Watched b s)
    (hscene : s'.shared.screen.scene = .deleteConfirm → s.shared.screen.scene = .deleteConfirm)
    (hasked : ∀ galleryIndex, Deleting s' galleryIndex →
      Deleting s galleryIndex ∧ s'.photo.store.entries = s.photo.store.entries)
    (hspent : s'.shared.screen.scene = .deleteConfirm → Unpublished s →
      Unpublished s' ∧ s'.photo.store.entries = s.photo.store.entries) : Watched b s' where
  safe := h.safe
  dialog := fun hs => h.dialog (hscene hs)
  known := h.known
  asked := fun galleryIndex hd => by
    obtain ⟨hd', he⟩ := hasked galleryIndex hd
    rw [he]
    exact h.asked galleryIndex hd'
  spent := fun d hd hlast hs => by
    obtain ⟨hu, hne⟩ := h.spent d hd hlast (hscene hs)
    obtain ⟨hu', he⟩ := hspent hs hu
    rw [he]
    exact ⟨hu', hne⟩

/-- A dialog opens. -/
theorem Watched.opens (h : Watched b s) (hstore : s'.photo = s.photo)
    (hasked : ∀ galleryIndex, Deleting s' galleryIndex → Deleting s galleryIndex)
    (opening : Opening) : Watched { b with openings := b.openings ++ [opening] } s' where
  safe := by
    refine ⟨fun d hd opening' ho => ?_, h.safe.once⟩
    dsimp only at ho
    rw [List.getElem?_append_left (h.known d hd)] at ho
    exact h.safe.exact d hd opening' ho
  dialog := fun _ => by simp
  known := fun d hd => by
    have := h.known d hd
    dsimp only
    rw [List.length_append]
    omega
  asked := fun galleryIndex hd => by
    obtain ⟨ho, hne⟩ := h.asked galleryIndex (hasked galleryIndex hd)
    refine ⟨?_, hne⟩
    dsimp only
    rw [List.getElem?_append_left (List.getElem?_eq_some_iff.1 ho).1, ho, hstore]
  spent := fun d hd hlast => by
    have := h.known d hd
    rw [List.length_append, List.length_singleton] at hlast
    omega

/-- A press posts a deletion of the photo that the dialog opened over. -/
theorem Watched.asks (h : Watched b s) (hstore : s'.photo = s.photo)
    (hpc : s.photo.pc.job = none) (hscene : s.shared.screen.scene = .deleteConfirm)
    (hindex : s'.shared.slot.photoGalleryIndex = s.shared.screen.gallery.galleryIndex)
    (hlast : b.openings.getLast? =
      some ⟨s.photo.store.entries, s.shared.screen.gallery.galleryIndex⟩) :
    Watched { b with asked := b.openings.length - 1 } s' := by
  -- the dialog has not deleted before: the entries would differ from those it opened over
  have hunspent : ∀ d ∈ b.deletions, d.dialog + 1 ≠ b.openings.length := fun d hd hl =>
    (h.spent d hd hl hscene).2 _ hlast rfl
  have hopen := h.dialog hscene
  refine ⟨⟨h.safe.exact, h.safe.once⟩, fun _ => hopen, h.known,
    fun galleryIndex hd => ⟨?_, fun d hd => ?_⟩, ?_⟩
  · rw [List.getLast?_eq_getElem?] at hlast
    rw [hlast, hstore]
    rcases hd with ⟨-, -, hi⟩ | ⟨job, hpc', -⟩
    · rw [← hi, hindex]
    · rw [hstore] at hpc'
      rcases hpc' with hpc' | hpc' <;> rw [hpc'] at hpc <;> cases hpc
  · have := hunspent d hd
    have := h.known d hd
    dsimp only
    omega
  · exact fun d hd hl => absurd hl (hunspent d hd)

/-- What `deletePhoto` does to the entries. -/
theorem deletePhoto_entries (plan : DeletePlan) (newestIndex : Int) (store : PhotoStore)
    (w : CardWorld) :
    let r := deletePhoto plan newestIndex store w
    r.2.1.entries = store.entries ∨
      ∃ photo, (⟨store.entries, newestIndex⟩ : Opening).photo = some photo ∧
        RemovesExactly photo store.entries r.2.1.entries := by
  have hspec := deletePhoto_spec plan newestIndex store w
  dsimp only
  generalize deletePhoto plan newestIndex store w = r at hspec ⊢
  cases hk : store.entries.storageIndex newestIndex with
  | none =>
    rw [hspec.refused hk]
    exact .inl rfl
  | some k =>
    cases hp : plan.index.prints with
    | false =>
      rw [(hspec.failed k hk hp).2.1]
      exact .inl rfl
    | true =>
      obtain ⟨hr, v, photo, -, hphoto, -⟩ := hspec.done k hk hp
      refine .inr ⟨photo, ?_, k, hphoto, by rw [hr]⟩
      rw [Opening.photo, hk]
      exact hphoto

/-- A deletion returns. -/
theorem Watched.returns (h : Watched b s) {job : Job} (hpc : s.photo.pc = .calling job)
    (hjob : job.job = .delete) (hpc' : ∃ result, s'.photo.pc = .returned job result)
    (hshared : s'.shared.screen = s.shared.screen) (hpending : s'.shared.slot.photoPending = false)
    {after : Entries} (hafter : s'.photo.store.entries = after)
    (hentries : after = s.photo.store.entries ∨
      ∃ photo, (⟨s.photo.store.entries, job.galleryIndex⟩ : Opening).photo = some photo ∧
        RemovesExactly photo s.photo.store.entries after) (ok : Bool) :
    Watched (b.note (.deleteReturned job.galleryIndex s.photo.store.entries after ok)) s' := by
  subst hafter
  obtain ⟨result, hpc'⟩ := hpc'
  have hidle : ∀ galleryIndex, ¬ Deleting s' galleryIndex := by
    rintro galleryIndex (⟨hp, -⟩ | ⟨job', hj | hj, -⟩)
    · rw [hpending] at hp
      cases hp
    · rw [hpc'] at hj
      cases hj
    · rw [hpc'] at hj
      cases hj
  have hnot : ¬ Unpublished s := by
    rintro ⟨job', result', hj | hj, -⟩ <;> rw [hpc] at hj <;> cases hj
  obtain ⟨hasked, hfirst⟩ := h.asked job.galleryIndex (.inr ⟨job, .inr hpc, hjob, rfl⟩)
  have hscene : s'.shared.screen.scene = s.shared.screen.scene := by rw [hshared]
  unfold Ledger.note
  dsimp only
  split
  · refine h.quiet (fun hs => hscene ▸ hs) (fun i hd => absurd hd (hidle i)) fun _ hu => ?_
    exact absurd hu hnot
  · rename_i hne
    obtain ⟨photo, hphoto, hremoves⟩ := hentries.resolve_left hne
    refine ⟨⟨fun d hd opening ho => ?_, ?_⟩, fun hs => h.dialog (hscene ▸ hs), fun d hd => ?_,
      fun i hd => absurd hd (hidle i), fun d hd hlast hs => ?_⟩
    · rcases List.mem_append.1 hd with hd | hd
      · exact h.safe.exact d hd opening ho
      · rw [List.mem_singleton.1 hd, hasked] at ho
        cases ho
        rw [List.mem_singleton.1 hd]
        intro photo' hphoto'
        rw [hphoto] at hphoto'
        cases hphoto'
        exact hremoves
    · rw [List.map_append, List.map_singleton, ← List.concat_eq_append, List.nodup_concat]
      refine ⟨fun hm => ?_, h.safe.once⟩
      obtain ⟨d, hd, he⟩ := List.mem_map.1 hm
      exact hfirst d hd he
    · rcases List.mem_append.1 hd with hd | hd
      · exact h.known d hd
      · rw [List.mem_singleton.1 hd]
        exact (List.getElem?_eq_some_iff.1 hasked).1
    · rcases List.mem_append.1 hd with hd | hd
      · exact absurd (h.spent d hd hlast (hscene ▸ hs)).1 hnot
      · rw [List.mem_singleton.1 hd] at hlast
        refine ⟨⟨job, result, .inl hpc', hjob⟩, fun opening ho => ?_⟩
        have hlast' : b.openings.length - 1 = b.asked := by
          dsimp only at hlast
          omega
        dsimp only at ho
        rw [List.getLast?_eq_getElem?, hlast', hasked] at ho
        cases ho
        exact fun he => hne he.symm

/-! ## The steps -/

theorem requestPhoto_scene (filtered : Frame) (timestampMs : Int64) (sh : Shared) :
    (requestPhoto filtered timestampMs sh).2.screen.scene = sh.screen.scene := by
  unfold requestPhoto
  dsimp only
  split
  · rfl
  · split
    · rfl
    · split <;> rfl

theorem touch_scene (action : TouchAction) (timestampMs : Int) (c : Screen) :
    (touch action timestampMs c).scene = c.scene := by
  cases action with
  | down => rfl
  | move =>
    simp only [touch]
    split <;> rfl
  | up swipe => cases swipe <;> rfl
  | other => rfl

theorem submitJpeg_scene (jpeg : Option Bytes) (timestampMs : Int64) (c : Screen) :
    (submitJpeg jpeg timestampMs c).2.scene = c.scene := by
  unfold submitJpeg
  split
  · rfl
  · split
    · rfl
    · split
      · rfl
      · split <;> rfl

/-- Only keys lead to another scene. -/
theorem call_scene (filtered : Frame) (call : UiCall) (sh : Shared)
    (other : ∀ keyValue down timestampMs, call ≠ .key keyValue down timestampMs) :
    (call.run filtered sh).screen.scene = sh.screen.scene := by
  cases call with
  | key keyValue down timestampMs => exact absurd rfl (other _ _ _)
  | touch action timestampMs => exact touch_scene ..
  | changeStyle delta =>
    simp only [UiCall.run, changeStyle]
    split <;> rfl
  | requestPhoto timestampMs => exact requestPhoto_scene ..
  | submitJpeg jpeg timestampMs => exact submitJpeg_scene ..
  | setFocus | configureStorage | noteAttempts => rfl

theorem renderNextLocked_scene (now : Int) (c : Screen) :
    (renderNextLocked now c).scene = c.scene := by
  simp only [renderNextLocked, expireMessage, hideControls]
  split <;> split <;> rfl

theorem FrameEvent.run_scene {e : FrameEvent} {v v' : FrameView} (h : e.run v = some v') :
    v'.screen.scene = v.screen.scene := by
  cases run_step h with
  | idle now event pc running pending eq => exact eq ▸ renderNextLocked_scene ..
  | finish now decodeMs filterMs call input event pc eq =>
    rw [eq]
    refine (renderNextLocked_scene ..).trans ?_
    cases input <;> rfl
  | fail now decodeMs filterMs event pc eq => exact eq ▸ renderNextLocked_scene ..
  | exit now event pc running eq => exact eq ▸ rfl
  | take now event pc running pending eq => exact eq ▸ rfl
  | again now event pc running pending dirty raw eq => exact eq ▸ rfl
  | decoded ok raw settings usePrevious event pc eq => exact eq ▸ rfl
  | wrote pixels call input written event pc eq => exact eq ▸ rfl
  | filtered call input written event pc eq => exact eq ▸ rfl

theorem installStore_scene (state : PhotoStorageState) (settings : Option RuntimeSettings)
    (freeBytes : Int) (store : PhotoStore) (c : Screen) :
    (installStore state settings freeBytes store c).scene = c.scene := by
  cases settings <;> rfl

/-- A publication leaves the scene, but for the one that closes the dialog. -/
theorem publish_scene (job : Job) (result : JobResult) (now freeBytes : Int) (store : PhotoStore)
    (sh : Shared) :
    (publish job result now freeBytes store sh).screen.scene =
      if job.job = .delete then .gallery else sh.screen.scene := by
  unfold publish
  dsimp only
  split <;> rename_i hjob <;> rw [hjob]
  · simp only [publishSave, mirrorPhoto]
    split <;> rfl
  · rfl
  · simp only [publishDelete, mirrorPhoto, queueGalleryLoadLocked, queueGalleryLocked]
    split
    · split
      · rfl
      · split <;> rfl
    · rfl
  · rfl

theorem Deleting.congr {galleryIndex : Int} (h : Deleting s' galleryIndex)
    (hpending : s'.shared.slot.photoPending = s.shared.slot.photoPending)
    (hcopy : s'.shared.slot.copy = s.shared.slot.copy) (hpc : s'.photo.pc = s.photo.pc) :
    Deleting s galleryIndex := by
  have hindex : s'.shared.slot.photoGalleryIndex = s.shared.slot.photoGalleryIndex :=
    congrArg Job.galleryIndex hcopy
  unfold Deleting at h ⊢
  rwa [hpending, job_of_copy hcopy, hindex, hpc] at h

/-- A posted job that is no deletion. -/
theorem Deleting.of_other {galleryIndex : Int} (h : Deleting s' galleryIndex)
    (hjob : s'.shared.slot.photoJob ≠ .delete) (hpc : s'.photo.pc = s.photo.pc) :
    Deleting s galleryIndex := by
  rcases h with ⟨-, hj, -⟩ | h
  · exact absurd hj hjob
  · rw [hpc] at h
    exact .inr h

theorem Watched.press (h : Watched (ledger l) s) (hh : Handoff s) (keyValue : PhotoUiKey)
    (down : Bool) (timestampMs : Int)
    (hg : undisturbedDialog l s (.ui (.key keyValue down timestampMs))) (filtered : Frame) :
    Watched (ledger (l ++ (UiCall.key keyValue down timestampMs).acts filtered
      s.photo.store.entries s.shared))
      { s with shared := (key keyValue down timestampMs s.shared).2 } := by
  have hk := key_spec keyValue down timestampMs s.shared
  rw [ledger_append]
  simp only [UiCall.acts]
  generalize (key keyValue down timestampMs s.shared).2 = sh at hk ⊢
  -- a press that posts no deletion may open a dialog
  have other : postsDelete s.shared sh = false →
      (∀ galleryIndex, Deleting { s with shared := sh } galleryIndex →
        Deleting s galleryIndex) →
      Watched (((if opensDialog s.shared sh = true then
        [Act.dialogOpened s.photo.store.entries sh.screen.gallery.galleryIndex] else []) ++
        if postsDelete s.shared sh = true then [Act.deleteQueued] else []).foldl Ledger.note (ledger l))
        { s with shared := sh } := fun hposts hd => by
    rw [hposts, if_neg Bool.false_ne_true, List.append_nil]
    by_cases hopens : opensDialog s.shared sh = true
    · rw [if_pos hopens]
      refine h.opens ?_ ?_ _
      · rfl
      · exact hd
    · rw [if_neg hopens]
      refine h.quiet (fun hs => ?_) (fun i hi => ⟨hd i hi, rfl⟩) fun _ hu => ⟨hu, rfl⟩
      by_contra hn
      exact hopens (by simp [opensDialog, hn, show sh.screen.scene = .deleteConfirm from hs])
  have kept : sh.slot = s.shared.slot → _ := fun hslot =>
    other (by simp [postsDelete, hslot]) fun i hd => hd.congr (by rw [hslot]) (by rw [hslot]) rfl
  cases hk.step with
  | aside slot => exact kept slot
  | browsed slot =>
    rcases slot with slot | posted
    · exact kept slot
    · exact other (by simp [postsDelete, posted.slot]) fun i hd =>
        hd.of_other (by simp [posted.slot]) rfl
  | reopened slot => exact kept slot
  | confirmed hkey pressed scene posted screen =>
    subst hkey pressed
    have hfree := free_iff.1 posted.free
    have hopens : opensDialog s.shared sh = false := by simp [opensDialog, scene]
    have hposts : postsDelete s.shared sh = true := by simp [postsDelete, posted.slot, hfree.2.1]
    have hgallery := screen.gallery
    rw [hopens, hposts]
    refine h.asks rfl ?_ scene ?_
      (hg timestampMs rfl scene posted.free posted.storageReady (hgallery ▸ posted.stored))
    · rw [← Option.not_isSome_iff_eq_none, ← hh.inUse, hfree.2.2]
      decide
    · simp only [posted.slot, hgallery]

/-- A call other than a key press tells the ledger nothing. -/
theorem call_ledger (filtered : Frame) (entries : Entries) (sh : Shared) (call : UiCall)
    (other : ∀ keyValue down timestampMs, call ≠ .key keyValue down timestampMs) :
    ledger (l ++ call.acts filtered entries sh) = ledger l := by
  rw [ledger_append]
  cases call with
  | key keyValue down timestampMs => exact absurd rfl (other _ _ _)
  | requestPhoto timestampMs =>
    simp only [UiCall.acts]
    split <;> rfl
  | touch | changeStyle | setFocus | configureStorage | noteAttempts | submitJpeg => rfl

theorem Watched.ui (h : Watched (ledger l) s) (hh : Handoff s) (call : UiCall)
    (hg : undisturbedDialog l s (.ui call)) :
    Watched (ledger (l ++ call.acts s.frame.filtered s.photo.store.entries s.shared))
      { s with shared := call.run s.frame.filtered s.shared } := by
  have hother : (∀ keyValue down timestampMs, call ≠ .key keyValue down timestampMs) →
      (∀ galleryIndex,
        Deleting { s with shared := call.run s.frame.filtered s.shared } galleryIndex →
          Deleting s galleryIndex) →
      Watched (ledger (l ++ call.acts s.frame.filtered s.photo.store.entries s.shared))
        { s with shared := call.run s.frame.filtered s.shared } := fun hn hd => by
    rw [call_ledger _ _ _ _ hn]
    refine h.quiet (fun hs => ?_) (fun i hi => ⟨hd i hi, rfl⟩) fun _ hu => ⟨hu, rfl⟩
    exact (call_scene s.frame.filtered call s.shared hn).symm.trans hs
  cases UiCall.run_step s.frame.filtered call s.shared with
  | key keyValue down timestampMs eq spec =>
    subst eq
    exact h.press hh keyValue down timestampMs hg _
  | screen slot buffer screen other refused =>
    exact hother other fun i hd => hd.congr (by rw [slot]) (by rw [slot]) rfl
  | configured status eq shared =>
    subst eq
    obtain ⟨-, h2, -, h4⟩ := configureStorage_copy status s.shared.slot
    exact hother (fun _ _ _ h => by cases h) fun i hd => hd.congr h2 h4 rfl
  | requested timestampMs eq result hasPrevious storageReady free screen slot buffer =>
    subst eq
    exact hother (fun _ _ _ h => by cases h) fun i hd => hd.of_other (by simp [slot]) rfl

theorem Watched.frame (h : Watched b s) {e : FrameEvent} {v : FrameView}
    (hs : e.run s.frameView = some v) :
    Watched b { s with shared.screen := v.screen, frame := v.frame } :=
  h.quiet (fun hc => (FrameEvent.run_scene hs).symm.trans hc) (fun _ hd => ⟨hd, rfl⟩)
    fun _ hu => ⟨hu, rfl⟩

theorem FrameEvent.acts_ledger (e : FrameEvent) (v : FrameView) :
    ledger (l ++ e.acts v) = ledger l := by
  rw [ledger_append]
  unfold FrameEvent.acts
  split <;> rfl

theorem Watched.owner (h : Watched b s) (hs : OwnerKeeps s s') : Watched b s' := by
  have hpending : s'.shared.slot.photoPending = s.shared.slot.photoPending := by rw [hs.slot]
  have hcopy : s'.shared.slot.copy = s.shared.slot.copy := by rw [hs.slot]; rfl
  refine h.quiet (fun hc => hs.scene ▸ hc) (fun i hd => ⟨?_, by rw [hs.store]⟩) fun _ hu => ?_
  · rcases hs.pc with hpc | ⟨-, hpc⟩
    · exact hd.congr hpending hcopy hpc
    · rcases hd with ⟨hp, hj, hi⟩ | ⟨job, hj | hj, -⟩
      · exact .inl ⟨hpending ▸ hp, job_of_copy hcopy ▸ hj,
          (congrArg Job.galleryIndex hcopy).symm.trans hi⟩
      · rw [hpc] at hj
        cases hj
      · rw [hpc] at hj
        cases hj
  · refine ⟨?_, by rw [hs.store]⟩
    rcases hs.pc with hpc | ⟨hpc, -⟩
    · unfold Unpublished
      rwa [hpc]
    · obtain ⟨job, result, hj | hj, -⟩ := hu <;> rw [hpc] at hj <;> cases hj

/-- Only the return of a deletion is noted. -/
theorem PhotoEvent.acts_note (e : PhotoEvent) (v v' : PhotoView)
    (hn : ∀ job, v.photo.pc = .calling job → job.job ≠ .delete) :
    (e.acts v v').foldl Ledger.note b = b := by
  unfold PhotoEvent.acts
  split
  · rfl
  · split <;> rfl
  · rename_i job _ _ hpc _
    split
    · rfl
    · rfl
    · rename_i hjob
      exact absurd hjob (hn job hpc)
    · rfl
  · rfl

/-- A posted deletion stays, while the photo thread works on none. -/
theorem Deleting.posted {galleryIndex : Int} (h : Deleting s' galleryIndex)
    (hpc : s'.photo.pc.job = none)
    (hpending : s'.shared.slot.photoPending = s.shared.slot.photoPending)
    (hcopy : s'.shared.slot.copy = s.shared.slot.copy) : Deleting s galleryIndex := by
  rcases h with ⟨hp, hj, hi⟩ | ⟨job, hj | hj, -⟩
  · exact .inl ⟨hpending ▸ hp, job_of_copy hcopy ▸ hj,
      (congrArg Job.galleryIndex hcopy).symm.trans hi⟩
  · rw [hj] at hpc
    cases hpc
  · rw [hj] at hpc
    cases hpc

/-- Nothing is being deleted. -/
theorem not_deleting {galleryIndex : Int} (hpc : s.photo.pc.job = none ∨
    ∃ job result, s.photo.pc = .returned job result)
    (hpending : s.shared.slot.photoPending = false) : ¬ Deleting s galleryIndex := by
  rintro (⟨hp, -⟩ | ⟨job, hj, -⟩)
  · rw [hpending] at hp
    cases hp
  · rcases hpc with hpc | ⟨job', result, hpc⟩
    · rcases hj with hj | hj <;> rw [hj] at hpc <;> cases hpc
    · rcases hj with hj | hj <;> rw [hj] at hpc <;> cases hpc

/-- A section of the photo thread that ends no deletion and publishes none. -/
theorem Watched.works (h : Watched b s) (hpc : ¬ Unpublished s)
    (hscene : s'.shared.screen.scene = s.shared.screen.scene)
    (hasked : ∀ galleryIndex, Deleting s' galleryIndex →
      Deleting s galleryIndex ∧ s'.photo.store.entries = s.photo.store.entries) : Watched b s' :=
  h.quiet (fun hs => hscene ▸ hs) hasked fun _ hu => absurd hu hpc

theorem not_unpublished (hpc : ∀ job result,
    s.photo.pc ≠ .returned job result ∧ s.photo.pc ≠ .handedBack job result) : ¬ Unpublished s := by
  rintro ⟨job, result, hj | hj, -⟩
  · exact (hpc job result).1 hj
  · exact (hpc job result).2 hj

/-- The call for a deletion. -/
theorem callStore_delete {job : Job} {work : Work} {buffer : Frame} {store : PhotoStore}
    {w : CardWorld} {r : JobResult × Frame × PhotoStore × CardWorld} (hjob : job.job = .delete)
    (h : callStore job work buffer store w = some r) :
    r.2.2.1.entries = store.entries ∨
      ∃ photo, (⟨store.entries, job.galleryIndex⟩ : Opening).photo = some photo ∧
        RemovesExactly photo store.entries r.2.2.1.entries := by
  unfold callStore at h
  rw [hjob] at h
  cases work with
  | delete plan =>
    cases h
    exact deletePhoto_entries plan job.galleryIndex store w
  | save | load => cases h

/-- A section that the ledger does not see. -/
theorem PhotoEvent.acts_silent {e : PhotoEvent} {pc : PhotoLoop} (v : PhotoView)
    (hpc : s.photo.pc = pc) (hn : ∀ job, pc ≠ .calling job) :
    (e.acts s.photoView v).foldl Ledger.note b = b :=
  e.acts_note _ _ fun job hj => absurd (hpc.symm.trans hj) (hn job)

theorem Watched.opened (h : Watched b s) (hh : Handoff s) (plan : InitPlan) (readable : Bool)
    {status : StorageProbeStatus} (pc : s.photo.pc = .configured status) :
    Watched b { s with photo := openStore plan readable status s.photo } := by
  obtain ⟨state, settings, hopen⟩ := openStore_pc plan readable status s.photo
  have hpending := hh.not_posted (by rw [pc]; rfl)
  exact h.works (not_unpublished (by simp [pc])) rfl fun i hd =>
    absurd hd (not_deleting (.inl (by simp [hopen, PhotoLoop.job])) hpending)

theorem Watched.take (h : Watched b s) (pc : s.photo.pc = .waiting)
    (pending : s.shared.slot.photoPending = true) :
    Watched b { s with
      shared.slot.photoPending := false
      shared.slot.photoInUse := true
      photo.pc := .taken s.shared.slot.copy } := by
  refine h.works (not_unpublished (by simp [pc])) rfl fun i hd => ⟨?_, rfl⟩
  rcases hd with ⟨hp, -⟩ | ⟨job, hj | hj, hjob, hi⟩
  · cases hp
  · cases hj
    exact .inl ⟨pending, hjob, hi⟩
  · cases hj

theorem Watched.call {job : Job} (h : Watched b s) (pc : s.photo.pc = .taken job) :
    Watched b { s with photo.pc := .calling job } := by
  refine h.works (not_unpublished (by simp [pc])) rfl fun i hd => ⟨?_, rfl⟩
  rcases hd with hd | ⟨job', hj | hj, hjob, hi⟩
  · exact .inl hd
  · cases hj
  · cases hj
    exact .inr ⟨job, .inl pc, hjob, hi⟩

/-- The call of a deletion returns, or that of another job. -/
theorem Watched.finish {job : Job} {work : Work}
    {r : JobResult × Frame × PhotoStore × CardWorld} {v : PhotoView} (h : Watched b s)
    (hh : Handoff s) (pc : s.photo.pc = .calling job)
    (call : callStore job work s.shared.photoFrame s.photo.store s.photo.world = some r)
    (eq : v = ⟨{ s.shared with photoFrame := r.2.1 },
      { pc := .returned job r.1, store := r.2.2.1, world := r.2.2.2 }⟩) :
    Watched (((PhotoEvent.finish work).acts s.photoView v).foldl Ledger.note b)
      { s with shared := v.shared, photo := v.photo } := by
  have hpending := hh.not_pending (by rw [pc]; rfl)
  by_cases hjob : job.job = .delete
  · subst eq
    simp only [PhotoEvent.acts, DisplayProbeWorker.photoView, pc, hjob, List.foldl_cons,
      List.foldl_nil]
    refine h.returns pc hjob ⟨r.1, ?_⟩ ?_ ?_ ?_ (callStore_delete hjob call) r.1.ok
    · rfl
    · rfl
    · exact hpending
    · rfl
  · have hnote := PhotoEvent.acts_note (b := b) (.finish work) s.photoView v fun job' hj => by
      obtain rfl : job = job' := PhotoLoop.calling.inj (pc.symm.trans hj)
      exact hjob
    rw [hnote]
    subst eq
    exact h.works (not_unpublished (by simp [pc])) rfl fun i hd =>
      absurd hd (not_deleting (.inr ⟨job, r.1, rfl⟩) hpending)

theorem Watched.handBack {job : Job} {result : JobResult} (h : Watched b s) (hh : Handoff s)
    (pc : s.photo.pc = .returned job result) :
    Watched b { s with
      shared.slot.photoInUse := false
      shared.slot.photoJob := .none
      photo.pc := .handedBack job result } := by
  have hpending := hh.not_pending (by rw [pc]; rfl)
  refine h.quiet id (fun i hd => absurd hd (not_deleting (.inl rfl) hpending)) fun _ hu =>
    ⟨?_, rfl⟩
  obtain ⟨job', result', hj | hj, hjob⟩ := hu <;> rw [pc] at hj <;> cases hj
  exact ⟨job, result, .inr rfl, hjob⟩

/-- A publication closes the dialog behind a deletion, and deletes nothing. -/
theorem Watched.publish {job : Job} {result : JobResult} (h : Watched b s)
    (pc : s.photo.pc = .handedBack job result) (now freeBytes : Int) :
    Watched b { s with
      shared := Worker.publish job result now freeBytes s.photo.store s.shared
      photo.pc := .waiting } := by
  have hscene := publish_scene job result now freeBytes s.photo.store s.shared
  have hslot := (publish_slot job result now freeBytes s.photo.store s.shared).1
  generalize Worker.publish job result now freeBytes s.photo.store s.shared = sh at hscene hslot ⊢
  have hstill : ∀ galleryIndex, Deleting
      { s with shared := sh, photo.pc := .waiting } galleryIndex →
      Deleting s galleryIndex := fun i hd => by
    rcases hslot with hslot | ⟨-, hposted⟩
    · exact hd.posted rfl (by rw [hslot]) (by rw [hslot])
    · rcases hd with ⟨-, hj, -⟩ | ⟨job', hj | hj, -⟩
      · rw [hposted.slot] at hj
        cases hj
      · cases hj
      · cases hj
  by_cases hjob : job.job = .delete
  · rw [if_pos hjob] at hscene
    have hne : sh.screen.scene ≠ .deleteConfirm := by rw [hscene]; decide
    exact h.quiet (fun hs => absurd hs hne) (fun i hd => ⟨hstill i hd, rfl⟩) fun hs _ =>
      absurd hs hne
  · rw [if_neg hjob] at hscene
    refine h.works (fun hu => ?_) hscene fun i hd => ⟨hstill i hd, rfl⟩
    obtain ⟨job', result', hj | hj, hjob'⟩ := hu <;> rw [pc] at hj <;> cases hj
    exact hjob hjob'

theorem Watched.photo (h : Watched b s) (hh : Handoff s) {e : PhotoEvent} {v : PhotoView}
    (hs : e.run s.photoView = some v) :
    Watched ((e.acts s.photoView v).foldl Ledger.note b)
      { s with shared := v.shared, photo := v.photo } := by
  have hrun : e.Step s.shared s.photo v := PhotoEvent.run_step hs
  cases hrun with
  | exit event pc running eq =>
    have hpc : (∀ job, s.photo.pc ≠ .calling job) ∧ ¬ Unpublished s := by
      rcases pc with pc | ⟨pc, -⟩ <;>
        exact ⟨by simp [pc], not_unpublished (by simp [pc])⟩
    rw [PhotoEvent.acts_silent v rfl hpc.1]
    subst eq
    exact h.works hpc.2 rfl fun i hd => ⟨hd.posted rfl rfl rfl, rfl⟩
  | configure event pc eq =>
    rw [PhotoEvent.acts_silent v pc (by simp)]
    subst eq
    exact h.works (not_unpublished (by simp [pc])) rfl fun i hd => ⟨hd.posted rfl rfl rfl, rfl⟩
  | opened plan readable status event pc eq =>
    rw [PhotoEvent.acts_silent v pc (by simp)]
    subst eq
    exact h.opened hh plan readable pc
  | install freeBytes state settings event pc eq =>
    rw [PhotoEvent.acts_silent v pc (by simp)]
    subst eq
    exact h.works (not_unpublished (by simp [pc])) (installStore_scene ..) fun i hd =>
      ⟨hd.posted rfl rfl rfl, rfl⟩
  | take event pc pending eq =>
    rw [PhotoEvent.acts_silent v pc (by simp)]
    subst eq
    exact h.take pc pending
  | call job event pc eq =>
    rw [PhotoEvent.acts_silent v pc (by simp)]
    subst eq
    exact h.call pc
  | finish job work r event pc call eq =>
    subst event
    exact h.finish hh pc call eq
  | handBack job result event pc eq =>
    rw [PhotoEvent.acts_silent v pc (by simp)]
    subst eq
    exact h.handBack hh pc
  | publish job result now freeBytes event pc eq =>
    rw [PhotoEvent.acts_silent v pc (by simp)]
    subst eq
    exact h.publish pc now freeBytes

theorem Watched.step (h : Watched (ledger l) s) (hh : Handoff s) {e : Event}
    (hg : undisturbedDialog l s e) (hs : worker.step s e = some (s', o)) :
    Watched (ledger (l ++ o)) s' := by
  cases e with
  | ui call =>
    cases hs
    exact h.ui hh call hg
  | frame e =>
    obtain ⟨v, hv, hs⟩ := Option.map_eq_some_iff.1 hs
    cases hs
    rw [FrameEvent.acts_ledger]
    exact h.frame hv
  | photo e =>
    obtain ⟨v, hv, hs⟩ := Option.map_eq_some_iff.1 hs
    cases hs
    rw [ledger_append]
    exact h.photo hh hv
  | owner created plan =>
    obtain ⟨v, hv, hs⟩ := Option.map_eq_some_iff.1 hs
    cases hs
    rw [List.append_nil]
    exact h.owner (hh.owner_keeps hv)

/-! ## Runs -/

variable {s₀ : DisplayProbeWorker} {es : List Event}

theorem fresh_watched (h : Fresh s) : Watched (ledger []) s := by
  obtain ⟨now, root, model, version, status, memory, card, rfl⟩ := h
  exact
    { safe := ⟨fun _ hd => (by cases hd), .nil⟩
      dialog := fun hs => by cases hs
      known := fun _ hd => by cases hd
      asked := fun i hd => absurd hd (not_deleting (.inl rfl) rfl)
      spent := fun _ hd => by cases hd }

/-- **An undisturbed dialog deletes the photo it opened over, and deletes once.** -/
theorem undisturbed_deletions (h0 : Fresh s₀) (h : Reach worker undisturbedDialog s₀ es l s) :
    SafeDeletions (ledger l) := by
  have hw : Handoff s ∧ Watched (ledger l) s :=
    h.inv (I := fun l s => Handoff s ∧ Watched (ledger l) s)
      ⟨fresh_handoff h0, fresh_watched h0⟩ fun _ _ _ _ _ hi hg hs =>
        ⟨hi.1.step hs, hi.2.step hi.1 hg hs⟩
  exact hw.2.safe

/-- The guard as a test of an event. -/
def undisturbedEvent (l : List Act) (s : DisplayProbeWorker) : Event → Bool
  | .ui (.key .confirm true _) =>
    s.shared.screen.scene != .deleteConfirm || (ledger l).openings.getLast? ==
      some ⟨s.photo.store.entries, s.shared.screen.gallery.galleryIndex⟩
  | _ => true

theorem undisturbedEvent_guard (l : List Act) (s : DisplayProbeWorker) (e : Event)
    (h : undisturbedEvent l s e = true) : undisturbedDialog l s e := by
  rintro timestampMs rfl hscene - - -
  simpa [undisturbedEvent, hscene] using h

/-- A photo is taken and the gallery opened, its thumbnail not read. -/
def galleryOpen : List Event :=
  List.flatten [Event.startUp, Event.newFrame 100 blackFrame, [Event.capture 61007],
    Event.work (.save samplePlan), Event.publish, [Event.press .gallery]]

/-- The photo is deleted. -/
def deletingSession : List Event :=
  List.flatten [galleryOpen, [Event.press .back, Event.press .confirm], Event.work (.delete {}),
    Event.publish]

theorem undisturbed_deletions_session :
    ∃ l s, Reach worker undisturbedDialog sampleWorker deletingSession l s ∧
      (ledger l).deletions.length = 1 ∧ SafeDeletions (ledger l) := by
  obtain ⟨l, s, h, hp⟩ := reach_of_execIf (M := worker) (g := undisturbedEvent)
    (s := sampleWorker) deletingSession (p := fun x => (ledger x.2).deletions.length == 1)
    undisturbedEvent_guard (by decide +kernel)
  exact ⟨l, s, h, by simpa using hp, undisturbed_deletions sample_fresh h⟩

/-- While the dialog is open another photo is taken and saved. -/
def disturbedSession : List Event :=
  List.flatten [galleryOpen, [Event.press .back, Event.capture 62008],
    Event.work (.save samplePlan), Event.publish, [Event.press .confirm], Event.work (.delete {})]

/-- The photo that the dialog opened over is kept, the new one is deleted. -/
theorem disturbed_deletion :
    ∃ l s, Run worker sampleWorker disturbedSession l s ∧ ¬ SafeDeletions (ledger l) := by
  obtain ⟨l, s, h, hp⟩ := run_of_exec (M := worker) (s := sampleWorker) disturbedSession
    (p := fun x => (ledger x.2).deletions.any fun d => (ledger x.2).openings[d.dialog]?.any
      fun opening => opening.photo.any fun photo => !decide (RemovesExactly photo d.before d.after))
    (by decide +kernel)
  refine ⟨l, s, h, fun hsafe => ?_⟩
  simp only [List.any_eq_true, Option.any_eq_true, Bool.not_eq_true', decide_eq_false_iff_not] at hp
  obtain ⟨d, hd, opening, ho, photo, hphoto, hmiss⟩ := hp
  exact hmiss (hsafe.exact d hd opening ho photo hphoto)

end RetroLens.Worker
