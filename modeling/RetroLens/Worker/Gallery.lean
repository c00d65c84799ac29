import RetroLens.Store.Session
import RetroLens.Worker.Jobs

/-!
# What the gallery shows

The thumbnail on the screen is a copy of one on the card, made when a save or a
load is published. `ShowsRight` says that it is that of the selected photo. It
holds in runs in which a load is published for the place that is still
selected, no shutter press overwrites a photo buffer whose result is not
published, and no save touches the files of a photo that the gallery shows.
-/

namespace RetroLens.Worker

open Text Disk RetroLens.Core Store Runs

/-- The gallery shows the stored photo at the selected place. -/
structure Shown (s : DisplayProbeWorker) : Prop where
  loaded : s.shared.screen.gallery.galleryLoadedIndex = s.shared.screen.gallery.galleryIndex
  thumbnail : loadThumbnail s.shared.screen.gallery.galleryIndex s.photo.store s.photo.world =
    some s.shared.screen.gallery.galleryThumbnail
  preset : (getPhoto s.shared.screen.gallery.galleryIndex s.photo.store).map (·.presetIndex) =
    some s.shared.screen.gallery.galleryPreset

/-- A job is finished, and its result not published. -/
def PhotoLoop.finished : PhotoLoop → Bool
  | returned .. | handedBack .. => true
  | _ => false

/-- The gallery does not show a wrong photo. -/
def ShowsRight (s : DisplayProbeWorker) : Prop :=
  s.photo.pc.finished = false → s.shared.screen.gallery.galleryHasThumbnail = true → Shown s

/-- The place and the preset that the gallery shows when the job's success is published. -/
def Job.shows (job : Job) (result : JobResult) : Option (Int × Int) :=
  match job.job with
  | .save => some (0, job.presetIndex)
  | .load => some (job.galleryIndex, result.presetIndex)
  | _ => none

/-- A load is published for the selected place; the photo buffer is not overwritten before it is
copied; a save generates neither the name of the photo that it drives out nor, when it fails, that
of the photo that is shown. -/
def steadyGallery : Guard DisplayProbeWorker Event Act := fun _ s e =>
  match e, s.photo.pc with
  | .photo (.publish ..), .handedBack job result =>
    job.job = .load → result.ok = true → s.shared.screen.gallery.galleryIndex = job.galleryIndex
  | .ui (.requestPhoto _), .handedBack job result =>
    s.shared.screen.intake.hasPrevious = true → s.shared.screen.storageReady = true →
      s.shared.slot.free = true → result.ok = true → (job.shows result).isSome = true →
      applyCaptureTexture s.frame.filtered
        (adjustedPresetLocked s.shared.screen.style.selectedStyle s.shared.screen) =
          s.shared.photoFrame
  | .photo (.finish (.save plan)), .calling job =>
    let photo := job.photo s.shared.photoFrame
    job.job = .save → encodePhoto plan photo encodedCapacity s.photo.store ≠ none →
      if plan.writes then
        ∀ old, s.photo.store.entries.evicted = some old → old.filename ≠ photo.filename plan.wall
      else
        s.shared.screen.gallery.galleryHasThumbnail = true → ∀ entry,
          getPhoto s.shared.screen.gallery.galleryIndex s.photo.store = some entry →
            entry.filename ≠ photo.filename plan.wall
  | _, _ => True

/-! ## The invariant -/

/-- The publication of the result replaces what is shown. -/
def Job.replaces (job : Job) (result : JobResult) : Bool :=
  match job.job with
  | .save => result.ok
  | .load | .delete => true
  | .none => false

def PhotoLoop.replacing : PhotoLoop → Bool
  | returned job result | handedBack job result => job.replaces result
  | _ => false

def PhotoLoop.result : PhotoLoop → Option (Job × JobResult)
  | returned job result | handedBack job result => some (job, result)
  | _ => none

/-- What the gallery shows, and what it will show next. -/
structure Viewed (s : DisplayProbeWorker) : Prop where
  named : Named s.photo.store
  unopened : s.photo.pc.opening = true → s.shared.screen.gallery.galleryHasThumbnail = false
  shown : s.photo.pc.replacing = false →
    s.shared.screen.gallery.galleryHasThumbnail = true → Shown s
  result : ∀ job result, s.photo.pc.result = some (job, result) → result.ok = true →
    ∀ place preset, job.shows result = some (place, preset) →
      loadThumbnail place s.photo.store s.photo.world = some s.shared.photoFrame ∧
        (getPhoto place s.photo.store).map (·.presetIndex) = some preset

variable {s s' : DisplayProbeWorker} {l o : List Act}

theorem Shown.congr (h : Shown s)
    (hgallery : s'.shared.screen.gallery = s.shared.screen.gallery)
    (hentries : s'.photo.store.entries = s.photo.store.entries)
    (hthumbnail : loadThumbnail s.shared.screen.gallery.galleryIndex s'.photo.store
        s'.photo.world =
      loadThumbnail s.shared.screen.gallery.galleryIndex s.photo.store s.photo.world) :
    Shown s' where
  loaded := by rw [hgallery, h.loaded]
  thumbnail := by rw [hgallery, hthumbnail, h.thumbnail]
  preset := by rw [hgallery, getPhoto_congr hentries, h.preset]

theorem replacing_of_not_finished {pc : PhotoLoop} (h : pc.finished = false) :
    pc.replacing = false ∧ pc.result = none := by
  cases pc <;> first | exact ⟨rfl, rfl⟩ | cases h

theorem Viewed.right (h : Viewed s) : ShowsRight s := fun hpc =>
  h.shown (replacing_of_not_finished hpc).1

/-- A step that leaves the photo thread where it is, and the store as it is. -/
theorem Viewed.keep (h : Viewed s) (hphoto : s'.photo = s.photo)
    (hgallery : s'.shared.screen.gallery.galleryHasThumbnail = true →
      s.shared.screen.gallery.galleryHasThumbnail = true ∧ (s.photo.pc.replacing = false →
        s'.shared.screen.gallery = s.shared.screen.gallery))
    (hbuffer : ∀ job result, s.photo.pc.result = some (job, result) → result.ok = true →
      (job.shows result).isSome = true → s'.shared.photoFrame = s.shared.photoFrame) :
    Viewed s' where
  named := hphoto ▸ h.named
  unopened := fun hpc => by
    rw [hphoto] at hpc
    by_contra hs
    exact absurd ((h.unopened hpc).symm.trans (hgallery (by simpa using hs)).1) (by decide)
  shown := fun hpc hs => by
    rw [hphoto] at hpc
    obtain ⟨hs', hg⟩ := hgallery hs
    exact (h.shown hpc hs').congr (hg hpc) (by rw [hphoto]) (by rw [hphoto])
  result := fun job result hpc hok place preset hplace => by
    rw [hphoto] at hpc ⊢
    rw [hbuffer job result hpc hok (by rw [hplace]; rfl)]
    exact h.result job result hpc hok place preset hplace

/-- A section of the photo thread that has no result before or after it. -/
theorem Viewed.works (h : Viewed s) (hpc : s.photo.pc.finished = false)
    (hpc' : s'.photo.pc.finished = false) (hstore : s'.photo.store = s.photo.store)
    (hworld : s'.photo.world = s.photo.world)
    (hgallery : s'.shared.screen.gallery = s.shared.screen.gallery)
    (hopening : s'.photo.pc.opening = true → s.photo.pc.opening = true) : Viewed s' where
  named := hstore ▸ h.named
  unopened := fun ho => by rw [hgallery, h.unopened (hopening ho)]
  shown := fun _ hs => by
    rw [hgallery] at hs
    exact (h.right hpc hs).congr hgallery (by rw [hstore]) (by rw [hstore, hworld])
  result := fun job result hr => by
    rw [(replacing_of_not_finished hpc').2] at hr
    cases hr

/-! ## The steps -/

theorem same_gallery (hg : s'.shared.screen.gallery = s.shared.screen.gallery)
    (hs : s'.shared.screen.gallery.galleryHasThumbnail = true) :
    s.shared.screen.gallery.galleryHasThumbnail = true ∧ (s.photo.pc.replacing = false →
      s'.shared.screen.gallery = s.shared.screen.gallery) := ⟨hg ▸ hs, fun _ => hg⟩

theorem Viewed.press (h : Viewed s) {keyValue : PhotoUiKey} {down : Bool} {sh : Shared}
    (hk : KeySpec keyValue down s.shared sh) : Viewed { s with shared := sh } := by
  have hbuffer : ∀ job result, s.photo.pc.result = some (job, result) → result.ok = true →
      (job.shows result).isSome = true → sh.photoFrame = s.shared.photoFrame :=
    fun _ _ _ _ _ => hk.buffer
  cases hk.step with
  | aside slot screen => exact h.keep rfl (same_gallery screen.gallery) hbuffer
  | browsed slot screen hidden =>
    refine h.keep rfl (fun hs => ?_) hbuffer
    exact absurd (hidden.symm.trans hs) (by decide)
  | reopened slot screen shown loaded gallery =>
    refine h.keep rfl (fun _ => ⟨shown, fun hpc => ?_⟩) hbuffer
    have hindex := (h.shown hpc shown).loaded
    rw [loaded] at hindex
    rw [gallery, hindex]
  | confirmed key pressed scene posted screen =>
    exact h.keep rfl (same_gallery screen.gallery) hbuffer

theorem result_handedBack (hh : Handoff s) (hfree : s.shared.slot.free = true) {job : Job}
    {result : JobResult} (h : s.photo.pc.result = some (job, result)) :
    s.photo.pc = .handedBack job result := by
  have hjob := (boxOf_free hh hfree).2
  cases hpc : s.photo.pc <;> rw [hpc] at h hjob <;> cases h
  · cases hjob
  · rfl

theorem Viewed.ui (h : Viewed s) (hh : Handoff s) (call : UiCall)
    (hg : steadyGallery l s (.ui call)) :
    Viewed { s with shared := call.run s.frame.filtered s.shared } := by
  cases UiCall.run_step s.frame.filtered call s.shared with
  | key keyValue down timestampMs eq spec => exact h.press spec
  | screen slot buffer screen =>
    exact h.keep rfl (same_gallery screen.gallery) fun _ _ _ _ _ => buffer
  | configured status eq shared =>
    rw [shared]
    exact h.keep rfl (same_gallery rfl) fun _ _ _ _ _ => rfl
  | requested timestampMs eq result hasPrevious storageReady free screen slot buffer =>
    subst eq
    refine h.keep rfl (same_gallery screen.gallery) fun job result hr hok hplace => ?_
    have hpc := result_handedBack hh free hr
    simp only [steadyGallery, hpc] at hg
    exact buffer.trans (hg hasPrevious storageReady free hok hplace)

theorem Viewed.frame (h : Viewed s) {e : FrameEvent} {v : FrameView}
    (hs : e.run s.frameView = some v) :
    Viewed { s with shared.screen := v.screen, frame := v.frame } :=
  h.keep rfl (same_gallery (FrameEvent.run_aside hs).gallery) fun _ _ _ _ _ => rfl

theorem saveSettings_thumbnail (plan : FilePlan) (settings : RuntimeSettings) (w : CardWorld)
    (n : Bytes) : (saveSettings plan settings w).2.card (thumbnailPath n) =
      w.card (thumbnailPath n) := by
  have hne : ∀ p : Path, p.dir = .config → thumbnailPath n ≠ p := fun p hp he => by
    rw [← he] at hp
    cases hp
  obtain ⟨-, -, hdone, hfail⟩ := replaceText_spec plan settingsPath (settingsText settings) w
  unfold saveSettings
  cases hp : plan.fopen.ok && plan.replaces with
  | true => exact (hdone hp).card_of (hne _ rfl) (hne _ rfl)
  | false => exact (hfail hp).1.card _ fun he => hne _ rfl he

theorem Viewed.owner (h : Viewed s) (hs : OwnerKeeps s s') : Viewed s' := by
  have hthumbnail : ∀ place, loadThumbnail place s'.photo.store s'.photo.world =
      loadThumbnail place s.photo.store s.photo.world := fun place => by
    refine loadThumbnail_congr (by rw [hs.store]) fun e _ => ?_
    rcases hs.world with hw | ⟨plan, settings, hw⟩
    · rw [hw]
    · rw [hw, saveSettings_thumbnail]
  have hpc : s'.photo.pc.opening = s.photo.pc.opening ∧
      s'.photo.pc.replacing = s.photo.pc.replacing ∧ s'.photo.pc.result = s.photo.pc.result := by
    rcases hs.pc with hpc | ⟨hpc, hpc'⟩
    · rw [hpc]
      exact ⟨rfl, rfl, rfl⟩
    · rw [hpc, hpc']
      exact ⟨rfl, rfl, rfl⟩
  exact
    { named := hs.store ▸ h.named
      unopened := fun ho => by rw [hs.gallery, h.unopened (hpc.1 ▸ ho)]
      shown := fun hr hshown => by
        rw [hs.gallery] at hshown
        exact (h.shown (hpc.2.1 ▸ hr) hshown).congr hs.gallery (by rw [hs.store]) (hthumbnail _)
      result := fun job result hr hok place preset hplace => by
        rw [hthumbnail, hs.store, hs.buffer]
        exact h.result job result (hpc.2.2 ▸ hr) hok place preset hplace }

/-! ## The photo thread -/

theorem openStore_named (plan : InitPlan) (readable : Bool) (status : StorageProbeStatus)
    {p : PhotoThread} (hs : Named p.store) : Named (openStore plan readable status p).store := by
  cases status with
  | ready => exact initializeStore_named hs
  | _ => exact hs

theorem installStore_gallery (state : PhotoStorageState) (settings : Option RuntimeSettings)
    (freeBytes : Int) (store : PhotoStore) (c : Screen) :
    (installStore state settings freeBytes store c).gallery =
      { c.gallery with galleryPhotoCount := photoCount store } := by
  cases settings <;> rfl

/-- What a store call leaves for the publication of its result. -/
structure Called (job : Job) (sh : Shared) (p : PhotoThread)
    (r : JobResult × Frame × PhotoStore × CardWorld) : Prop where
  named : Named r.2.2.1
  kept : job.replaces r.1 = false → r.2.2.1.entries = p.store.entries ∧
    (sh.screen.gallery.galleryHasThumbnail = true →
      loadThumbnail sh.screen.gallery.galleryIndex r.2.2.1 r.2.2.2 =
        loadThumbnail sh.screen.gallery.galleryIndex p.store p.world)
  result : r.1.ok = true → ∀ place preset, job.shows r.1 = some (place, preset) →
    loadThumbnail place r.2.2.1 r.2.2.2 = some r.2.1 ∧
      (getPhoto place r.2.2.1).map (·.presetIndex) = some preset

theorem Called.save {job : Job} {plan : SavePlan} {sh : Shared} {p : PhotoThread}
    {r : JobResult × Frame × PhotoStore × CardWorld} (hjob : job.job = .save)
    (hs : Named p.store)
    (hg : encodePhoto plan (job.photo sh.photoFrame) encodedCapacity p.store ≠ none →
      if plan.writes then ∀ old, p.store.entries.evicted = some old →
        old.filename ≠ (job.photo sh.photoFrame).filename plan.wall
      else sh.screen.gallery.galleryHasThumbnail = true → ∀ entry,
        getPhoto sh.screen.gallery.galleryIndex p.store = some entry →
          entry.filename ≠ (job.photo sh.photoFrame).filename plan.wall)
    (h : callStore job (.save plan) sh.photoFrame p.store p.world = some r) :
    Called job sh p r := by
  simp only [callStore, hjob] at h
  cases h
  have hnamed := savePhoto_named plan (job.photo sh.photoFrame) encodedCapacity p.world hs
  by_cases hw : plan.writes = true ∧
      encodePhoto plan (job.photo sh.photoFrame) encodedCapacity p.store ≠ none
  · obtain ⟨hok, hentries, hthumbnail⟩ := saved_thumbnail plan (job.photo sh.photoFrame)
      encodedCapacity p.world hs hw.1 hw.2 (by simpa [hw.1] using hg hw.2)
    refine ⟨hnamed, fun hr => ?_, fun _ place preset hplace => ?_⟩
    · simp only [Job.replaces, hjob, hok] at hr
      cases hr
    · simp only [Job.shows, hjob] at hplace
      cases hplace
      refine ⟨hthumbnail, ?_⟩
      rw [getPhoto_newest hentries]
      rfl
  · have hfail : plan.writes = false ∨
        encodePhoto plan (job.photo sh.photoFrame) encodedCapacity p.store = none := by
      rw [not_and_or, not_not] at hw
      exact hw.imp_left (by simp)
    obtain ⟨hnone, hentries⟩ := unsaved_entries plan (job.photo sh.photoFrame) encodedCapacity
      p.store p.world hfail
    refine ⟨hnamed, fun _ => ⟨hentries, fun hshown => ?_⟩, fun hok => ?_⟩
    · refine unsaved_thumbnail plan (job.photo sh.photoFrame) encodedCapacity p.world hs hfail
        fun henc => ?_
      have hplan : plan.writes = false := hfail.resolve_right henc
      have := hg henc
      rw [hplan, if_neg (by decide)] at this
      exact this hshown
    · simp only [hnone] at hok
      cases hok

theorem Called.other {job : Job} {work : Work} {sh : Shared} {p : PhotoThread}
    {r : JobResult × Frame × PhotoStore × CardWorld} (hjob : job.job ≠ .save)
    (hs : Named p.store) (h : callStore job work sh.photoFrame p.store p.world = some r) :
    Called job sh p r := by
  unfold callStore at h
  split at h
  · contradiction
  · rename_i hload
    split at h <;> cases h
    · rename_i thumbnail entry hthumbnail hentry
      refine ⟨hs, fun _ => ⟨rfl, fun _ => rfl⟩, fun _ place preset hplace => ?_⟩
      simp only [Job.shows, hload] at hplace
      cases hplace
      rw [hentry]
      refine ⟨?_, rfl⟩
      split at hthumbnail
      · exact hthumbnail
      · cases hthumbnail
    · exact ⟨hs, fun _ => ⟨rfl, fun _ => rfl⟩, fun hok => by cases hok⟩
    · exact ⟨hs, fun _ => ⟨rfl, fun _ => rfl⟩, fun hok => by cases hok⟩
  · rename_i hdelete
    cases h
    refine ⟨deletePhoto_named _ _ _ hs, fun hr => ?_, fun _ place preset hplace => ?_⟩
    · simp only [Job.replaces, hdelete] at hr
      cases hr
    · simp only [Job.shows, hdelete] at hplace
      cases hplace
  · cases h
    exact ⟨hs, fun _ => ⟨rfl, fun _ => rfl⟩, fun hok => by cases hok⟩
  · cases h

theorem queueGalleryLoadLocked_gallery (sh : Shared) :
    (queueGalleryLoadLocked sh).2.screen.gallery = sh.screen.gallery := by
  rcases queueGalleryLocked_cases .load .loading sh with h | ⟨-, -, ha, -⟩
  · rw [queueGalleryLoadLocked, h]
  · exact ha.gallery

/-- A publication leaves the gallery, or shows the result of its job, or nothing. -/
theorem publish_gallery (job : Job) (result : JobResult) (now freeBytes : Int) (store : PhotoStore)
    (sh : Shared) :
    let g := (publish job result now freeBytes store sh).screen.gallery
    (job.replaces result = false → g = sh.screen.gallery) ∧
      (job.replaces result = true → g.galleryHasThumbnail = true → result.ok = true ∧
        job.shows result = some (g.galleryLoadedIndex, g.galleryPreset) ∧
        g.galleryThumbnail = sh.photoFrame ∧
        g.galleryIndex = if job.job = .save then 0 else sh.screen.gallery.galleryIndex) := by
  unfold publish
  dsimp only
  split <;> rename_i hjob <;> simp only [Job.replaces, Job.shows, hjob, mirrorPhoto]
  · unfold publishSave
    dsimp only
    split
    · rename_i hok
      exact ⟨fun h => absurd (hok.symm.trans h) (by decide), fun _ _ => ⟨hok, rfl, rfl, rfl⟩⟩
    · rename_i hok
      exact ⟨fun _ => rfl, fun h => absurd h hok⟩
  · refine ⟨fun h => absurd h (by decide), fun _ hs => ?_⟩
    unfold publishLoad at hs ⊢
    dsimp only at hs ⊢
    split at hs
    · rename_i hok
      rw [if_pos hok]
      exact ⟨hok, rfl, rfl, rfl⟩
    · cases hs
  · refine ⟨fun h => absurd h (by decide), fun _ hs => ?_⟩
    unfold publishDelete at hs
    dsimp only at hs
    split at hs
    · rw [queueGalleryLoadLocked_gallery] at hs
      cases hs
    · cases hs
  · exact ⟨fun _ => trivial, fun h => absurd h (by decide)⟩

/-- While nothing is shown, a section that hands over no result. -/
theorem Viewed.hidden (hnamed : Named s.photo.store)
    (hhidden : s.shared.screen.gallery.galleryHasThumbnail = false)
    (hresult : s.photo.pc.result = none) : Viewed s where
  named := hnamed
  unopened := fun _ => hhidden
  shown := fun _ hshown => absurd (hhidden.symm.trans hshown) (by decide)
  result := fun job result hr => by
    rw [hresult] at hr
    cases hr

theorem Viewed.opened (h : Viewed s) (plan : InitPlan) (readable : Bool)
    {status : StorageProbeStatus} (pc : s.photo.pc = .configured status) :
    Viewed { s with photo := openStore plan readable status s.photo } := by
  obtain ⟨state, settings, hopen⟩ := openStore_pc plan readable status s.photo
  refine .hidden (openStore_named plan readable status h.named) (h.unopened (by rw [pc]; rfl)) ?_
  simp only [hopen]
  rfl

theorem Viewed.install (h : Viewed s) {state : PhotoStorageState}
    {settings : Option RuntimeSettings} (pc : s.photo.pc = .initialized state settings)
    (freeBytes : Int) :
    Viewed { s with
      shared.screen := installStore state settings freeBytes s.photo.store s.shared.screen
      photo.pc := .waiting } := by
  refine .hidden h.named ?_ rfl
  exact (congrArg Gallery.galleryHasThumbnail (installStore_gallery ..)).trans
    (h.unopened (by rw [pc]; rfl))

/-- What a call hands over, it hands over for the place it was made for. -/
theorem Viewed.finish (h : Viewed s) {job : Job} {work : Work}
    {r : JobResult × Frame × PhotoStore × CardWorld}
    (hg : steadyGallery l s (.photo (.finish work))) (pc : s.photo.pc = .calling job)
    (call : callStore job work s.shared.photoFrame s.photo.store s.photo.world = some r) :
    Viewed { s with
      shared.photoFrame := r.2.1
      photo := { pc := .returned job r.1, store := r.2.2.1, world := r.2.2.2 } } := by
  have hc : Called job s.shared s.photo r := by
    by_cases hjob : job.job = .save
    · cases work with
      | save plan =>
        simp only [steadyGallery, pc] at hg
        exact .save hjob h.named (hg hjob) call
      | load | delete => simp only [callStore, hjob] at call; cases call
    · exact .other hjob h.named call
  exact
    { named := hc.named
      unopened := fun ho => by cases ho
      shown := fun hr hshown => by
        obtain ⟨hentries, hthumbnail⟩ := hc.kept hr
        exact (h.shown (by rw [pc]; rfl) hshown).congr rfl hentries (hthumbnail hshown)
      result := fun job' result hr hok => by
        cases hr
        exact hc.result hok }

theorem Viewed.handBack (h : Viewed s) {job : Job} {result : JobResult}
    (pc : s.photo.pc = .returned job result) :
    Viewed { s with
      shared.slot.photoInUse := false
      shared.slot.photoJob := .none
      photo.pc := .handedBack job result } where
  named := h.named
  unopened := fun ho => by cases ho
  shown := fun hr hshown => (h.shown (by rw [pc]; exact hr) hshown).congr rfl rfl rfl
  result := fun job' result' hr hok => by
    cases hr
    exact h.result job result (by rw [pc]; rfl) hok

/-- The place a job shows is the one the gallery is then at, if it stood still for a load. -/
theorem Job.shows_place {job : Job} {result : JobResult} {galleryIndex : Int} {g : Gallery}
    (hok : result.ok = true)
    (hshows : job.shows result = some (g.galleryLoadedIndex, g.galleryPreset))
    (hindex : g.galleryIndex = if job.job = .save then 0 else galleryIndex)
    (hsteady : job.job = .load → result.ok = true → galleryIndex = job.galleryIndex) :
    g.galleryLoadedIndex = g.galleryIndex := by
  cases hjob : job.job with
  | save =>
    simp only [Job.shows, hjob, Option.some.injEq, Prod.mk.injEq] at hshows
    rw [← hshows.1, hindex, if_pos hjob]
  | load =>
    simp only [Job.shows, hjob, Option.some.injEq, Prod.mk.injEq] at hshows
    rw [← hshows.1, hindex, if_neg (by simp [hjob]), hsteady hjob hok]
  | delete | none =>
    simp only [Job.shows, hjob] at hshows
    cases hshows

/-- A publication shows what its job handed over. -/
theorem Viewed.publish (h : Viewed s) {job : Job} {result : JobResult} {now freeBytes : Int}
    (hg : steadyGallery l s (.photo (.publish now freeBytes)))
    (pc : s.photo.pc = .handedBack job result) :
    Viewed { s with
      shared := Worker.publish job result now freeBytes s.photo.store s.shared
      photo.pc := .waiting } := by
  obtain ⟨hkept, hnew⟩ := publish_gallery job result now freeBytes s.photo.store s.shared
  simp only [steadyGallery, pc] at hg
  generalize Worker.publish job result now freeBytes s.photo.store s.shared = sh at hkept hnew ⊢
  refine ⟨h.named, fun ho => (by cases ho), fun _ hshown => ?_, fun _ _ hr => (by cases hr)⟩
  cases hr : job.replaces result with
  | false =>
    have hgallery := hkept hr
    dsimp only at hshown
    rw [hgallery] at hshown
    exact (h.shown (by rw [pc]; exact hr) hshown).congr hgallery rfl rfl
  | true =>
    obtain ⟨hok, hshows, hframe, hindex⟩ := hnew hr hshown
    obtain ⟨hthumbnail, hpreset⟩ := h.result job result (by rw [pc]; rfl) hok _ _ hshows
    have hplace := Job.shows_place hok hshows hindex hg
    exact
      { loaded := hplace
        thumbnail := by
          rw [← hplace, hframe]
          exact hthumbnail
        preset := by
          rw [← hplace]
          exact hpreset }

theorem Viewed.photo (h : Viewed s) {e : PhotoEvent} {v : PhotoView}
    (hg : steadyGallery l s (.photo e)) (hs : e.run s.photoView = some v) :
    Viewed { s with shared := v.shared, photo := v.photo } := by
  have hrun : e.Step s.shared s.photo v := PhotoEvent.run_step hs
  cases hrun with
  | exit event pc running eq =>
    subst eq
    have hpc : s.photo.pc.finished = false := by
      rcases pc with pc | ⟨pc, -⟩ <;> rw [pc] <;> rfl
    exact h.works hpc rfl rfl rfl rfl fun ho => by cases ho
  | configure event pc eq =>
    subst eq
    exact h.works (by rw [pc]; rfl) rfl rfl rfl rfl fun _ => by rw [pc]; rfl
  | opened plan readable status event pc eq =>
    subst eq
    exact h.opened plan readable pc
  | install freeBytes state settings event pc eq =>
    subst eq
    exact h.install pc freeBytes
  | take event pc pending eq =>
    subst eq
    exact h.works (by rw [pc]; rfl) rfl rfl rfl rfl fun ho => by cases ho
  | call job event pc eq =>
    subst eq
    exact h.works (by rw [pc]; rfl) rfl rfl rfl rfl fun ho => by cases ho
  | finish job work r event pc call eq =>
    subst eq event
    exact h.finish hg pc call
  | handBack job result event pc eq =>
    subst eq
    exact h.handBack pc
  | publish job result now freeBytes event pc eq =>
    subst eq event
    exact h.publish hg pc

theorem Viewed.step (h : Viewed s) (hh : Handoff s) {e : Event} (hg : steadyGallery l s e)
    (hs : worker.step s e = some (s', o)) : Viewed s' := by
  cases e with
  | ui call =>
    cases hs
    exact h.ui hh call hg
  | frame e =>
    obtain ⟨v, hv, hs⟩ := Option.map_eq_some_iff.1 hs
    cases hs
    exact h.frame hv
  | photo e =>
    obtain ⟨v, hv, hs⟩ := Option.map_eq_some_iff.1 hs
    cases hs
    exact h.photo hg hv
  | owner created plan =>
    obtain ⟨v, hv, hs⟩ := Option.map_eq_some_iff.1 hs
    cases hs
    exact h.owner (hh.owner_keeps hv)

/-! ## Runs -/

variable {s₀ : DisplayProbeWorker} {es : List Event}

theorem fresh_viewed (h : Fresh s) : Viewed s := by
  obtain ⟨now, root, model, version, status, memory, card, rfl⟩ := h
  exact
    { named := fun _ he => by cases he
      unopened := fun _ => rfl
      shown := fun _ hs => by cases hs
      result := fun _ _ hr => by cases hr }

theorem reach_viewed (h0 : Fresh s₀) (h : Reach worker steadyGallery s₀ es l s) : Viewed s :=
  (h.inv_state (I := fun s => Handoff s ∧ Viewed s) ⟨fresh_handoff h0, fresh_viewed h0⟩
    fun _ _ _ _ _ hi hg hs => ⟨hi.1.step hs, hi.2.step hi.1 hg hs⟩).2

/-- **A steady gallery shows the selected photo** in every state reached. -/
theorem steady_shows (h0 : Fresh s₀) (h : Reach worker steadyGallery s₀ es l s) : ShowsRight s :=
  (reach_viewed h0 h).right

/-- A test that a step leaves the gallery steady. -/
def steadyEvent (_ : List Act) (s : DisplayProbeWorker) (e : Event) : Bool :=
  match e, s.photo.pc with
  | .photo (.publish ..), .handedBack job _ => job.job != .load
  | .ui (.requestPhoto _), .handedBack job _ => job.job == .delete
  | .photo (.finish (.save plan)), _ => plan.writes && s.photo.store.entries.evicted.isNone
  | _, _ => true

theorem steadyEvent_guard (l : List Act) (s : DisplayProbeWorker) (e : Event)
    (h : steadyEvent l s e = true) : steadyGallery l s e := by
  unfold steadyGallery
  split
  · rename_i hpc
    simp only [steadyEvent, hpc, bne_iff_ne] at h
    exact fun hjob => absurd hjob h
  · rename_i hpc
    simp only [steadyEvent, hpc, beq_iff_eq] at h
    intro _ _ _ _ hshows
    simp [Job.shows, h] at hshows
  · simp only [steadyEvent, Bool.and_eq_true, Option.isNone_iff_eq_none] at h
    intro _ _ _
    rw [if_pos h.1, h.2]
    exact fun _ ho => by cases ho
  · trivial

/-- Two photos are taken and saved. -/
def twoPhotos : List Event :=
  List.flatten [Event.startUp, Event.newFrame 100 blackFrame, [Event.capture 61007],
    Event.work (.save samplePlan), Event.publish, [Event.capture 62008],
    Event.work (.save samplePlan), Event.publish]

/-- The worker with two photos, the newest shown. -/
def twoPhotosWorker : DisplayProbeWorker :=
  ((worker.execIf steadyEvent [] sampleWorker twoPhotos).getD (sampleWorker, [])).1

theorem twoPhotos_run : ∃ l, Reach worker steadyGallery sampleWorker twoPhotos l twoPhotosWorker ∧
    twoPhotosWorker.photo.pc.finished = false ∧
    twoPhotosWorker.shared.screen.gallery.galleryHasThumbnail = true ∧
    twoPhotosWorker.shared.screen.gallery.galleryIndex = 0 := by
  have h : (worker.execIf steadyEvent [] sampleWorker twoPhotos).any (fun x =>
      !x.1.photo.pc.finished && x.1.shared.screen.gallery.galleryHasThumbnail &&
        x.1.shared.screen.gallery.galleryIndex == 0) = true := by
    decide +kernel
  obtain ⟨⟨s, l⟩, hexec, hp⟩ := (Option.any_eq_true _ _).1 h
  have hs : twoPhotosWorker = s := by rw [twoPhotosWorker, hexec, Option.getD_some]
  simp only [Bool.and_eq_true, Bool.not_eq_true', beq_iff_eq] at hp
  have hrun := Reach.init.execIf steadyEvent_guard hexec
  rw [List.nil_append] at hrun
  rw [hs]
  exact ⟨l, hrun, hp.1.1, hp.1.2, hp.2⟩

theorem steady_shows_session : ∃ l, Reach worker steadyGallery sampleWorker twoPhotos l
    twoPhotosWorker ∧ Shown twoPhotosWorker := by
  obtain ⟨l, h, hpc, hshown, -⟩ := twoPhotos_run
  exact ⟨l, h, steady_shows sample_fresh h hpc hshown⟩

/-! ## A load that comes too late -/

/-- Events at which no file of the store is written and no entry changed. -/
def Event.readsOnly : Event → Bool
  | .ui _ | .frame _ => true
  | .photo (.finish work) =>
    match work with
    | .load .. => true
    | _ => false
  | .photo (.initializeStore ..) => false
  | .photo _ => true
  | .owner .. => false

theorem readsOnly_step {e : Event} (he : e.readsOnly = true)
    (hs : worker.step s e = some (s', o)) :
    s'.photo.store = s.photo.store ∧ s'.photo.world = s.photo.world := by
  cases e with
  | ui call =>
    cases hs
    exact ⟨rfl, rfl⟩
  | frame e =>
    obtain ⟨v, hv, hs⟩ := Option.map_eq_some_iff.1 hs
    cases hs
    exact ⟨rfl, rfl⟩
  | owner created plan => cases he
  | photo e =>
    obtain ⟨v, hv, hs⟩ := Option.map_eq_some_iff.1 hs
    cases hs
    have hrun : e.Step s.shared s.photo v := PhotoEvent.run_step hv
    cases hrun with
    | opened plan readable status event =>
      subst event
      cases he
    | finish job work r event pc call eq =>
      subst event eq
      cases work with
      | load readable memory =>
        unfold callStore at call
        split at call
        · contradiction
        · split at call <;> cases call <;> exact ⟨rfl, rfl⟩
        · contradiction
        · cases call
          exact ⟨rfl, rfl⟩
        · cases call
      | save | delete => cases he
    | exit event pc running eq =>
      subst eq
      exact ⟨rfl, rfl⟩
    | configure event pc eq =>
      subst eq
      exact ⟨rfl, rfl⟩
    | install freeBytes state settings event pc eq =>
      subst eq
      exact ⟨rfl, rfl⟩
    | take event pc pending eq =>
      subst eq
      exact ⟨rfl, rfl⟩
    | call job event pc eq =>
      subst eq
      exact ⟨rfl, rfl⟩
    | handBack job result event pc eq =>
      subst eq
      exact ⟨rfl, rfl⟩
    | publish job result now freeBytes event pc eq =>
      subst eq
      exact ⟨rfl, rfl⟩

theorem readsOnly_run (hes : ∀ e ∈ es, e.readsOnly = true) (h : Run worker s₀ es l s) :
    s.photo.store = s₀.photo.store ∧ s.photo.world = s₀.photo.world := by
  induction h with
  | init => exact ⟨rfl, rfl⟩
  | step h hg hs ih =>
    obtain ⟨h1, h2⟩ := ih fun e he => hes e (List.mem_append_left _ he)
    obtain ⟨h3, h4⟩ := readsOnly_step (hes _ (by simp)) hs
    exact ⟨h3.trans h1, h4.trans h2⟩

/-- In the gallery: the older photo cannot be read, the newest is asked for, and the selection
moves on while it is read. -/
def movesOn : List Event :=
  List.flatten [[Event.press .gallery, Event.press .next], Event.work (.load false blackFrame),
    Event.publish, [Event.press .next, .photo .take, .photo .call, Event.press .next]]

/-- The photo thread is in the call for the thumbnail of a place. -/
def PhotoLoop.reads (galleryIndex : Int) : PhotoLoop → Bool
  | calling job => job.job == .load && job.galleryIndex == galleryIndex
  | _ => false

theorem reads_calling {pc : PhotoLoop} {galleryIndex : Int} (h : pc.reads galleryIndex = true) :
    ∃ job, pc = .calling job ∧ job.job = .load ∧ job.galleryIndex = galleryIndex := by
  cases pc with
  | calling job =>
    simp only [PhotoLoop.reads, Bool.and_eq_true, beq_iff_eq] at h
    exact ⟨job, rfl, h⟩
  | _ => cases h

/-- A load that succeeds is shown, whatever place is selected by then. -/
theorem load_shown {job : Job} {thumbnail : Frame} (hpc : s.photo.pc = .calling job)
    (hjob : job.job = .load)
    (hthumbnail : loadThumbnail job.galleryIndex s.photo.store s.photo.world = some thumbnail) :
    ∃ l s', Run worker s [.photo (.finish (.load true blackFrame)), .photo .handBack,
        .photo (.publish 0 0)] l s' ∧ s'.photo.pc.finished = false ∧
      s'.shared.screen.gallery.galleryHasThumbnail = true ∧
      s'.shared.screen.gallery.galleryLoadedIndex = job.galleryIndex ∧
      s'.shared.screen.gallery.galleryIndex = s.shared.screen.gallery.galleryIndex := by
  obtain ⟨entry, hentry, -⟩ := Option.bind_eq_some_iff.1 hthumbnail
  have hcall : callStore job (.load true blackFrame) s.shared.photoFrame s.photo.store
      s.photo.world = some ({ ok := true, presetIndex := entry.presetIndex }, thumbnail,
        s.photo.store, s.photo.world) := by
    simp [callStore, hjob, hthumbnail, hentry]
  obtain ⟨o, hfinish⟩ : ∃ o, worker.step s (.photo (.finish (.load true blackFrame))) =
      some ({ s with
        shared.photoFrame := thumbnail
        photo.pc := .returned job { ok := true, presetIndex := entry.presetIndex } }, o) := by
    simp [worker, DisplayProbeWorker.step, PhotoEvent.run, DisplayProbeWorker.photoView, hpc, hcall]
  refine ⟨_, _, ((Reach.init.step trivial hfinish).step trivial rfl).step trivial rfl, rfl, ?_⟩
  simp only [publish, hjob, publishLoad, mirrorPhoto, if_true]
  exact ⟨trivial, trivial, rfl⟩

/-- The load succeeds, and is published. -/
def shownLate : List Event :=
  [.photo (.finish (.load true blackFrame)), .photo .handBack, .photo (.publish 0 0)]

def lateSession : List Event := twoPhotos ++ movesOn ++ shownLate

/-- The newest photo is published for the place of the older one. -/
theorem late_load : ∃ l s, Run worker sampleWorker lateSession l s ∧ ¬ ShowsRight s := by
  obtain ⟨l, h, hpc, hshown, hindex⟩ := twoPhotos_run
  have hthumbnail := ((reach_viewed sample_fresh h).right hpc hshown).thumbnail
  rw [hindex] at hthumbnail
  obtain ⟨l', s, h', hp⟩ := run_of_exec (M := worker) (s := twoPhotosWorker) movesOn
    (p := fun x => x.1.photo.pc.reads 0 && x.1.shared.screen.gallery.galleryIndex == 1)
    (by decide +kernel)
  simp only [Bool.and_eq_true, beq_iff_eq] at hp
  obtain ⟨job, hcalling, hjob, hplace⟩ := reads_calling hp.1
  obtain ⟨hstore, hworld⟩ := readsOnly_run (by decide) h'
  rw [← hstore, ← hworld, ← hplace] at hthumbnail
  obtain ⟨l'', s', h'', hfinished, hshown', hloaded, hselected⟩ :=
    load_shown hcalling hjob hthumbnail
  refine ⟨_, s', (h.run.append h').append h'', fun hright => ?_⟩
  have := (hright hfinished hshown').loaded
  rw [hloaded, hselected, hplace, hp.2] at this
  exact absurd this (by decide)

end RetroLens.Worker
