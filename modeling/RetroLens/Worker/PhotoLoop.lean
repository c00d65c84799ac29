import RetroLens.Worker.Input

/-!
# The photo thread

`photoRun` in sections: the wait for a definite storage status, the opening of
the store, the section that installs its settings, and then job after job: the
job is taken, the store called, the slot handed back, the result published.
-/

namespace RetroLens.Worker

open Text Disk RetroLens.Core Store

/-- What the photo thread works on. -/
structure PhotoView where
  shared : Shared
  photo : PhotoThread

def freeMiB (freeBytes : Int) : Int := if freeBytes < 0 then -1 else freeBytes.tdiv (1024 * 1024)

/-! ## Opening the store -/

/-- `initialize` where the status is ready, and the settings if they can be read. -/
def openStore (plan : InitPlan) (readable : Bool) (status : StorageProbeStatus)
    (p : PhotoThread) : PhotoThread :=
  let refused := fun state => { p with pc := .initialized state none }
  match status with
  | .ready =>
    let r := initializeStore plan p.store p.world
    let settings :=
      if r.1.storageState = .ready ∧ readable = true then loadSettings r.2.card else none
    { pc := .initialized r.1.storageState settings, store := r.1, world := r.2 }
  | .directoryFailed => refused .directoryFailed
  | .writeFailed => refused .writeProbeFailed
  | .insufficientSpace => refused .insufficientSpace
  | .initializing | .rootUnavailable | .other => refused .invalidRoot

/-- The loaded settings replace what was chosen so far. -/
def applySettings (settings : RuntimeSettings) (c : Screen) : Screen :=
  { c with
    style :=
      { c.style with
        selectedStyle := settings.selectedPreset
        intensity := settings.intensity
        favoritesLo := settings.favoritesLo
        favoritesHi := settings.favoritesHi
        recent := settings.recent
        adjustments := settings.adjustments }
    diagnostics := settings.diagnostics
    intake.styleDirty := c.intake.hasRaw }

/-- The section under `mutex_` after the opening. -/
def installStore (state : PhotoStorageState) (settings : Option RuntimeSettings) (freeBytes : Int)
    (s : PhotoStore) (c : Screen) : Screen :=
  let c := match settings with
    | none => c
    | some settings => applySettings settings c
  { c with
    storageReady := state = .ready
    storageInitializationComplete := true
    gallery.galleryPhotoCount := photoCount s
    filterMetrics :=
      { c.filterMetrics with
        selectedPreset := c.style.selectedStyle
        intensity := c.style.intensity
        parameterValue := c.style.intensity
        diagnostics := c.diagnostics
        favorite := isFavoriteLocked c.style.selectedStyle c
        galleryPhotoCount := photoCount s
        photoStorageState := state
        photoWriteStage := s.writeStage
        photoWriteError := s.lastError
        photoFreeMiB := freeMiB freeBytes } }

/-! ## The jobs -/

/-- What the platform does in the call of a job. A load that fails leaves `memory` in the buffer. -/
inductive Work where
  | save (plan : SavePlan)
  | load (readable : Bool) (memory : Frame)
  | delete (plan : DeletePlan)

/-- `sizeof(encodedPhoto_)`. -/
def encodedCapacity : Int := 512 * 1024

/-- The store's call for a job: its result, the buffer, the store and the card after it. -/
def callStore (job : Job) (work : Work) (buffer : Frame) (s : PhotoStore) (w : CardWorld) :
    Option (JobResult × Frame × PhotoStore × CardWorld) :=
  match job.job, work with
  | .save, .save plan =>
    let r := savePhoto plan (job.photo buffer) encodedCapacity s w
    some ({ ok := r.1.isSome, encodedBytes := r.1.getD 0 }, buffer, r.2)
  | .load, .load readable memory =>
    match (if readable then loadThumbnail job.galleryIndex s w else none),
        getPhoto job.galleryIndex s with
    | some thumbnail, some entry =>
      some ({ ok := true, presetIndex := entry.presetIndex }, thumbnail, s, w)
    | some thumbnail, none => some ({ ok := false }, thumbnail, s, w)
    | none, _ => some ({ ok := false }, memory, s, w)
  | .delete, .delete plan =>
    let r := deletePhoto plan job.galleryIndex s w
    some ({ ok := r.1 }, buffer, r.2)
  | .none, _ => some ({ ok := false }, buffer, s, w)
  | _, _ => none

def publishSave (job : Job) (result : JobResult) (now : Int) (p : PhotoStore) (sh : Shared) :
    Shared :=
  let c := { sh.screen with storageReady := p.storageState = PhotoStorageState.ready }
  if result.ok then
    { sh with
      screen :=
        { c with
          photoStatus := .saved
          photoSavedCount := c.photoSavedCount + 1
          photoEncodedBytes := result.encodedBytes
          gallery :=
            { galleryPhotoCount := photoCount p, galleryIndex := 0, galleryLoadedIndex := 0
              galleryHasThumbnail := true, galleryPreset := job.presetIndex
              galleryThumbnail := sh.photoFrame }
          photoMessageUntilMs := now + 1200 } }
  else
    { sh with
      screen :=
        { c with
          photoStatus := .failed
          photoFailedCount := c.photoFailedCount + 1
          photoMessageUntilMs := now + 1800 } }

def publishLoad (job : Job) (result : JobResult) (sh : Shared) : Shared :=
  let c := sh.screen
  { sh with
    screen :=
      { c with
        gallery :=
          if result.ok then
            { c.gallery with
              galleryHasThumbnail := true
              galleryThumbnail := sh.photoFrame
              galleryPreset := result.presetIndex
              galleryLoadedIndex := job.galleryIndex }
          else { c.gallery with galleryHasThumbnail := false, galleryLoadedIndex := -1 }
        photoStatus := if result.ok then .idle else .failed } }

def publishDelete (result : JobResult) (now : Int) (p : PhotoStore) (sh : Shared) : Shared :=
  let c := sh.screen
  let count : Int := photoCount p
  let sh :=
    { sh with
      screen :=
        { c with
          gallery :=
            { c.gallery with
              galleryPhotoCount := count
              galleryIndex :=
                if c.gallery.galleryIndex ≥ count then (if count > 0 then count - 1 else 0)
                else c.gallery.galleryIndex
              galleryHasThumbnail := false
              galleryLoadedIndex := -1 }
          scene := .gallery
          photoStatus := if result.ok then .deleted else .failed
          photoMessageUntilMs := now + if result.ok then 1200 else 1800 } }
  if count > 0 then (queueGalleryLoadLocked sh).2 else sh

/-- What every publication copies into the metrics. -/
def mirrorPhoto (p : PhotoStore) (freeBytes : Int) (c : Screen) : Screen :=
  { c with
    filterMetrics :=
      { c.filterMetrics with
        photoStatus := c.photoStatus
        photoSavedCount := c.photoSavedCount
        photoFailedCount := c.photoFailedCount
        photoEncodedBytes := c.photoEncodedBytes
        galleryPhotoCount := c.gallery.galleryPhotoCount
        galleryIndex := c.gallery.galleryIndex
        galleryPreset := c.gallery.galleryPreset
        galleryHasThumbnail := c.gallery.galleryHasThumbnail
        photoStorageState := p.storageState
        photoWriteStage := p.writeStage
        photoWriteError := p.lastError
        photoFreeMiB := freeMiB freeBytes
        scene := c.scene } }

/-- The section under `mutex_` after a job. -/
def publish (job : Job) (result : JobResult) (now freeBytes : Int) (p : PhotoStore) (sh : Shared) :
    Shared :=
  let sh := match job.job with
    | .save => publishSave job result now p sh
    | .load => publishLoad job result sh
    | .delete => publishDelete result now p sh
    | .none => sh
  { sh with screen := mirrorPhoto p freeBytes sh.screen }

/-! ## The sections -/

inductive PhotoEvent where
  | start
  | initializeStore (plan : InitPlan) (readable : Bool)
  | install (freeBytes : Int)
  | take
  /-- The store's call begins. -/
  | call
  | finish (work : Work)
  | handBack
  | publish (now freeBytes : Int)

def PhotoEvent.run (e : PhotoEvent) (v : PhotoView) : Option PhotoView :=
  match e, v.photo.pc with
  | .start, .starting =>
    if v.shared.slot.photoRunning = false then some { v with photo.pc := .exited }
    else if v.shared.slot.storageConfigured then
      some { v with photo.pc := .configured v.shared.slot.initialStorageStatus }
    else none
  | .initializeStore plan readable, .configured status =>
    some { v with photo := openStore plan readable status v.photo }
  | .install freeBytes, .initialized state settings =>
    some { shared :=
             { v.shared with
               screen := installStore state settings freeBytes v.photo.store v.shared.screen }
           photo := { v.photo with pc := .waiting } }
  | .take, .waiting =>
    if v.shared.slot.photoPending then
      some { shared := { v.shared with slot.photoPending := false, slot.photoInUse := true }
             photo := { v.photo with pc := .taken v.shared.slot.copy } }
    else if v.shared.slot.photoRunning then none
    else some { v with photo.pc := .exited }
  | .call, .taken job => some { v with photo.pc := .calling job }
  | .finish work, .calling job =>
    (callStore job work v.shared.photoFrame v.photo.store v.photo.world).map fun r =>
      { shared := { v.shared with photoFrame := r.2.1 }
        photo := { pc := .returned job r.1, store := r.2.2.1, world := r.2.2.2 } }
  | .handBack, .returned job result =>
    some { shared := { v.shared with slot.photoInUse := false, slot.photoJob := .none }
           photo := { v.photo with pc := .handedBack job result } }
  | .publish now freeBytes, .handedBack job result =>
    some { shared := Worker.publish job result now freeBytes v.photo.store v.shared
           photo := { v.photo with pc := .waiting } }
  | _, _ => none

end RetroLens.Worker
