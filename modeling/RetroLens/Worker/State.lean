import RetroLens.Core.ProcessFrame
import RetroLens.Store.Settings
import RetroLens.Store.Startup

/-!
# The state of the display worker

What `mutex_` guards is a `Screen`, what `photoMutex_` guards a `JobSlot`. The
photo buffer goes from hand to hand with the job. A section under a lock is one
step, so a thread's program counter says which section it enters next.
-/

namespace RetroLens.Worker

open Text RetroLens.Core Store

inductive FilterSubmitStatus where
  | accepted | busyDropped | invalid
  deriving DecidableEq, Repr

inductive PhotoRequestStatus where
  | queued | busy | unavailable
  deriving DecidableEq, Repr

/-- What the storage probe says; `other` is any value without a meaning. -/
inductive StorageProbeStatus where
  | initializing | ready | rootUnavailable | directoryFailed | writeFailed | insufficientSpace
  | other
  deriving DecidableEq, Repr

inductive PhotoWriteState where
  | idle | saving | saved | failed | busy | loading | deleted | videoDisabled | unavailable | noFrame
  deriving DecidableEq, Repr

inductive PhotoUiScene where
  | camera | controls | browser | gallery | diagnostics | deleteConfirm
  deriving DecidableEq, Repr

/-- The keys; `diagnostics` is the value 13, `other` any value without a meaning. -/
inductive PhotoUiKey where
  | previous | next | up | down | confirm | browser | gallery | compare | back | record | focus
  | capture | diagnostics | other
  deriving DecidableEq, Repr

inductive PhotoJob where
  | none | save | load | delete
  deriving DecidableEq, Repr

structure FilterProbeMetrics where
  hasFrame : Bool := false
  decodeError : Bool := false
  acceptedFrames : Int := 0
  processedFrames : Int := 0
  droppedFrames : Int := 0
  decodeFailures : Int := 0
  decodeMs : Int := 0
  filterMs : Int := 0
  processedFpsTenths : Int := 0
  selectedPreset : Int := 0
  styleChanges : Int := 0
  intensity : Int := 100
  parameterIndex : Nat := 0
  parameterValue : Int := 100
  scene : PhotoUiScene := .camera
  controlsVisible : Bool := true
  compare : Bool := false
  favorite : Bool := false
  focusActive : Bool := false
  diagnostics : Bool := false
  photoStatus : PhotoWriteState := .idle
  photoSavedCount : Int := 0
  photoFailedCount : Int := 0
  photoEncodedBytes : Int := 0
  galleryPhotoCount : Int := 0
  galleryIndex : Int := 0
  galleryPreset : Int := 0
  galleryHasThumbnail : Bool := false
  photoStorageState : PhotoStorageState := .initializing
  photoStorageAttempts : Int := 0
  photoWriteStage : PhotoWriteStage := .none
  photoWriteError : Int := 0
  photoFreeMiB : Int := -1
  deriving DecidableEq, Repr

/-- What the user chose: the style and its parameters, favorites and recent styles. -/
structure Style where
  selectedStyle : Int := 0
  intensity : Int := 100
  parameterIndex : Nat := 0
  adjustments : Int → Adjustments := fun _ => {}
  favoritesLo : UInt64 := 0
  favoritesHi : UInt64 := 0
  /-- The used entries of `recent_`. -/
  recent : List Int := []

/-- The frame on its way in, and what became of the frames before it. -/
structure Intake where
  inputPending : Bool := false
  inputInUse : Bool := false
  hasPrevious : Bool := false
  hasRaw : Bool := false
  styleDirty : Bool := false
  jpeg : Bytes := []
  jpegTimestampMs : Int64 := 0
  lastDecodedTimestampMs : Int64 := 0
  firstProcessedTimestampMs : Int64 := 0
  lastProcessedTimestampMs : Int64 := 0

def blackFrame : Frame := .filled ⟨0, 0, 0⟩

structure Gallery where
  galleryPhotoCount : Int := 0
  galleryIndex : Int := 0
  galleryLoadedIndex : Int := -1
  galleryHasThumbnail : Bool := false
  galleryPreset : Int := 0
  galleryThumbnail : Frame := blackFrame

/-- The fields that `mutex_` guards. -/
structure Screen where
  running : Bool := false
  storageInitializationComplete : Bool := false
  storageReady : Bool := false
  style : Style := {}
  intake : Intake := {}
  gallery : Gallery := {}
  scene : PhotoUiScene := .camera
  controlsVisible : Bool := true
  compare : Bool := false
  focusActive : Bool := false
  diagnostics : Bool := false
  settingsDirty : Bool := false
  controlsVisibleUntilMs : Int
  photoMessageUntilMs : Int := 0
  touchStartMs : Int := 0
  photoStatus : PhotoWriteState := .idle
  photoSavedCount : Nat := 0
  photoFailedCount : Nat := 0
  photoEncodedBytes : Nat := 0
  frameCount : Int := 0
  filterMetrics : FilterProbeMetrics := {}

/-- The fields that `photoMutex_` guards. -/
structure JobSlot where
  photoRunning : Bool := false
  storageConfigured : Bool
  initialStorageStatus : StorageProbeStatus
  photoPending : Bool := false
  photoInUse : Bool := false
  photoJob : PhotoJob := .none
  photoPreset : Int := 0
  photoIntensity : Int := 100
  photoAdjustments : Adjustments := {}
  photoFavorite : Bool := false
  photoGalleryIndex : Int := 0
  photoTimestampMs : Int64 := 0
  deriving DecidableEq

/-- The copies that `photoRun` takes of a job. -/
structure Job where
  job : PhotoJob
  presetIndex : Int
  intensity : Int
  adjustments : Adjustments
  favorite : Bool
  galleryIndex : Int
  timestampMs : Int64
  deriving DecidableEq

/-- What a job came to. -/
structure JobResult where
  ok : Bool
  encodedBytes : Nat := 0
  /-- The preset of the entry that a load read. -/
  presetIndex : Int := 0
  deriving DecidableEq, Repr

/-- What a call of `processFrame` takes from the screen: the preset with the adjustments that
went into it, the intensity, the timestamp. -/
structure FilterSettings where
  presetIndex : Int
  adjustments : Adjustments
  preset : Preset
  intensity : Int
  timestampMs : Int64
  deriving DecidableEq

/-- One call of `processFrame`. -/
structure FilterCall extends FilterSettings where
  source : Frame
  previous : Option Frame

def FilterCall.output (c : FilterCall) : Frame :=
  processFrame c.source c.previous c.preset c.intensity 0x52455452 c.timestampMs

/-- Where the frame thread is. -/
inductive RunLoop where
  | notStarted
  /-- At the loop's condition, or waiting for the lock to get there. -/
  | head
  /-- The input is taken, and the settings of the call to come. -/
  | decoding (settings : FilterSettings) (usePrevious : Bool)
  | decodeFailed
  /-- In `processFrame`, with that many pixels written; `input` where the frame is new. -/
  | filtering (call : FilterCall) (input : Bool) (written : Nat)
  | finishing (call : FilterCall) (input : Bool)
  | exited

/-- Where the photo thread is. -/
inductive PhotoLoop where
  | notStarted
  | starting
  | configured (status : StorageProbeStatus)
  | initialized (state : PhotoStorageState) (settings : Option RuntimeSettings)
  | waiting
  /-- The job is taken, its call not yet made. -/
  | taken (job : Job)
  /-- In the store's call. -/
  | calling (job : Job)
  | returned (job : Job) (result : JobResult)
  /-- The slot is free again, the result not yet published. -/
  | handedBack (job : Job) (result : JobResult)
  | exited

/-- Where the owner is between `start` and the end of `stop`. -/
inductive Control where
  | created
  /-- `running_` is set. -/
  | starting
  /-- The frame thread could not be created. -/
  | notCreated
  /-- The frame thread is there. -/
  | threadStarted
  /-- `photoRunning_` is set. -/
  | photoStarting
  /-- The photo thread could not be created. -/
  | photoNotCreated
  /-- `photoRunning_` is reset. -/
  | photoAbandoned
  | started
  /-- `running_` is reset, the frame thread to be joined. -/
  | stopping
  | threadJoined
  /-- `photoRunning_` is reset, the photo thread to be joined. -/
  | photoStopping
  | photoJoined
  | stopped
  deriving DecidableEq, Repr

/-- What the two mutexes guard, and the photo buffer. -/
structure Shared where
  screen : Screen
  slot : JobSlot
  photoFrame : Frame

structure FrameThread where
  pc : RunLoop := .notStarted
  raw : Frame := blackFrame
  filtered : Frame := blackFrame
  previous : Frame := blackFrame

structure PhotoThread where
  pc : PhotoLoop := .notStarted
  store : PhotoStore
  world : CardWorld

structure DisplayProbeWorker where
  control : Control := .created
  /-- `photoThreadStarted_`. -/
  photoThreadStarted : Bool := false
  shared : Shared
  frame : FrameThread := {}
  photo : PhotoThread

/-- The constructor, at the time `now`; the photo buffer holds what was in memory. -/
def DisplayProbeWorker.create (now : Int) (storageRoot cameraModel versionName : Option Bytes)
    (storageStatus : StorageProbeStatus) (memory : Frame) (card : CardWorld) :
    DisplayProbeWorker :=
  { shared :=
      { screen := { controlsVisibleUntilMs := now + 2000 }
        slot := { storageConfigured := storageStatus ≠ .initializing
                  initialStorageStatus := storageStatus }
        photoFrame := memory }
    photo := { store := PhotoStore.create storageRoot cameraModel versionName, world := card } }

namespace JobSlot

/-- A job can be posted. -/
def free (s : JobSlot) : Bool := s.photoRunning && !s.photoPending && !s.photoInUse

/-- The copies of the job's fields. -/
def copy (s : JobSlot) : Job :=
  { job := s.photoJob, presetIndex := s.photoPreset, intensity := s.photoIntensity
    adjustments := s.photoAdjustments, favorite := s.photoFavorite
    galleryIndex := s.photoGalleryIndex, timestampMs := s.photoTimestampMs }

end JobSlot

/-- The arguments of the `savePhoto` call for a job. -/
def Job.photo (job : Job) (frame : Frame) : Photo :=
  { frame, presetIndex := job.presetIndex, intensity := job.intensity
    adjustments := job.adjustments, favorite := job.favorite, timestampMs := job.timestampMs }

end RetroLens.Worker
