import RetroLens.Lib.Runs
import RetroLens.Worker.PhotoLoop
import RetroLens.Worker.RunLoop

/-!
# The worker as a machine

Calls of the camera and the user, the sections of the two threads, and the
owner, who starts the worker once and stops it, in any order that the locks
and the joins allow. The actions are what an observer of the photos sees:
requests, store calls, dialogs, filtered frames.
-/

namespace RetroLens.Worker

open Text Disk RetroLens.Core Store Runs

/-! ## Calls -/

inductive UiCall where
  | key (keyValue : PhotoUiKey) (down : Bool) (timestampMs : Int)
  | touch (action : TouchAction) (timestampMs : Int)
  | changeStyle (delta : Int)
  | requestPhoto (timestampMs : Int64)
  | setFocus (active : Bool)
  | configureStorage (status : StorageProbeStatus)
  | noteAttempts (attempts : Int)
  | submitJpeg (jpeg : Option Bytes) (timestampMs : Int64)

/-- What a call does to what the mutexes guard. -/
def UiCall.run (filtered : Frame) : UiCall → Shared → Shared
  | key keyValue down timestampMs, sh => (Worker.key keyValue down timestampMs sh).2
  | touch action timestampMs, sh => { sh with screen := Worker.touch action timestampMs sh.screen }
  | changeStyle delta, sh => { sh with screen := Worker.changeStyle delta sh.screen }
  | requestPhoto timestampMs, sh => (Worker.requestPhoto filtered timestampMs sh).2
  | setFocus active, sh => { sh with screen := Worker.setFocus active sh.screen }
  | configureStorage status, sh => { sh with slot := Worker.configureStorage status sh.slot }
  | noteAttempts attempts, sh => { sh with screen := Worker.noteAttempts attempts sh.screen }
  | submitJpeg jpeg timestampMs, sh =>
    { sh with screen := (Worker.submitJpeg jpeg timestampMs sh.screen).2 }

/-! ## The owner -/

/-- The owner goes on: `start` from `created`, `stop` from `started`. `created` is what
`pthread_create` says, `plan` the writing of the settings file. -/
def ownerStep (created : Bool) (plan : FilePlan) (s : DisplayProbeWorker) :
    Option DisplayProbeWorker :=
  match s.control with
  | .created => some { s with control := .starting, shared.screen.running := true }
  | .starting =>
    if created then some { s with control := .threadStarted, frame.pc := .head }
    else some { s with control := .notCreated }
  | .notCreated => some { s with control := .created, shared.screen.running := false }
  | .threadStarted => some { s with control := .photoStarting, shared.slot.photoRunning := true }
  | .photoStarting =>
    if created then
      some { s with control := .started, photoThreadStarted := true, photo.pc := .starting }
    else some { s with control := .photoNotCreated }
  | .photoNotCreated =>
    some { s with control := .photoAbandoned, shared.slot.photoRunning := false }
  | .photoAbandoned =>
    some { s with
      control := .started
      shared.screen.storageInitializationComplete := true
      shared.screen.storageReady := false
      shared.screen.filterMetrics.photoStorageState := .directoryFailed }
  | .started => some { s with control := .stopping, shared.screen.running := false }
  | .stopping =>
    match s.frame.pc with
    | .exited => some { s with control := .threadJoined }
    | _ => none
  | .threadJoined => some { s with control := .photoStopping, shared.slot.photoRunning := false }
  | .photoStopping =>
    if s.photoThreadStarted then
      match s.photo.pc with
      | .exited => some { s with control := .photoJoined, photoThreadStarted := false }
      | _ => none
    else some { s with control := .photoJoined }
  | .photoJoined =>
    let c := s.shared.screen
    if c.storageReady && c.settingsDirty then
      some { s with
        control := .stopped
        photo.world := (saveSettings plan (settingsLocked c) s.photo.world).2 }
    else some { s with control := .stopped }
  | .stopped => none

/-! ## The machine -/

inductive Event where
  | ui (call : UiCall)
  | frame (e : FrameEvent)
  | photo (e : PhotoEvent)
  | owner (created : Bool) (plan : FilePlan)

inductive Act where
  /-- `submitJpeg` returns. -/
  | submitted (status : FilterSubmitStatus) (jpeg : Option Bytes) (timestampMs : Int64)
  /-- `decodeReducedJpeg` returns. -/
  | decoded (jpeg : Bytes) (timestampMs : Int64) (ok : Bool) (raw : Frame)
  /-- `processFrame` returns. -/
  | filtered (call : FilterCall)
  /-- `requestPhoto` returns `kPhotoRequestQueued`, with the job's photo. -/
  | queued (photo : Photo)
  /-- The delete dialog opens, over these entries and the selected photo. -/
  | dialogOpened (entries : Entries) (galleryIndex : Int)
  /-- A press in the dialog posts a job. -/
  | deleteQueued
  /-- `initialize` is called, and returns that state. -/
  | initialized (state : PhotoStorageState)
  /-- `savePhoto` is called. -/
  | saveCalled (photo : Photo)
  /-- `savePhoto` returns, having read that photo. -/
  | saveReturned (photo : Photo) (ok : Bool)
  | loadReturned (galleryIndex : Int) (ok : Bool)
  /-- `deletePhoto` returns, with the entries before and after it. -/
  | deleteReturned (galleryIndex : Int) (before after : Entries) (ok : Bool)

/-- A key press opened the delete dialog. -/
def opensDialog (sh sh' : Shared) : Bool :=
  sh.screen.scene != .deleteConfirm && sh'.screen.scene == .deleteConfirm

/-- A key press posted a deletion. -/
def postsDelete (sh sh' : Shared) : Bool :=
  !sh.slot.photoPending && sh'.slot.photoPending && sh'.slot.photoJob == .delete

/-- What is seen of a call. -/
def UiCall.acts (filtered : Frame) (entries : Entries) (sh : Shared) : UiCall → List Act
  | key keyValue down timestampMs =>
    let sh' := (Worker.key keyValue down timestampMs sh).2
    (if opensDialog sh sh' then
      [.dialogOpened entries sh'.screen.gallery.galleryIndex] else []) ++
      if postsDelete sh sh' then [.deleteQueued] else []
  | requestPhoto timestampMs =>
    let r := Worker.requestPhoto filtered timestampMs sh
    if r.1 = .queued then [.queued (r.2.slot.copy.photo r.2.photoFrame)] else []
  | submitJpeg jpeg timestampMs =>
    [.submitted (Worker.submitJpeg jpeg timestampMs sh.screen).1 jpeg timestampMs]
  | _ => []

/-- What is seen of the frame thread. -/
def FrameEvent.acts (e : FrameEvent) (v : FrameView) : List Act :=
  match e, v.frame.pc with
  | .decoded ok raw, .decoding settings _ =>
    [.decoded v.screen.intake.jpeg settings.timestampMs ok raw]
  | .filtered, .filtering call _ _ => [.filtered call]
  | _, _ => []

/-- What is seen of the photo thread. -/
def PhotoEvent.acts (e : PhotoEvent) (v v' : PhotoView) : List Act :=
  match e, v.photo.pc, v'.photo.pc with
  | .initializeStore .., .configured .ready, .initialized state _ => [.initialized state]
  | .call, .taken job, _ =>
    if job.job = .save then [.saveCalled (job.photo v.shared.photoFrame)] else []
  | .finish _, .calling job, .returned _ result =>
    match job.job with
    | .save => [.saveReturned (job.photo v.shared.photoFrame) result.ok]
    | .load => [.loadReturned job.galleryIndex result.ok]
    | .delete =>
      [.deleteReturned job.galleryIndex v.photo.store.entries v'.photo.store.entries result.ok]
    | .none => []
  | _, _, _ => []

namespace DisplayProbeWorker

def frameView (s : DisplayProbeWorker) : FrameView := ⟨s.shared.screen, s.frame⟩

def photoView (s : DisplayProbeWorker) : PhotoView := ⟨s.shared, s.photo⟩

def step (s : DisplayProbeWorker) : Event → Option (DisplayProbeWorker × List Act)
  | .ui call =>
    some ({ s with shared := call.run s.frame.filtered s.shared },
      call.acts s.frame.filtered s.photo.store.entries s.shared)
  | .frame e =>
    (e.run s.frameView).map fun v =>
      ({ s with shared.screen := v.screen, frame := v.frame }, e.acts s.frameView)
  | .photo e =>
    (e.run s.photoView).map fun v =>
      ({ s with shared := v.shared, photo := v.photo }, e.acts s.photoView v)
  | .owner created plan => (ownerStep created plan s).map fun s' => (s', [])

end DisplayProbeWorker

def worker : Machine DisplayProbeWorker Event Act where
  step := DisplayProbeWorker.step

/-- A worker as its constructor leaves it, on any card. -/
def Fresh (s : DisplayProbeWorker) : Prop :=
  ∃ now storageRoot cameraModel versionName storageStatus memory card,
    s = .create now storageRoot cameraModel versionName storageStatus memory card

end RetroLens.Worker
