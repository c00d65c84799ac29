import RetroLens.Worker.Styles

/-!
# Calls from the camera and the user

The public calls that run under `mutex_`. Those that post a job take
`photoMutex_` inside it, so each is one step.
-/

namespace RetroLens.Worker

open Text RetroLens.Core Store

def kFilterProbeInputCapacity : Nat := 256 * 1024

/-! ## The job slot -/

/-- Post a job for the selected photo of the gallery, if there is one and the slot is free. -/
def queueGalleryLocked (job : PhotoJob) (status : PhotoWriteState) (sh : Shared) : Bool × Shared :=
  if sh.screen.storageReady = false ∨ sh.screen.gallery.galleryPhotoCount ≤ 0 then (false, sh)
  else if sh.slot.free = false then (false, sh)
  else
    (true, { sh with
      slot.photoGalleryIndex := sh.screen.gallery.galleryIndex
      slot.photoJob := job
      slot.photoPending := true
      screen.photoStatus := status })

def queueGalleryLoadLocked : Shared → Bool × Shared := queueGalleryLocked .load .loading

def queueGalleryDeleteLocked : Shared → Bool × Shared := queueGalleryLocked .delete .saving

/-- The status that is shown, and until when. -/
def setPhotoStatus (status : PhotoWriteState) (until' : Int) (c : Screen) : Screen :=
  { c with
    photoStatus := status
    photoMessageUntilMs := until'
    filterMetrics.photoStatus := status }

/-- `filtered` is what the frame thread's buffer holds. -/
def requestPhoto (filtered : Frame) (timestampMs : Int64) (sh : Shared) :
    PhotoRequestStatus × Shared :=
  let c := sh.screen
  if c.intake.hasPrevious = false then
    (.unavailable, { sh with screen := setPhotoStatus .noFrame (timestampMs.toInt + 1200) c })
  else if c.storageReady = false then
    (.unavailable, { sh with screen := setPhotoStatus .unavailable (timestampMs.toInt + 1800) c })
  else if sh.slot.free = false then
    (.busy, { sh with screen := setPhotoStatus .busy (timestampMs.toInt + 1200) c })
  else
    let selected := c.style.selectedStyle
    (.queued,
      { screen := setPhotoStatus .saving 0 c
        slot :=
          { sh.slot with
            photoPreset := selected
            photoIntensity := c.style.intensity
            photoAdjustments := c.style.adjustments selected
            photoFavorite := isFavoriteLocked selected c
            photoTimestampMs := timestampMs
            photoJob := .save
            photoPending := true }
        photoFrame := applyCaptureTexture filtered (adjustedPresetLocked selected c) })

/-! ## Keys -/

/-- Select another photo of the gallery and ask for its thumbnail. -/
def moveInGallery (direction : Int) (sh : Shared) : Shared :=
  let g := sh.screen.gallery
  if g.galleryPhotoCount > 0 then
    (queueGalleryLoadLocked { sh with
      screen.gallery.galleryIndex :=
        (g.galleryIndex + direction + g.galleryPhotoCount).tmod g.galleryPhotoCount
      screen.gallery.galleryHasThumbnail := false
      screen.gallery.galleryLoadedIndex := -1 }).2
  else sh

/-- Previous and Next. -/
def keyDirection (direction : Int) (sh : Shared) : Shared :=
  match sh.screen.scene with
  | .gallery => moveInGallery direction sh
  | .controls => { sh with screen := adjustParameterLocked direction sh.screen }
  | _ =>
    let c := selectStyle (neighbour sh.screen.style.selectedStyle direction) sh.screen
    { sh with
      screen := { c with filterMetrics.favorite := isFavoriteLocked c.style.selectedStyle c } }

/-- Up and Down. -/
def keyVertical (down : Bool) (c : Screen) : Screen :=
  match c.scene with
  | .controls =>
    let style : Style :=
      { c.style with parameterIndex := (c.style.parameterIndex + if down then 1 else 3) % 4 }
    { c with
      style
      filterMetrics.parameterIndex := style.parameterIndex
      filterMetrics.parameterValue := style.parameterValue }
  | .gallery => c
  | _ => changeCategoryLocked (if down then 1 else -1) c

def keyConfirm (sh : Shared) : Shared :=
  match sh.screen.scene with
  | .deleteConfirm =>
    let r := queueGalleryDeleteLocked sh
    if r.1 then r.2 else { r.2 with screen.photoStatus := .busy }
  | .gallery => { sh with screen := toggleFavoriteLocked sh.screen }
  | .controls => { sh with screen.scene := .camera }
  | _ => { sh with screen.scene := .controls }

def keyGallery (sh : Shared) : Shared :=
  if sh.screen.scene = .gallery then { sh with screen.scene := .camera }
  else
    let sh := { sh with screen.scene := .gallery, screen.gallery.galleryIndex := 0 }
    let g := sh.screen.gallery
    if g.galleryHasThumbnail = false ∨ g.galleryLoadedIndex ≠ 0 then
      (queueGalleryLoadLocked { sh with
        screen.gallery.galleryHasThumbnail := false
        screen.gallery.galleryLoadedIndex := -1 }).2
    else sh

/-- Back is not consumed in the camera scene. -/
def keyBack (c : Screen) : Bool × Screen :=
  match c.scene with
  | .gallery => (true, { c with scene := .deleteConfirm })
  | .deleteConfirm => (true, { c with scene := .gallery })
  | .camera => (false, c)
  | _ => (true, { c with scene := .camera })

def keyDiagnostics (c : Screen) : Screen :=
  let scene : PhotoUiScene := if c.scene = .diagnostics then .camera else .diagnostics
  { c with scene, diagnostics := scene = .diagnostics, settingsDirty := true }

/-- What a pressed key does, and whether it is consumed. -/
def keyEffect (keyValue : PhotoUiKey) (timestampMs : Int) (sh : Shared) : Bool × Shared :=
  match keyValue with
  | .previous => (true, keyDirection (-1) sh)
  | .next => (true, keyDirection 1 sh)
  | .up => (true, { sh with screen := keyVertical false sh.screen })
  | .down => (true, { sh with screen := keyVertical true sh.screen })
  | .confirm => (true, keyConfirm sh)
  | .browser =>
    (true, { sh with
      screen.scene := if sh.screen.scene = .browser then .camera else .browser })
  | .gallery => (true, keyGallery sh)
  | .back =>
    let r := keyBack sh.screen
    (r.1, { sh with screen := r.2 })
  | .record =>
    (true, { sh with
      screen.photoStatus := .videoDisabled
      screen.photoMessageUntilMs := timestampMs + 1200 })
  | .focus => (true, { sh with screen.focusActive := true })
  | .diagnostics => (true, { sh with screen := keyDiagnostics sh.screen })
  | .compare | .capture | .other => (true, sh)

/-- What `key` copies into the metrics at its end. -/
def mirrorKey (c : Screen) : Screen :=
  { c with
    filterMetrics.scene := c.scene
    filterMetrics.controlsVisible := c.controlsVisible
    filterMetrics.favorite := isFavoriteLocked c.style.selectedStyle c
    filterMetrics.focusActive := c.focusActive
    filterMetrics.diagnostics := c.diagnostics
    filterMetrics.photoStatus := c.photoStatus
    filterMetrics.galleryIndex := c.gallery.galleryIndex }

def key (keyValue : PhotoUiKey) (down : Bool) (timestampMs : Int) (sh : Shared) : Bool × Shared :=
  if keyValue = .compare then
    (true, { sh with screen.compare := down, screen.filterMetrics.compare := down })
  else if down = false then (true, sh)
  else
    let r := keyEffect keyValue timestampMs { sh with
      screen.controlsVisible := true
      screen.controlsVisibleUntilMs := timestampMs + 2000 }
    (r.1, { r.2 with screen := mirrorKey r.2.screen })

/-! ## Touch and the other calls -/

/-- The horizontal way of a finger, against the 40 pixels that make a swipe. -/
inductive Swipe where
  | left | right | none
  deriving DecidableEq, Repr

/-- The actions 0, 2 and 1. -/
inductive TouchAction where
  | down
  | move
  | up (swipe : Swipe)
  | other
  deriving DecidableEq, Repr

/-- A swipe selects the next style or the one before. -/
def touchUp (swipe : Swipe) (timestampMs : Int) (c : Screen) : Screen :=
  let swiped := fun direction : Int =>
    { selectStyle (neighbour c.style.selectedStyle direction) c with
      controlsVisible := true
      controlsVisibleUntilMs := timestampMs + 2000 }
  match swipe with
  | .left => swiped 1
  | .right => swiped (-1)
  | .none =>
    { c with
      controlsVisible := !c.controlsVisible
      controlsVisibleUntilMs := if c.controlsVisible then 0 else timestampMs + 2000 }

def touch (action : TouchAction) (timestampMs : Int) (c : Screen) : Screen :=
  let c := match action with
    | .down => { c with touchStartMs := timestampMs }
    | .move => if timestampMs - c.touchStartMs ≥ 450 then { c with compare := true } else c
    | .up swipe => touchUp swipe timestampMs { c with compare := false }
    | .other => c
  { c with
    filterMetrics.compare := c.compare
    filterMetrics.controlsVisible := c.controlsVisible
    filterMetrics.favorite := isFavoriteLocked c.style.selectedStyle c }

/-- The style that `delta` leads to. -/
def shiftedStyle (style delta : Int) : Int :=
  let r := (style + delta).tmod presetCount
  if r < 0 then r + presetCount else r

def filterPresetIndex (styleIndex : Int) : Int :=
  let styleIndex := if styleIndex < 0 then 0 else styleIndex
  if styleIndex ≥ presetCount then presetCount - 1 else styleIndex

def changeStyle (delta : Int) (c : Screen) : Screen :=
  if delta = 0 then c
  else
    let style := shiftedStyle c.style.selectedStyle delta
    { selectStyle style c with
      filterMetrics :=
        { (selectStyle style c).filterMetrics with selectedPreset := filterPresetIndex style } }

def setFocus (active : Bool) (c : Screen) : Screen :=
  { c with focusActive := active, filterMetrics.focusActive := active }

/-- The first section of `configureStorage`: only the first definite status counts. -/
def configureStorage (status : StorageProbeStatus) (slot : JobSlot) : JobSlot :=
  if slot.storageConfigured then slot
  else { slot with initialStorageStatus := status, storageConfigured := status ≠ .initializing }

/-- Its second section. -/
def noteAttempts (attempts : Int) (c : Screen) : Screen :=
  { c with filterMetrics.photoStorageAttempts := if attempts < 0 then 0 else attempts }

/-- The JPEG may be null. -/
def submitJpeg (jpeg : Option Bytes) (timestampMs : Int64) (c : Screen) :
    FilterSubmitStatus × Screen :=
  match jpeg with
  | none => (.invalid, c)
  | some jpeg =>
    if jpeg.length < 4 ∨ jpeg.length > kFilterProbeInputCapacity ∨ timestampMs ≤ 0 then
      (.invalid, c)
    else if c.running = false then (.invalid, c)
    else if c.intake.inputPending = true ∨ c.intake.inputInUse = true then
      (.busyDropped, { c with filterMetrics.droppedFrames := c.filterMetrics.droppedFrames + 1 })
    else
      (.accepted, { c with
        intake.jpeg := jpeg
        intake.jpegTimestampMs := timestampMs
        intake.inputPending := true
        filterMetrics.acceptedFrames := c.filterMetrics.acceptedFrames + 1 })

end RetroLens.Worker
