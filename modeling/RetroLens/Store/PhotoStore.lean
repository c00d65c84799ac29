import RetroLens.Core.JpegEncoder
import RetroLens.Store.Calls
import RetroLens.Store.Sidecar

/-!
# PhotoStore

The photo store as functions on its fields and on the card. What the platform
answers in one call (outcomes of file calls, free space, clock, directory
listings, the encoder's output) is that call's plan. Files are read back whole.
-/

namespace RetroLens.Store

open Text Disk RetroLens.Core

structure PhotoStore where
  root : Bytes
  model : Bytes
  version : Bytes
  entries : Entries := .empty
  storageState : PhotoStorageState := .notConfigured
  writeStage : PhotoWriteStage := .none
  lastError : Int := 0
  deriving DecidableEq

/-- The constructor; the arguments may be null. -/
def PhotoStore.create (storageRoot cameraModel versionName : Option Bytes) : PhotoStore :=
  { root := (storageRoot.getD []).take 511
    model := (cameraModel.getD (ascii "UNKNOWN")).take 63
    version := (versionName.getD (ascii "1.0.0")).take 31 }

/-- The local time of the wall clock. -/
structure Tm where
  year : Int
  mon : Int
  mday : Int
  hour : Int
  min : Int
  sec : Int
  deriving DecidableEq, Repr

/-- The arguments of `savePhoto` that describe the photo. -/
structure Photo where
  frame : Frame
  presetIndex : Int
  intensity : Int
  adjustments : Adjustments
  favorite : Bool
  timestampMs : Int64
  deriving DecidableEq

def minimumFreeBytes : Int := 64 * 1024 * 1024

/-- `freeBytes` is -1 where `statfs` fails. -/
def insufficientSpace (freeBytes : Int) : Bool := 0 ≤ freeBytes && freeBytes < minimumFreeBytes

/-! ## savePhoto -/

/-- The unlinks of an entry's three files. -/
structure UnlinkPlan where
  photo : Outcome := .done
  sidecar : Outcome := .done
  thumbnail : Outcome := .done
  deriving DecidableEq, Repr

structure SavePlan where
  freeBytes : Int := -1
  encoder : List Pixel → EncoderRun
  wall : Tm
  jpeg : FilePlan := {}
  sidecar : FilePlan := {}
  thumbnail : FilePlan := {}
  index : FilePlan := {}
  undo : UnlinkPlan := {}
  evict : UnlinkPlan := {}

/-- Nearest-neighbour scaling to the photo size. -/
def scaleFrame (frame : Frame) : List Pixel :=
  (List.range kPhotoHeight).flatMap fun y => (List.range kPhotoWidth).map fun x =>
    frame.pixels.getD
      ((y * kFrameHeight / kPhotoHeight) * kFrameWidth + x * kFrameWidth / kPhotoWidth) default

def stem (wall : Tm) (timestampMs : Int64) (presetIndex : Int) : Bytes :=
  (padded 4 (wall.year + 1900) ++ padded 2 (wall.mon + 1) ++ padded 2 wall.mday ++ ascii "_" ++
    padded 2 wall.hour ++ padded 2 wall.min ++ padded 2 wall.sec ++ ascii "_" ++
    padded 3 (timestampMs.toInt.tmod 1000) ++ ascii "_" ++ (presetAt presetIndex).id ++
    ascii "_preview").take 111

def Photo.filename (wall : Tm) (photo : Photo) : Bytes :=
  (stem wall photo.timestampMs photo.presetIndex ++ ascii ".jpg").take 127

def Photo.entry (wall : Tm) (photo : Photo) : PhotoEntry :=
  { timestampMs := photo.timestampMs, presetIndex := photo.presetIndex
    favorite := photo.favorite, filename := photo.filename wall }

/-- The text that goes into the sidecar. -/
def Photo.manifest (s : PhotoStore) (photo : Photo) : Bytes :=
  sidecarText s.model s.version photo.presetIndex photo.intensity photo.adjustments
    photo.favorite photo.timestampMs

abbrev Step := PhotoStore → CardWorld → Bool × PhotoStore × CardWorld

def writeJpeg (f : FilePlan) (filename encoded : Bytes) : Step := fun s w =>
  let final := photoPath filename
  let s := { s with writeStage := .jpeg }
  let o := w.fopen f.fopen final.temporary
  if !o.1 then (false, { s with lastError := o.2.errno }, o.2)
  else
    let r := writeAndReplace f final encoded o.2
    if !r.1 then
      (false, { s with lastError := r.2.errno }, (r.2.unlink f.cleanup final.temporary).2)
    else (true, s, r.2)

def writeSidecar (f : FilePlan) (undo : UnlinkPlan) (filename text : Bytes) : Step := fun s w =>
  let final := sidecarPath filename
  let s := { s with writeStage := .sidecar }
  let o := w.fopen f.fopen final.temporary
  if !o.1 then
    (false, { s with lastError := o.2.errno }, (o.2.unlink undo.photo (photoPath filename)).2)
  else
    let r := closeAndReplace f final text o.2
    if !r.1 then
      let w := (r.2.unlink f.cleanup final.temporary).2
      (false, s, (w.unlink undo.photo (photoPath filename)).2)
    else (true, s, r.2)

def writeThumbnail (f : FilePlan) (undo : UnlinkPlan) (filename : Bytes) (frame : Frame) :
    Step := fun s w =>
  let final := thumbnailPath filename
  let s := { s with writeStage := .thumbnail }
  let o := w.fopen f.fopen final.temporary
  if !o.1 then
    let s := { s with lastError := o.2.errno }
    let w := (o.2.unlink undo.sidecar (sidecarPath filename)).2
    (false, s, (w.unlink undo.photo (photoPath filename)).2)
  else
    let r := writeAndReplace f final frame.bytes o.2
    if !r.1 then
      let w := (r.2.unlink f.cleanup final.temporary).2
      let w := (w.unlink undo.sidecar (sidecarPath filename)).2
      (false, s, (w.unlink undo.photo (photoPath filename)).2)
    else (true, s, r.2)

def saveIndex (f : FilePlan) (s : PhotoStore) (w : CardWorld) : Bool × CardWorld :=
  replaceText f indexPath (indexText s.entries.list) w

/-- Unlink the three files of an entry, the photo last in a rollback. -/
def rollBack (undo : UnlinkPlan) (filename : Bytes) (w : CardWorld) : CardWorld :=
  let w := (w.unlink undo.thumbnail (thumbnailPath filename)).2
  let w := (w.unlink undo.sidecar (sidecarPath filename)).2
  (w.unlink undo.photo (photoPath filename)).2

/-- Unlink the three files of an entry, the photo first; `unlink(photo)` and `errno` after it
say whether the photo is gone. -/
def removeFiles (plan : UnlinkPlan) (filename : Bytes) (w : CardWorld) : Bool × CardWorld :=
  let r := w.unlink plan.photo (photoPath filename)
  let removed := r.1 || r.2.errno == enoent
  let w := (r.2.unlink plan.sidecar (sidecarPath filename)).2
  (removed, (w.unlink plan.thumbnail (thumbnailPath filename)).2)

/-- Take the entry into the index that `saveIndex` writes, or roll its files back. -/
def commitIndexWith (saveIndex : PhotoStore → CardWorld → Bool × CardWorld) (plan : SavePlan)
    (entry : PhotoEntry) : Step := fun s w =>
  let previousEntries := s.entries
  let evicted := s.entries.evicted
  let s := { s with entries := s.entries.addEntry entry, writeStage := .index }
  let r := saveIndex s w
  if !r.1 then
    (false, { s with lastError := r.2.errno, entries := previousEntries },
      rollBack plan.undo entry.filename r.2)
  else
    let w := match evicted with
      | none => r.2
      | some old => (removeFiles plan.evict old.filename r.2).2
    (true, { s with writeStage := .complete }, w)

def commitIndex (plan : SavePlan) (entry : PhotoEntry) : Step :=
  commitIndexWith (saveIndex plan.index) plan entry

/-- The four steps that write, each with the one before it done, over the writers of the texts. -/
def writePhotoWith (writeSidecar : Bytes → Step) (commitIndex : PhotoEntry → Step)
    (plan : SavePlan) (photo : Photo) (encoded : Bytes) : Step := fun s w =>
  let entry := photo.entry plan.wall
  let r := writeJpeg plan.jpeg entry.filename encoded s w
  if !r.1 then r
  else
    let r := writeSidecar entry.filename r.2.1 r.2.2
    if !r.1 then r
    else
      let r := writeThumbnail plan.thumbnail plan.undo entry.filename photo.frame r.2.1 r.2.2
      if !r.1 then r else commitIndex entry r.2.1 r.2.2

def writePhoto (plan : SavePlan) (photo : Photo) (encoded : Bytes) : Step := fun s =>
  let text := photo.manifest s
  writePhotoWith (fun filename => writeSidecar plan.sidecar plan.undo filename text)
    (commitIndex plan) plan photo encoded s

/-- The encoded bytes, if the call gets as far as its first file. -/
def encodePhoto (plan : SavePlan) (photo : Photo) (encodedCapacity : Int) (s : PhotoStore) :
    Option Bytes :=
  if s.storageState ≠ .ready ∨ encodedCapacity ≤ 0 ∨ insufficientSpace plan.freeBytes = true then
    none
  else encodeJpeg (plan.encoder (scaleFrame photo.frame)) encodedCapacity.toNat

/-- `savePhoto` over its four steps, with the encoded size where it succeeds. The buffers are not
null. -/
def savePhotoWith (writePhoto : Bytes → Step) (plan : SavePlan) (photo : Photo)
    (encodedCapacity : Int) (s : PhotoStore) (w : CardWorld) :
    Option Nat × PhotoStore × CardWorld :=
  let s := { s with writeStage := .encode, lastError := 0 }
  match encodePhoto plan photo encodedCapacity s with
  | none =>
    if s.storageState = .ready ∧ 0 < encodedCapacity ∧ insufficientSpace plan.freeBytes = true then
      (none, { s with storageState := .insufficientSpace }, w)
    else (none, s, w)
  | some encoded =>
    let r := writePhoto encoded s w
    (if r.1 then some encoded.length else none, r.2)

def savePhoto (plan : SavePlan) (photo : Photo) (encodedCapacity : Int) (s : PhotoStore)
    (w : CardWorld) : Option Nat × PhotoStore × CardWorld :=
  savePhotoWith (writePhoto plan photo) plan photo encodedCapacity s w

/-! ## Reading and deleting -/

def photoCount (s : PhotoStore) : Nat := s.entries.count

def getPhoto (newestIndex : Int) (s : PhotoStore) : Option PhotoEntry :=
  (s.entries.storageIndex newestIndex).bind fun i => s.entries.list[i]?

def loadThumbnail (newestIndex : Int) (s : PhotoStore) (w : CardWorld) : Option Frame :=
  (getPhoto newestIndex s).bind fun entry =>
    (w.card (thumbnailPath entry.filename)).bind readFrame

structure DeletePlan where
  index : FilePlan := {}
  files : UnlinkPlan := {}
  deriving DecidableEq, Repr

def deletePhoto (plan : DeletePlan) (newestIndex : Int) : Step := fun s w =>
  match s.entries.storageIndex newestIndex with
  | none => (false, s, w)
  | some index =>
    match s.entries.list[index]? with
    | none => (false, s, w)
    | some entry =>
      let s' := { s with entries := s.entries.erase index }
      let r := saveIndex plan.index s' w
      if !r.1 then (false, s, r.2)
      else
        let r := removeFiles plan.files entry.filename r.2
        (r.1, s', r.2)

end RetroLens.Store
