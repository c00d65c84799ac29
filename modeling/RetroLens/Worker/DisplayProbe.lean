import RetroLens.Camera.SequenceMetrics
import RetroLens.Lib.Arith
import RetroLens.Worker.State

/-!
# The display probe

`renderDisplayProbe` and the drawing functions below it, with checked `int`
arithmetic and with bounds on the screen and on the frames that it shows. A
`Draw` is a statement that may write the screen; `none` is a run with undefined
behaviour.
-/

namespace RetroLens.Display

open Text RetroLens.Core Checked
open Camera.SequenceMetrics (SequenceProbeMetrics)

/-! ## Texts and glyphs -/

/-- The names of the presets, in the order of `presets`. -/
def presetNames : List String := [
  "Olive Pocket", "Silver Pocket", "Virtual Red", "Dot Matrix Toy", "Calculator Vision",
  "Pocket Color", "One-Bit Desktop", "CGA Shock", "EGA Sixteen", "VGA Sixteen", "Amber Terminal",
  "Green Terminal", "Teletext", "ANSI Camera", "ASCII Mono", "ASCII Color", "Braille Mosaic",
  "Eight-Bit Summer", "Sixteen-Bit Arcade", "Arcade Cabinet", "Composite Console",
  "RF Channel Three", "Consumer CRT", "Aperture Grille", "Shadow Mask", "Late-Night Broadcast",
  "NTSC Composite", "PAL Ghost", "SECAM State TV", "VHS Rental", "Damaged VHS", "Video8 Family",
  "Hi8 Vacation", "MiniDV 2002", "Early Webcam", "CCTV 1996", "Night Security", "Super Eight",
  "Sixteen-Millimeter News", "Soviet Archive 1978", "State Archive Color", "Cosmonaut Tape",
  "Expired Slide", "Bleach Bypass", "Cross Process", "Orthochromatic", "Cyanotype", "Newsprint",
  "CMYK Misprint", "Risograph", "Manga Screen", "Photocopier", "Thermal Receipt", "Pencil Draft",
  "Comic Ink", "JPEG Hell", "Databent Preview", "Frame Echo", "Signal Tear", "Pixel Sort",
  "Piss Filter 2007", "Brown Apocalypse", "Teal-Orange Blockbuster", "Green Code",
  "Blue Sci-Fi 2004", "Bloom Shooter", "Thermal False Color", "Infrared False Color",
  "Edge Scanner", "Blueprint"]

/-- `presetAt(index).name`. -/
def presetName (index : Int) : Bytes :=
  let index := if index < 0 then 0 else index
  let index := if index ≥ presetCount then presetCount - 1 else index
  ascii (presetNames.getD index.toNat "")

def categoryText : Category → String
  | .handheld => "Handheld"
  | .computer => "Computer"
  | .console => "Console"
  | .analogTV => "Analog TV"
  | .tape => "Tape"
  | .film => "Film"
  | .archive => "Archive"
  | .print => "Print"
  | .digitalDecay => "Digital Decay"
  | .gameEra => "Game Era"
  | .experimental => "Experimental"

def kGlyphs : List (List Nat) := [
  [14, 17, 17, 31, 17, 17, 17], [30, 17, 17, 30, 17, 17, 30], [14, 17, 16, 16, 16, 17, 14],
  [30, 17, 17, 17, 17, 17, 30], [31, 16, 16, 30, 16, 16, 31], [31, 16, 16, 30, 16, 16, 16],
  [14, 17, 16, 23, 17, 17, 15], [17, 17, 17, 31, 17, 17, 17], [31, 4, 4, 4, 4, 4, 31],
  [7, 2, 2, 2, 18, 18, 12], [17, 18, 20, 24, 20, 18, 17], [16, 16, 16, 16, 16, 16, 31],
  [17, 27, 21, 21, 17, 17, 17], [17, 25, 21, 19, 17, 17, 17], [14, 17, 17, 17, 17, 17, 14],
  [30, 17, 17, 30, 16, 16, 16], [14, 17, 17, 17, 21, 18, 13], [30, 17, 17, 30, 20, 18, 17],
  [15, 16, 16, 14, 1, 1, 30], [31, 4, 4, 4, 4, 4, 4], [17, 17, 17, 17, 17, 17, 14],
  [17, 17, 17, 17, 17, 10, 4], [17, 17, 17, 21, 21, 21, 10], [17, 17, 10, 4, 10, 17, 17],
  [17, 17, 10, 4, 4, 4, 4], [31, 1, 2, 4, 8, 16, 31], [14, 17, 19, 21, 25, 17, 14],
  [4, 12, 4, 4, 4, 4, 14], [14, 17, 1, 2, 4, 8, 31], [30, 1, 1, 14, 1, 1, 30],
  [2, 6, 10, 18, 31, 2, 2], [31, 16, 30, 1, 1, 17, 14], [6, 8, 16, 30, 17, 17, 14],
  [31, 1, 2, 4, 8, 8, 8], [14, 17, 17, 14, 17, 17, 14], [14, 17, 17, 15, 1, 2, 12]]

/-- The rows of the glyph of a letter or a digit. -/
def glyph (value : UInt8) : Option (List Nat) :=
  let value := if 97 ≤ value ∧ value ≤ 122 then value - 97 + 65 else value
  if 65 ≤ value ∧ value ≤ 90 then kGlyphs[(value - 65).toNat]?
  else if 48 ≤ value ∧ value ≤ 57 then kGlyphs[26 + (value - 48).toNat]?
  else none

/-! ## Drawing -/

variable {n : Nat}

/-- The 16-bit pixels of the screen. -/
abbrev Canvas (n : Nat) := Buffer UInt16 n

abbrev Draw (n : Nat) := Canvas n → Option (Canvas n)

/-- One statement after the other. -/
def draws (l : List (Draw n)) : Draw n := fun pixels => l.foldlM (fun pixels d => d pixels) pixels

def drawIf (c : Prop) [Decidable c] (d : Draw n) : Draw n := if c then d else some

/-- `for (int i = first; i < last; i++)`. -/
def span (first last : Int) (body : Int → Draw n) : Draw n :=
  loop (last - first).toNat fun i => body (first + i)

def pixel (width height x y : Int) (color : UInt16) : Draw n := fun pixels =>
  if 0 ≤ x ∧ x < width ∧ 0 ≤ y ∧ y < height then do
    pixels.set (← add (← mul y width) x) color
  else some pixels

/-- The bounds are clipped in 64 bits. -/
def rectangle (width height left top right bottom : Int) (color : UInt16) : Draw n :=
  let boundedLeft := if left < 0 then 0 else left
  let boundedTop := if top < 0 then 0 else top
  let boundedRight := if right > width then width else right
  let boundedBottom := if bottom > height then height else bottom
  span boundedTop boundedBottom fun y => span boundedLeft boundedRight fun x pixels => do
    pixels.set (← add (← mul y width) x) color

/-- The set bits of a glyph's rows. -/
def drawGlyph (width height x y : Int) (rows : List Nat) (color : UInt16) : Draw n :=
  span 0 7 fun row => span 0 5 fun column =>
    drawIf ((rows.getD row.toNat 0).testBit (4 - column).toNat) fun pixels => do
      pixel width height (← add x column) (← add y row) color pixels

def drawCharacter (width height x y : Int) (character : UInt8) (color : UInt16) : Draw n :=
  match glyph character with
  | some rows => drawGlyph width height x y rows color
  | none => some

def text (width height x y : Int) (value : Bytes) (color : UInt16) : Draw n := fun pixels =>
  match value with
  | [] => some pixels
  | character :: rest => do
    let pixels ← drawCharacter width height x y character color pixels
    let x ← add x 6
    if (← add x 5) ≥ width then return pixels
    else text width height x y rest color pixels

def shadowedText (width height x y : Int) (value : Bytes) (color shadow : UInt16) : Draw n :=
  fun pixels => do
    let pixels ← text width height (← add x 1) (← add y 1) value shadow pixels
    text width height x y value color pixels

def probeRgb565 (red green blue : Int) : UInt16 :=
  (UInt16.ofNat ((clamp8 red).toNat >>> 3) <<< 11) |||
    (UInt16.ofNat ((clamp8 green).toNat >>> 2) <<< 5) ||| UInt16.ofNat ((clamp8 blue).toNat >>> 3)

def background : UInt16 := probeRgb565 13 17 18
def warm : UInt16 := probeRgb565 239 232 211
def accent : UInt16 := probeRgb565 66 232 188
def alarm : UInt16 := probeRgb565 255 150 110

/-! ## The metrics -/

/-- The fields of `FilterProbeMetrics` that are drawn. -/
structure FilterProbeMetrics where
  hasFrame : Bool
  decodeError : Bool
  droppedFrames : Int32
  decodeFailures : Int32
  decodeMs : Int32
  filterMs : Int32
  processedFpsTenths : Int32
  selectedPreset : Int32
  parameterIndex : Int32
  parameterValue : Int32
  scene : Int32
  controlsVisible : Bool
  compare : Bool
  favorite : Bool
  focusActive : Bool
  photoStatus : Int32
  photoSavedCount : Int32
  photoFailedCount : Int32
  galleryPhotoCount : Int32
  galleryIndex : Int32
  galleryPreset : Int32
  galleryHasThumbnail : Bool
  photoStorageState : Int32
  photoStorageAttempts : Int32
  photoWriteStage : Int32
  photoWriteError : Int32
  deriving DecidableEq, Repr

def kPhotoSceneControls : Int32 := 1
def kPhotoSceneBrowser : Int32 := 2
def kPhotoSceneGallery : Int32 := 3
def kPhotoSceneDiagnostics : Int32 := 4
def kPhotoSceneDeleteConfirm : Int32 := 5

/-- `%d`. -/
def int32Text (value : Int32) : Bytes := decimal value.toInt

/-- The kibibytes of a frame, rounded up. -/
def kibibytes (sequence : SequenceProbeMetrics) : Option Int := do
  div (← add sequence.lastJpegBytes 1023) 1024

/-- `%d.%d` of tenths. -/
def tenthsText (tenths : Int) : Option Bytes := do
  return decimal (← div tenths 10) ++ ascii "." ++ decimal (← mod tenths 10)

/-- The arguments of `renderDisplayProbe` that it reads, and what it computes first. -/
structure Scene where
  width : Int
  height : Int
  frameNumber : Int
  sequence : SequenceProbeMetrics
  original : Option Frame
  filtered : Option Frame
  galleryThumbnail : Option Frame
  filter : FilterProbeMetrics

namespace Scene

variable (c : Scene)

def galleryScene : Bool :=
  c.filter.scene == kPhotoSceneGallery || c.filter.scene == kPhotoSceneDeleteConfirm

def fullFrame : Option Frame :=
  if c.galleryScene then (if c.filter.galleryHasThumbnail then c.galleryThumbnail else none)
  else if c.filter.hasFrame then c.filtered else none

def rectangle (left top right bottom : Int) (color : UInt16) : Draw n :=
  Display.rectangle c.width c.height left top right bottom color

def text (x y : Int) (value : Bytes) (color : UInt16) : Draw n :=
  Display.text c.width c.height x y value color

def drawerWidth : Int := 150

def label : Bytes := (presetName c.filter.selectedPreset.toInt).take 19

/-! ## The pages -/

def readPixel (frame : Frame) (i : Int) : Option Pixel :=
  if 0 ≤ i then frame.pixels[i.toNat]? else none

/-- The frame over the whole screen, its left half from the original when they are compared. -/
def frameArea (fullFrame : Frame) : Draw n :=
  span 0 c.height fun y pixels => do
    let sourceY ← div (← mul y kFrameHeight) c.height
    span 0 c.width (fun x pixels => do
      let sourceX ← div (← mul x kFrameWidth) c.width
      let half ← div c.width 2
      let shown := if !c.galleryScene && c.filter.compare && decide (x < half) then
        c.original.getD fullFrame else fullFrame
      let source ← readPixel shown (← add (← mul sourceY kFrameWidth) sourceX)
      pixels.set (← add (← mul y c.width) x)
        (probeRgb565 source.r.toNat source.g.toNat source.b.toNat)) pixels

def galleryPage : Draw n := draws [
  c.rectangle 0 0 c.width 14 background,
  shadowedText c.width c.height 3 3 (ascii "PHOTO GALLERY") accent background,
  if c.filter.galleryPhotoCount ≤ 0 then c.text 72 82 (ascii "NO RETRO PHOTOS") warm
  else if c.galleryThumbnail.isSome && c.filter.galleryHasThumbnail then fun pixels => do
    let shown := decimal (← add c.filter.galleryIndex.toInt 1)
    let count := (shown ++ ascii "/" ++ int32Text c.filter.galleryPhotoCount).take 23
    c.text 204 3 count warm pixels
  else c.text 99 82 (ascii "LOADING") accent,
  c.rectangle 0 151 c.width c.height background,
  drawIf (c.filter.galleryPhotoCount > 0) (draws [
    c.text 3 155 ((presetName c.filter.galleryPreset.toInt).take 23) accent,
    c.text 132 155 (ascii "PROCESSED 320X240") warm]),
  if c.filter.scene = kPhotoSceneDeleteConfirm then
    c.text 3 170 (ascii "CENTER DELETE    BACK CANCEL") alarm
  else c.text 3 170 (ascii "LEFT RIGHT       BACK DELETE") warm]

def kParameters : List String := ["INTENSITY", "CONTRAST", "GRAIN", "MOTION"]

def parameterText : Option Bytes := do
  let index := c.filter.parameterIndex.toInt
  let name ← (if 0 ≤ index then kParameters[index.toNat]? else none : Option String)
  return (ascii name ++ ascii " " ++ int32Text c.filter.parameterValue).take 23

/-- The length of the parameter's bar. -/
def bar : Option Int :=
  (if c.filter.parameterIndex = 0 then some c.filter.parameterValue.toInt
    else add 50 c.filter.parameterValue.toInt).map fun bar =>
      if bar < 0 then 0 else if bar > 100 then 100 else bar

def controlsPage : Draw n := draws [
  c.rectangle 0 0 drawerWidth c.height background,
  c.text 3 3 (ascii "QUICK CONTROL") accent,
  c.text 3 17 c.label warm,
  fun pixels => do
    c.text 3 34 (← c.parameterText) warm pixels,
  c.rectangle 3 47 107 54 (probeRgb565 48 55 57),
  fun pixels => do
    c.rectangle 3 47 (← add 3 (← c.bar)) 54 accent pixels,
  c.text 3 62 (ascii "UP DOWN SELECT") warm,
  c.text 3 166 (ascii "CENTER CLOSE") accent]

def browserPage : Draw n := draws [
  c.rectangle 0 0 drawerWidth c.height background,
  c.text 3 3 (ascii "STYLE BROWSER") accent,
  span (-2) 3 fun row pixels => do
    let selected ← add (← add c.filter.selectedPreset.toInt row) presetCount
    let index ← mod selected presetCount
    let y ← add 18 (← mul (← add row 2) 14)
    c.text 3 y ((presetName index).take 17) (if row = 0 then accent else warm) pixels]

def diagnosticsPage (outstanding : Int) : Draw n := draws [
  c.rectangle 0 0 drawerWidth c.height background,
  c.text 3 3 (ascii "DIAGNOSTICS") accent,
  fun pixels => do
    let fps ← tenthsText c.filter.processedFpsTenths.toInt
    let line := ascii "FPS " ++ fps ++ ascii " D" ++ int32Text c.filter.decodeMs ++ ascii " F" ++
      int32Text c.filter.filterMs
    c.text 3 18 (line.take 31) warm pixels,
  c.text 3 33 ((ascii "RX " ++ decimal c.sequence.receivedFrames ++ ascii " REL " ++
    decimal c.sequence.releasedFrames ++ ascii " OUT " ++ decimal outstanding).take 31) warm,
  fun pixels => do
    let line := ascii "DROP " ++ int32Text c.filter.droppedFrames ++ ascii " JPEG " ++
      decimal (← kibibytes c.sequence) ++ ascii "K"
    c.text 3 48 (line.take 31) warm pixels,
  c.text 3 63 ((ascii "SAVE " ++ int32Text c.filter.photoSavedCount ++ ascii " FAIL " ++
    int32Text c.filter.photoFailedCount).take 31) warm,
  c.text 3 78 ((ascii "CARD J" ++ int32Text c.filter.photoStorageAttempts ++ ascii " S" ++
    int32Text c.filter.photoStorageState ++ ascii " W" ++ int32Text c.filter.photoWriteStage ++
    ascii " E" ++ int32Text c.filter.photoWriteError).take 31)
    (if c.filter.photoStorageState = 1 ∨ c.filter.photoStorageState = 7 then accent else alarm),
  c.text 3 166 (ascii "FN CLOSE") accent]

def cameraPage : Draw n := draws [
  c.rectangle 0 0 c.width 12 background,
  c.text 2 2 c.label accent,
  drawIf c.filter.favorite (c.text 226 2 (ascii "F") warm),
  c.rectangle 0 158 c.width c.height background,
  c.text 2 163 (ascii (categoryText (presetAt c.filter.selectedPreset.toInt).category)) warm,
  c.text 132 163 (ascii "< STYLE > CENTER") accent,
  drawIf c.filter.focusActive (c.text 204 17 (ascii "FOCUS") accent)]

def photoMessage : Option String :=
  let status := c.filter.photoStatus
  let storage := c.filter.photoStorageState
  if status = 1 then some "SAVING PHOTO"
  else if status = 2 then some "RETRO PHOTO SAVED"
  else if status = 3 then some "PHOTO SAVE FAILED"
  else if status = 4 then some "PHOTO WRITER BUSY"
  else if status = 6 then some "PHOTO DELETED"
  else if status = 7 then some "PHOTO ONLY - VIDEO OFF"
  else if status = 8 then
    if storage = 3 then some "RETRO FOLDER FAILED"
    else if storage = 4 then some "RETRO CARD LOW SPACE"
    else if storage = 5 then some "RETRO INDEX FAILED"
    else if storage = 6 then some "RETRO WRITE TEST FAILED"
    else if storage = 7 then some "RETRO STORAGE STARTING"
    else some "RETRO CARD NOT READY"
  else if status = 9 then some "RETRO FRAME NOT READY"
  else none

def messageBox (message : String) : Draw n := draws [
  c.rectangle 30 78 210 94 background,
  c.text 35 82 (ascii message)
    (if c.filter.photoStatus = 3 ∨ c.filter.photoStatus = 8 ∧ c.filter.photoStorageState ≠ 7
      then alarm else accent)]

def warningBox (imbalance : Bool) : Draw n := draws [
  c.rectangle 30 62 210 96 background,
  c.text 55 75 (if imbalance then ascii "BUFFER IMBALANCE" else ascii "DECODE ERROR") alarm]

/-- A mark of the focus frame: its edges as distances from the center. -/
def focusMark (left top right bottom : Int) : Draw n := fun pixels => do
  let centerX ← div c.width 2
  let centerY ← div c.height 2
  c.rectangle (← add centerX left) (← add centerY top) (← add centerX right)
    (← add centerY bottom) accent pixels

/-- What is drawn over a frame or in the gallery. -/
def framePage (outstanding : Int) (imbalance : Bool) : Draw n := draws [
  match c.fullFrame with
  | some fullFrame => c.frameArea fullFrame
  | none => some,
  if c.galleryScene then c.galleryPage
  else if c.filter.scene = kPhotoSceneControls then c.controlsPage
  else if c.filter.scene = kPhotoSceneBrowser then c.browserPage
  else if c.filter.scene = kPhotoSceneDiagnostics then c.diagnosticsPage outstanding
  else drawIf c.filter.controlsVisible c.cameraPage,
  drawIf (!c.galleryScene && c.filter.compare) (draws [
    c.text 2 14 (ascii "ORIGINAL") warm,
    fun pixels => do
      c.text (← add (← div c.width 2) 3) 14 (ascii "RETROLENS") accent pixels]),
  match c.photoMessage with
  | some message => drawIf (!c.galleryScene) (c.messageBox message)
  | none => some,
  drawIf (imbalance || c.filter.decodeError) (c.warningBox imbalance),
  drawIf (!c.galleryScene && c.filter.focusActive) (draws [
    c.focusMark (-18) (-12) (-8) (-11), c.focusMark 8 (-12) 18 (-11),
    c.focusMark (-18) 11 (-8) 12, c.focusMark 8 11 18 12])]

def bars : List UInt16 := [probeRgb565 239 232 211, probeRgb565 66 232 188,
  probeRgb565 229 91 112, probeRgb565 244 193 74, probeRgb565 89 132 212, probeRgb565 171 112 205]

def barLeft : Int := 9

def barRight : Option Int := if c.width > 120 then some 111 else sub c.width 9

def barWidth (barRight : Int) : Option Int :=
  if barRight > barLeft then (sub barRight barLeft).bind fun room => div room 6 else some 0

/-- The last bar ends where all of them do. -/
def barEnd (barRight barWidth index : Int) : Option Int :=
  if index = 5 then some barRight
  else do add barLeft (← mul (← add index 1) barWidth)

def colorBars : Draw n := fun pixels => do
  let barRight ← c.barRight
  let barWidth ← barWidth barRight
  span 0 6 (fun index pixels => do
    let left ← add barLeft (← mul index barWidth)
    let right ← barEnd barRight barWidth index
    c.rectangle left 7 right 25 (bars.getD index.toNat 0) pixels) pixels

def stateText : String :=
  if c.filter.decodeError then "DECODE ERROR"
  else if c.sequence.state = Camera.SequenceMetrics.sequenceStarting then "SEQUENCE STARTING"
  else if c.sequence.state = Camera.SequenceMetrics.sequenceActive then "SEQUENCE ACTIVE"
  else if c.sequence.state = Camera.SequenceMetrics.sequenceError then "SEQUENCE ERROR"
  else if c.sequence.state = Camera.SequenceMetrics.sequenceStopping then "SEQUENCE STOPPING"
  else "SEQUENCE OFF"

def analytical : Option Bytes := do
  let kib := decimal (← kibibytes c.sequence)
  if c.filter.decodeError then
    return ascii "DECODE FAIL " ++ int32Text c.filter.decodeFailures ++ ascii " JPEG " ++ kib ++
      ascii "K"
  else
    return ascii "FPS " ++ (← tenthsText c.sequence.fpsTenths) ++ ascii " JPEG " ++ kib ++
      ascii "K"

def statusTexts (outstanding : Int) (imbalance : Bool) : Draw n := draws [
  c.text 4 30 ((ascii "PHOTO ENGINE F" ++ decimal c.frameNumber).take 63) accent,
  c.text 4 45 (ascii (if imbalance then "BUFFER IMBALANCE" else c.stateText))
    (if imbalance ∨ c.sequence.state = Camera.SequenceMetrics.sequenceError ∨ c.filter.decodeError
      then alarm else warm),
  c.text 4 60 ((ascii "RX " ++ decimal c.sequence.receivedFrames ++ ascii " REL " ++
    decimal c.sequence.releasedFrames ++ ascii " OUT " ++ decimal outstanding).take 63) warm,
  fun pixels => do
    c.text 4 75 ((← c.analytical).take 63) accent pixels]

def sweepWidth : Option Int := if c.width > 120 then some 116 else sub c.width 4

/-- The remainder is taken in `unsigned`, and cast to `int` it keeps its 32 bits. -/
def sweepOffset (sweepWidth : Int) : Option Int :=
  let divisor := UInt32.ofInt sweepWidth
  if divisor = 0 then none
  else some (UInt32.ofInt c.frameNumber * 7 % divisor).toInt32.toInt

def sweepBar : Draw n := fun pixels => do
  let sweep ← add 2 (← c.sweepOffset (← c.sweepWidth))
  c.rectangle sweep 86 (← add sweep 2) 90 warm pixels

def borderLeft : Option Int := if c.width > 120 then some 118 else sub c.width 2

def border : Draw n := draws [
  c.rectangle 0 0 c.width 2 accent,
  c.rectangle 0 88 (if c.width > 120 then 120 else c.width) 90 accent,
  c.rectangle 0 0 2 (if c.height > 90 then 90 else c.height) accent,
  fun pixels => do
    c.rectangle (← c.borderLeft) 0 (if c.width > 120 then 120 else c.width)
      (if c.height > 90 then 90 else c.height) accent pixels]

/-- The page before the first frame. -/
def idlePage (outstanding : Int) (imbalance : Bool) : Draw n := draws [
  c.colorBars, c.statusTexts outstanding imbalance, c.sweepBar, c.border]

def page (outstanding : Int) : Draw n :=
  let imbalance := outstanding < 0 || outstanding > 1
  if c.filter.hasFrame || c.galleryScene then c.framePage outstanding imbalance
  else c.idlePage outstanding imbalance

/-- `renderDisplayProbe`: the result and the screen. The screen's pointer is not null. -/
def renderDisplayProbe (pixels : Canvas n) : Option (Bool × Canvas n) :=
  if c.width ≤ 0 ∨ c.height ≤ 0 then some (false, pixels)
  else do
    let pixels ← c.rectangle 0 0 c.width c.height background pixels
    let outstanding ← sub c.sequence.receivedFrames c.sequence.releasedFrames
    return (true, ← c.page outstanding pixels)

end Scene

end RetroLens.Display
