import RetroLens.Worker.Styles

/-!
# The frame thread

`run` in sections: the turn at the loop's head under `mutex_`, the decoding and
the filter outside it, and the section that takes their outcome in. What the
decoder makes of a JPEG comes with its event, and `processFrame` may be seen
with any number of its pixels written.
-/

namespace RetroLens.Worker

open Text RetroLens.Core Store

/-- What the frame thread works on: `run` touches nothing else. -/
structure FrameView where
  screen : Screen
  frame : FrameThread

/-- What the settings of a call are at the moment. -/
def frameSettings (timestampMs : Int64) (c : Screen) : FilterSettings :=
  let presetIndex := c.filterMetrics.selectedPreset
  { presetIndex, adjustments := c.style.adjustments presetIndex
    preset := adjustedPresetLocked presetIndex c, intensity := c.style.intensity, timestampMs }

def hideControls (now : Int) (c : Screen) : Screen :=
  if c.scene = .camera ∧ c.controlsVisible = true ∧ c.controlsVisibleUntilMs > 0 ∧
      now ≥ c.controlsVisibleUntilMs then
    { c with controlsVisible := false, filterMetrics.controlsVisible := false }
  else c

def expireMessage (now : Int) (c : Screen) : Screen :=
  if c.photoStatus ≠ .saving ∧ c.photoStatus ≠ .loading ∧ c.photoMessageUntilMs > 0 ∧
      now ≥ c.photoMessageUntilMs then
    { c with photoStatus := .idle, photoMessageUntilMs := 0, filterMetrics.photoStatus := .idle }
  else c

/-- The state that `renderNextLocked` changes before it draws. -/
def renderNextLocked (now : Int) (c : Screen) : Screen :=
  let c := expireMessage now (hideControls now c)
  { c with frameCount := if c.frameCount = 0x7fffffff then 0 else c.frameCount + 1 }

/-- From the loop's condition to the next unlock. -/
def runTurn (now : Int) (v : FrameView) : FrameView :=
  let c := v.screen
  if c.running = false then { v with frame.pc := .exited }
  else if c.intake.inputPending then
    { screen :=
        { c with
          intake.inputPending := false
          intake.inputInUse := true
          intake.hasPrevious := if c.intake.styleDirty then false else c.intake.hasPrevious
          intake.styleDirty := false }
      frame :=
        { v.frame with
          pc := .decoding (frameSettings c.intake.jpegTimestampMs c)
            (c.intake.hasPrevious && !c.intake.styleDirty) } }
  else if c.intake.styleDirty && c.intake.hasRaw then
    { screen := { c with intake.styleDirty := false, intake.hasPrevious := false }
      frame :=
        { v.frame with
          pc := .filtering
            { toFilterSettings := frameSettings c.intake.lastDecodedTimestampMs c
              source := v.frame.raw, previous := none } false 0 } }
  else { v with screen := renderNextLocked now c }

/-- `decodeReducedJpeg` leaves `raw` in the buffer, whether it succeeds or not. -/
def decodeDone (ok : Bool) (raw : Frame) (settings : FilterSettings) (usePrevious : Bool)
    (f : FrameThread) : FrameThread :=
  { f with
    raw
    pc :=
      if ok then
        .filtering { toFilterSettings := settings, source := raw
                     previous := if usePrevious then some f.previous else none } true 0
      else .decodeFailed }

/-- The first `n` pixels of `new` over `old`. -/
def overwrite (n : Nat) (new old : Frame) : Frame :=
  ⟨new.pixels.take n ++ old.pixels.drop n, by
    rw [List.length_append, List.length_take, List.length_drop, new.size, old.size]
    omega⟩

/-- The rate over the frames so far, in tenths of a frame a second. -/
def processedFps (frames : Int) (first last : Int) (rate : Int) : Int :=
  if frames > 1 ∧ last > first then
    let fpsTenths := ((frames - 1) * 10000).tdiv (last - first)
    if fpsTenths > 999 then 999 else fpsTenths
  else rate

/-- A new frame is filtered. -/
def frameDone (timestampMs : Int64) (decodeMs filterMs : Int) (c : Screen) : Screen :=
  let first :=
    if c.intake.firstProcessedTimestampMs = 0 then timestampMs
    else c.intake.firstProcessedTimestampMs
  let frames := c.filterMetrics.processedFrames + 1
  { c with
    intake :=
      { c.intake with
        hasPrevious := true
        hasRaw := true
        inputInUse := false
        lastDecodedTimestampMs := timestampMs
        firstProcessedTimestampMs := first
        lastProcessedTimestampMs := timestampMs }
    filterMetrics :=
      { c.filterMetrics with
        decodeMs
        filterMs
        hasFrame := true
        decodeError := false
        processedFrames := frames
        processedFpsTenths :=
          processedFps frames first.toInt timestampMs.toInt c.filterMetrics.processedFpsTenths } }

/-- The last frame is filtered anew. -/
def styleDone (filterMs : Int) (c : Screen) : Screen :=
  { c with
    intake.hasPrevious := true
    filterMetrics.filterMs := filterMs
    filterMetrics.hasFrame := true }

def decodeError (decodeMs filterMs : Int) (c : Screen) : Screen :=
  { c with
    intake.inputInUse := false
    filterMetrics.decodeMs := decodeMs
    filterMetrics.filterMs := filterMs
    filterMetrics.decodeError := true
    filterMetrics.decodeFailures := c.filterMetrics.decodeFailures + 1 }

inductive FrameEvent where
  | turn (now : Int)
  | decoded (ok : Bool) (raw : Frame)
  /-- Some more pixels are written, not all of them. -/
  | wrote (pixels : Nat)
  /-- `processFrame` returns. -/
  | filtered
  | finish (now decodeMs filterMs : Int)

def FrameEvent.run (e : FrameEvent) (v : FrameView) : Option FrameView :=
  match e, v.frame.pc with
  | .turn now, .head => some (runTurn now v)
  | .decoded ok raw, .decoding settings usePrevious =>
    some { v with frame := decodeDone ok raw settings usePrevious v.frame }
  | .wrote pixels, .filtering call input written =>
    if written + pixels < framePixels then
      some { v with
        frame.pc := .filtering call input (written + pixels)
        frame.filtered := overwrite (written + pixels) call.output v.frame.filtered }
    else none
  | .filtered, .filtering call input _ =>
    some { v with frame.pc := .finishing call input, frame.filtered := call.output }
  | .finish now decodeMs filterMs, .finishing call input =>
    let c := if input then frameDone call.timestampMs decodeMs filterMs v.screen
      else styleDone filterMs v.screen
    some { screen := renderNextLocked now c
           frame := { v.frame with pc := .head, previous := v.frame.filtered } }
  | .finish now decodeMs filterMs, .decodeFailed =>
    some { screen := renderNextLocked now (decodeError decodeMs filterMs v.screen)
           frame := { v.frame with pc := .head } }
  | _, _ => none

end RetroLens.Worker
