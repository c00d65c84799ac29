import RetroLens.Worker.State

/-!
# Styles

The helpers that select a style, change its parameters and keep the favorites
and the recent styles, and what a capture puts over a filtered frame.
-/

namespace RetroLens.Worker

open Text RetroLens.Core Store

def clampValue (value minimum maximum : Int) : Int :=
  if value < minimum then minimum else if value > maximum then maximum else value

/-! ## The capture texture -/

/-- The texture over one pixel. -/
def texture (preset : Preset) (x y : Nat) (pixel : Pixel) : Pixel :=
  let c := pixel.rgb
  let c := if preset.has fxScanlines ∧ y % 2 = 1 then c.map fun v => (v * 78).tdiv 100 else c
  let c : Rgb :=
    if preset.has fxMask then
      ⟨(c.r * if x % 3 = 0 then 100 else 84).tdiv 100, (c.g * if x % 3 = 1 then 100 else 84).tdiv 100,
        (c.b * if x % 3 = 2 then 100 else 84).tdiv 100⟩
    else c
  let c :=
    if preset.has fxVignette then
      let dx : Int := x * 2 - kFrameWidth
      let dy : Int := y * 2 - kFrameHeight
      let distance := dx * dx + dy * dy
      let shade := clampValue (110 - (distance * 35).tdiv
        (kFrameWidth * kFrameWidth + kFrameHeight * kFrameHeight)) 65 100
      c.map fun v => (v * shade).tdiv 100
    else c
  ⟨UInt8.ofNat (clampValue c.r 0 255).toNat, UInt8.ofNat (clampValue c.g 0 255).toNat,
    UInt8.ofNat (clampValue c.b 0 255).toNat⟩

def applyCaptureTexture (frame : Frame) (preset : Preset) : Frame :=
  ⟨frame.pixels.mapIdx fun i p => texture preset (i % kFrameWidth) (i / kFrameWidth) p,
    by rw [List.length_mapIdx, frame.size]⟩

/-! ## Parameters -/

/-- An element of an `adjustments_` row. -/
def adjustmentAt (a : Adjustments) (index : Nat) : Int :=
  if index = 0 then a.contrast else if index = 1 then a.grain else a.motion

def setAdjustment (a : Adjustments) (index : Nat) (value : Int) : Adjustments :=
  if index = 0 then { a with contrast := value }
  else if index = 1 then { a with grain := value }
  else { a with motion := value }

/-- The least value, the greatest value and the step of each adjustment. -/
def adjustmentRange (index : Nat) : Int × Int × Int :=
  if index = 0 then (-40, 40, 5) else if index = 1 then (-20, 20, 2) else (-30, 30, 5)

def Style.parameterValue (s : Style) : Int :=
  if s.parameterIndex = 0 then s.intensity
  else adjustmentAt (s.adjustments s.selectedStyle) (s.parameterIndex - 1)

/-- `adjustedPresetLocked`, with the row of adjustments it looks up. -/
def adjustedPreset (presetIndex : Int) (a : Adjustments) : Preset :=
  let result := presetAt presetIndex
  { result with
    contrast := clampValue (result.contrast + a.contrast) (-100) 100
    noise := clampValue (result.noise + a.grain) 0 100
    temporal := clampValue (result.temporal + a.motion) 0 100 }

def adjustedPresetLocked (presetIndex : Int) (c : Screen) : Preset :=
  adjustedPreset presetIndex (c.style.adjustments presetIndex)

def adjustParameterLocked (direction : Int) (c : Screen) : Screen :=
  let style : Style :=
    if c.style.parameterIndex = 0 then
      { c.style with intensity := clampValue (c.style.intensity + direction * 5) 0 100 }
    else
      let index := c.style.parameterIndex - 1
      let row := c.style.adjustments c.style.selectedStyle
      let (minimum, maximum, step) := adjustmentRange index
      let value := clampValue (adjustmentAt row index + direction * step) minimum maximum
      { c.style with
        adjustments :=
          Function.update c.style.adjustments c.style.selectedStyle (setAdjustment row index value) }
  { c with
    style
    filterMetrics.intensity :=
      if c.style.parameterIndex = 0 then style.intensity else c.filterMetrics.intensity
    filterMetrics.parameterValue := style.parameterValue
    intake.styleDirty := c.intake.hasRaw
    settingsDirty := true }

/-- The settings as they stand; the motion setting has only one value. -/
def settingsLocked (c : Screen) : RuntimeSettings :=
  { selectedPreset := c.style.selectedStyle, intensity := c.style.intensity
    favoritesLo := c.style.favoritesLo, favoritesHi := c.style.favoritesHi
    recent := c.style.recent, adjustments := c.style.adjustments, motion := 2
    diagnostics := c.diagnostics }

/-! ## Favorites and recent styles -/

def isFavorite (presetIndex : Int) (s : Style) : Bool :=
  if presetIndex < 0 ∨ presetIndex ≥ presetCount then false
  else if presetIndex < 64 then s.favoritesLo &&& (1 <<< UInt64.ofInt presetIndex) != 0
  else s.favoritesHi &&& (1 <<< UInt64.ofInt (presetIndex - 64)) != 0

def isFavoriteLocked (presetIndex : Int) (c : Screen) : Bool := isFavorite presetIndex c.style

def toggleFavoriteLocked (c : Screen) : Screen :=
  let selected := c.style.selectedStyle
  let style : Style :=
    if selected < 64 then
      { c.style with favoritesLo := c.style.favoritesLo ^^^ (1 <<< UInt64.ofInt selected) }
    else
      { c.style with favoritesHi := c.style.favoritesHi ^^^ (1 <<< UInt64.ofInt (selected - 64)) }
  { c with style, filterMetrics.favorite := isFavorite selected style, settingsDirty := true }

/-- The last place that holds the preset. -/
def lastIndexOf (presetIndex : Int) (recent : List Int) : Option Nat :=
  (recent.reverse.findIdx? (· = presetIndex)).map fun i => recent.length - 1 - i

/-- Move the preset to the front, or put it there and drop the last of a full list. -/
def recordRecent (presetIndex : Int) (recent : List Int) : List Int :=
  match lastIndexOf presetIndex recent with
  | some existing => presetIndex :: recent.eraseIdx existing
  | none => presetIndex :: recent.take (min (recent.length + 1) kRecentPresetCount - 1)

/-! ## Selecting -/

/-- A style becomes the selected one. -/
def selectStyle (style : Int) (c : Screen) : Screen :=
  let s : Style :=
    { c.style with selectedStyle := style, recent := recordRecent style c.style.recent }
  { c with
    style := s
    filterMetrics.selectedPreset := style
    filterMetrics.parameterValue := s.parameterValue
    filterMetrics.styleChanges := c.filterMetrics.styleChanges + 1
    intake.styleDirty := c.intake.hasRaw
    settingsDirty := true }

/-- The style `direction` steps away, around the catalogue. -/
def neighbour (style direction : Int) : Int := (style + direction + presetCount).tmod presetCount

/-- The loop of `changeCategoryLocked`: on to the next category, or once around. -/
def nextCategory (category : Category) (selected direction : Int) : Nat → Int → Int
  | 0, candidate => candidate
  | n + 1, candidate =>
    let candidate := neighbour candidate direction
    if category = (presetAt candidate).category ∧ candidate ≠ selected then
      nextCategory category selected direction n candidate
    else candidate

def changeCategoryLocked (direction : Int) (c : Screen) : Screen :=
  let selected := c.style.selectedStyle
  let style := nextCategory (presetAt selected).category selected direction presets.length selected
  let c := selectStyle style c
  { c with filterMetrics.favorite := isFavoriteLocked style c }

/-- The bound of the loop is never what ends it. -/
theorem nextCategory_stops (direction : Int) (hd : direction = 1 ∨ direction = -1) (i : Fin 70) :
    let r := nextCategory (presetAt i).category i direction presets.length i
    (presetAt i).category ≠ (presetAt r).category ∨ r = i := by
  have h : ∀ d ∈ [(1 : Int), -1], ∀ i : Fin 70,
      let r := nextCategory (presetAt i).category i d presets.length i
      (presetAt i).category ≠ (presetAt r).category ∨ r = i := by decide +kernel
  exact h direction (by simpa using hd) i

end RetroLens.Worker
