import RetroLens.Store.Calls
import RetroLens.Store.Sidecar

/-!
# The settings file

`settings.cfg` as `loadSettings` reads it, line by line over defaults, and as
`saveSettings` writes it.
-/

namespace RetroLens.Store

open Text Disk RetroLens.Core

def kRecentPresetCount : Nat := 12

structure RuntimeSettings where
  selectedPreset : Int := 0
  intensity : Int := 100
  favoritesLo : UInt64 := 0
  favoritesHi : UInt64 := 0
  /-- The used entries of the array. -/
  recent : List Int := []
  adjustments : Int → Adjustments := fun _ => {}
  motion : Int := 2
  diagnostics : Bool := false

/-! ## Reading -/

/-- What follows a key at the start of a line. -/
def afterKey (key : String) (line : Bytes) : Option Bytes :=
  if (ascii key).isPrefixOf line then some (line.drop (ascii key).length) else none

/-- The ids of a `recent=` line, as long as there is a place left; `n` bounds their number. -/
def recentIds : Nat → Bytes → List Int → List Int
  | 0, _, recent => recent
  | n + 1, cursor, recent =>
    if cursor = [] ∨ kRecentPresetCount ≤ recent.length then recent
    else
      match cut 44 cursor with
      | none => recent ++ [findPreset cursor]
      | some (id, rest) => recentIds n rest (recent ++ [findPreset id])

/-- `sscanf(line, "%63[^,],%d,%d,%d")` where it reads all four. -/
def scanAdjust (line : Bytes) : Option (Bytes × Int × Int × Int) := do
  let (preset, rest) ← scanUntil 63 44 line
  let (contrast, rest) ← (scanChar 44 rest).bind scanInt
  let (grain, rest) ← (scanChar 44 rest).bind scanInt
  let (motion, _) ← (scanChar 44 rest).bind scanInt
  return (preset, contrast, grain, motion)

def clampedAdjustments (contrast grain motion : Int) : Adjustments :=
  { contrast := clamp (-40) 40 contrast, grain := clamp (-20) 20 grain
    motion := clamp (-30) 30 motion }

def loadLine (settings : RuntimeSettings) (line : Bytes) : RuntimeSettings :=
  let line := trimLine (cstring line)
  if let some v := afterKey "preset=" line then { settings with selectedPreset := findPreset v }
  else if let some v := afterKey "intensity=" line then { settings with intensity := atoi v }
  else if let some v := afterKey "favorites_lo=" line then
    { settings with favoritesLo := strtoullHex v }
  else if let some v := afterKey "favorites_hi=" line then
    { settings with favoritesHi := strtoullHex v }
  else if let some v := afterKey "motion=" line then { settings with motion := atoi v }
  else if let some v := afterKey "diagnostics=" line then
    { settings with diagnostics := atoi v != 0 }
  else if let some v := afterKey "recent=" line then
    { settings with recent := recentIds v.length v settings.recent }
  else if let some v := afterKey "adjust=" line then
    match scanAdjust v with
    | none => settings
    | some (preset, contrast, grain, motion) =>
      { settings with
        adjustments := Function.update settings.adjustments (findPreset preset)
          (clampedAdjustments contrast grain motion) }
  else settings

/-- The settings of the file, or nothing where it cannot be opened. -/
def loadSettings (card : Card Path) : Option RuntimeSettings :=
  (card settingsPath).map fun data =>
    let settings := (fgets 256 data).foldl loadLine {}
    let intensity :=
      if settings.intensity < 0 ∨ settings.intensity > 100 then 100 else settings.intensity
    let motion := if settings.motion < 0 ∨ settings.motion > 2 then 2 else settings.motion
    { settings with intensity, motion }

/-! ## Writing -/

def adjustLine (preset : Int) (a : Adjustments) : Bytes :=
  if a.contrast ≠ 0 ∨ a.grain ≠ 0 ∨ a.motion ≠ 0 then
    ascii "adjust=" ++ (presetAt preset).id ++ ascii "," ++ decimal a.contrast ++ ascii "," ++
      decimal a.grain ++ ascii "," ++ decimal a.motion ++ [10]
  else []

def settingsText (settings : RuntimeSettings) : Bytes :=
  ascii "version=2\npreset=" ++ (presetAt settings.selectedPreset).id ++
    ascii "\nintensity=" ++ decimal settings.intensity ++
    ascii "\nfavorites_lo=" ++ hex settings.favoritesLo.toNat ++
    ascii "\nfavorites_hi=" ++ hex settings.favoritesHi.toNat ++
    ascii "\nmotion=" ++ decimal settings.motion ++
    ascii "\ndiagnostics=" ++ (if settings.diagnostics then [49] else [48]) ++
    ascii "\nrecent=" ++
    List.intercalate (ascii ",")
      ((settings.recent.take kRecentPresetCount).map fun i => (presetAt i).id) ++ [10] ++
    (List.range presets.length).flatMap fun i : Nat => adjustLine i (settings.adjustments i)

def saveSettings (f : FilePlan) (settings : RuntimeSettings) (w : CardWorld) : Bool × CardWorld :=
  replaceText f settingsPath (settingsText settings) w

end RetroLens.Store
