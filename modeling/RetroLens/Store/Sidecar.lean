import RetroLens.Core.Preset

/-!
# The sidecar text

The JSON manifest that `savePhoto` prints next to a photo.
-/

namespace RetroLens.Store

open Text RetroLens.Core

structure Adjustments where
  contrast : Int := 0
  grain : Int := 0
  motion : Int := 0
  deriving DecidableEq, Repr

def kPhotoWidth : Nat := 320
def kPhotoHeight : Nat := 240

/-- `%04x` of a byte below 0x20. -/
def controlEscape (c : UInt8) : Bytes :=
  ascii "\\u00" ++ [hexDigit (c.toNat / 16), hexDigit (c.toNat % 16)]

def jsonEscapeByte (c : UInt8) : Bytes :=
  if c = 34 ∨ c = 92 then [92, c]
  else if c = 10 then ascii "\\n"
  else if c = 13 then ascii "\\r"
  else if c = 9 then ascii "\\t"
  else if c < 0x20 then controlEscape c
  else [c]

def jsonEscape (value : Bytes) : Bytes := 34 :: value.flatMap jsonEscapeByte ++ [34]

def sidecarText (model version : Bytes) (presetIndex intensity : Int) (adjustments : Adjustments)
    (favorite : Bool) (timestampMs : Int64) : Bytes :=
  ascii "\x7b\n  \"type\":\"preview-resolution derivative\",\n  \"preset\":" ++
    jsonEscape (presetAt presetIndex).id ++
    ascii ",\n  \"width\":" ++ decimalNat kPhotoWidth ++
    ascii ",\n  \"height\":" ++ decimalNat kPhotoHeight ++
    ascii ",\n  \"intensity\":" ++ decimal intensity ++
    ascii ",\n  \"contrastAdjustment\":" ++ decimal adjustments.contrast ++
    ascii ",\n  \"grainAdjustment\":" ++ decimal adjustments.grain ++
    ascii ",\n  \"motionAdjustment\":" ++ decimal adjustments.motion ++
    ascii ",\n  \"sourceTimestampMs\":" ++ decimal timestampMs.toInt ++
    ascii ",\n  \"favorite\":" ++ (if favorite then ascii "true" else ascii "false") ++
    ascii ",\n  \"originalPreserved\":true,\n  \"originalPathKnown\":false,\n" ++
    ascii "  \"cameraModel\":" ++ jsonEscape model ++
    ascii ",\n  \"applicationVersion\":" ++ jsonEscape version ++ ascii "\n\x7d\n"

theorem sidecarText_ne_nil (model version : Bytes) (presetIndex intensity : Int)
    (adjustments : Adjustments) (favorite : Bool) (timestampMs : Int64) :
    sidecarText model version presetIndex intensity adjustments favorite timestampMs ≠ [] :=
  List.append_ne_nil_of_right_ne_nil _ (by decide)

end RetroLens.Store
