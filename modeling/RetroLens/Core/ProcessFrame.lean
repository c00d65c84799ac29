import RetroLens.Core.Frame
import RetroLens.Core.Preset

/-!
# processFrame

The filter as the core computes it, pixel after pixel in rows: where a pixel is
read, then its effects in the order of the source. Integers are C's `int`, with
division towards zero.
-/

namespace RetroLens.Core

def nextRandom (state : UInt32) : UInt32 :=
  let x := if state = 0 then 0x6d2b79f5 else state
  let x := x ^^^ (x <<< 13)
  let x := x ^^^ (x >>> 17)
  x ^^^ (x <<< 5)

def clamp8 (value : Int) : Int := if value < 0 then 0 else if value > 255 then 255 else value

/-- The channels of a pixel on its way through the effects. -/
structure Rgb where
  r : Int
  g : Int
  b : Int
  deriving DecidableEq, Repr

namespace Rgb

def map (f : Int → Int) (c : Rgb) : Rgb := ⟨f c.r, f c.g, f c.b⟩

def fill (v : Int) : Rgb := ⟨v, v, v⟩

/-- The grey of the channels. -/
def grey (c : Rgb) : Int := (c.r * 77 + c.g * 150 + c.b * 29) >>> (8 : Nat)

def pixel (c : Rgb) : Pixel :=
  ⟨UInt8.ofNat (clamp8 c.r).toNat, UInt8.ofNat (clamp8 c.g).toNat, UInt8.ofNat (clamp8 c.b).toNat⟩

end Rgb

def Pixel.rgb (p : Pixel) : Rgb := ⟨p.r.toNat, p.g.toNat, p.b.toNat⟩

def luma (p : Pixel) : Int := p.rgb.grey

/-! ## The effects -/

/-- The arguments of `processFrame`, with the intensity clamped. -/
structure FilterArgs where
  source : List Pixel
  previous : Option (List Pixel)
  width : Nat
  height : Nat
  preset : Preset
  amount : Int
  seed : UInt32
  timestampMs : Int64

/-- What the effects know of the pixel they work on. -/
structure Site where
  x : Nat
  y : Nat
  /-- The grey of the pixel read. -/
  grey : Int

namespace FilterArgs

def has (a : FilterArgs) (fx : UInt16) : Bool := a.preset.has fx

/-- `pixel`, the edge of a block. -/
def block (a : FilterArgs) : Int :=
  if a.has fxPixelate then (if a.preset.pixelSize < 2 then 2 else a.preset.pixelSize) else 1

def at' (a : FilterArgs) (x y : Int) : Pixel :=
  a.source.getD (y * a.width + x).toNat default

/-- Saturation, tint and contrast. -/
def grade (a : FilterArgs) (s : Site) (c : Rgb) : Rgb :=
  let sat := 100 + (a.preset.saturation * a.amount).tdiv 100
  let c := c.map fun v => s.grey + ((v - s.grey) * sat).tdiv 100
  let tint := fun v channel : Int => (v * (100 + ((channel - 100) * a.amount).tdiv 100)).tdiv 100
  let c : Rgb := ⟨tint c.r a.preset.red, tint c.g a.preset.green, tint c.b a.preset.blue⟩
  let contrast := 100 + (a.preset.contrast * a.amount).tdiv 100
  c.map fun v => 128 + ((v - 128) * contrast).tdiv 100

def mono (a : FilterArgs) (c : Rgb) : Rgb :=
  if a.has fxMono then
    let m := c.grey
    ⟨(m * a.preset.red).tdiv 100, (m * a.preset.green).tdiv 100, (m * a.preset.blue).tdiv 100⟩
  else c

def thermal (a : FilterArgs) (s : Site) (c : Rgb) : Rgb :=
  if a.has fxThermal then
    let d := if s.grey - 128 < 0 then -(s.grey - 128) else s.grey - 128
    ⟨clamp8 ((s.grey - 96) * 3), clamp8 (255 - d * 2), clamp8 ((128 - s.grey) * 2)⟩
  else c

/-- The strength of the edges at a pixel of the source. -/
def edgeAt (a : FilterArgs) (x y : Nat) : Int :=
  let xl := if x > 0 then x - 1 else x
  let xr := if x + 1 < a.width then x + 1 else x
  let yu := if y > 0 then y - 1 else y
  let yd := if y + 1 < a.height then y + 1 else y
  let ex := luma (a.at' xr y) - luma (a.at' xl y)
  let ey := luma (a.at' x yd) - luma (a.at' x yu)
  clamp8 (((if ex < 0 then -ex else ex) + (if ey < 0 then -ey else ey)) * 2)

def edge (a : FilterArgs) (s : Site) (c : Rgb) : Rgb :=
  if a.has fxEdge then
    let e := a.edgeAt s.x s.y
    if a.has fxInvert then .fill (255 - e) else c.map fun v => clamp8 (v - e)
  else if a.has fxInvert then c.map fun v => 255 - v
  else c

def cga (a : FilterArgs) (s : Site) (c : Rgb) : Rgb :=
  if a.has fxCga then
    if ¬ s.grey > 150 ∧ s.grey < 55 then .fill 0
    else if c.r > c.b ∧ ¬ c.g > c.r then ⟨255, 45, 220⟩
    else if ¬ c.r > c.b ∧ c.g > c.r then ⟨30, 235, 245⟩
    else .fill 255
  else c

def bayer : List Int := [0, 8, 2, 10, 12, 4, 14, 6, 3, 11, 1, 9, 15, 7, 13, 5]

def dither (a : FilterArgs) (s : Site) (c : Rgb) : Rgb :=
  if a.has fxDither then
    c.map fun v => v + (bayer.getD (s.y % 4 * 4 + s.x % 4) 0 - 8) * 4
  else c

def halftone (a : FilterArgs) (s : Site) (c : Rgb) : Rgb :=
  if a.has fxHalftone then
    let cell := if a.block < 3 then 3 else a.block
    let dx := (s.x : Int).tmod cell * 2 - cell
    let dy := (s.y : Int).tmod cell * 2 - cell
    let radius := ((255 - s.grey) * cell).tdiv 255
    if dx * dx + dy * dy < radius * radius then .fill 18
    else ⟨clamp8 (c.r + 70), clamp8 (c.g + 68), clamp8 (c.b + 60)⟩
  else c

def asciiArt (a : FilterArgs) (s : Site) (c : Rgb) : Rgb :=
  if a.has fxAscii then
    let cell := if a.block < 4 then 4 else a.block
    if (s.x : Int).tmod cell = (s.grey.tdiv 32).tmod cell ∨ (s.y : Int).tmod cell = cell - 1 then c
    else c.map fun v => (v * 28).tdiv 100
  else c

def posterize (a : FilterArgs) (c : Rgb) : Rgb :=
  let levels := a.preset.posterize
  if 2 ≤ levels ∧ levels < 16 then
    c.map fun v => ((clamp8 v * (levels - 1)).tdiv 255 * 255).tdiv (levels - 1)
  else c

def temporal (a : FilterArgs) (s : Site) (c : Rgb) : Rgb :=
  match a.previous with
  | none => c
  | some previous =>
    if a.has fxTemporal ∧ a.preset.temporal ≠ 0 then
      let old := (previous.getD (s.y * a.width + s.x) default).rgb
      let mix := (a.preset.temporal * a.amount).tdiv 100
      ⟨(c.r * (100 - mix) + old.r * mix).tdiv 100, (c.g * (100 - mix) + old.g * mix).tdiv 100,
        (c.b * (100 - mix) + old.b * mix).tdiv 100⟩
    else c

def bloom (a : FilterArgs) (s : Site) (c : Rgb) : Rgb :=
  if a.has fxBloom then
    let lift := if s.grey > 185 then ((s.grey - 185) * a.amount).tdiv 250 else 0
    c.map fun v => v + lift
  else c

def noise (a : FilterArgs) (random : UInt32) (c : Rgb) : UInt32 × Rgb :=
  if a.preset.noise ≠ 0 then
    let random := nextRandom random
    let n := ((((random.toNat % 256 : Nat) : Int) - 128) * a.preset.noise * a.amount).tdiv 12800
    (random, c.map fun v => v + n)
  else (random, c)

/-! ## The loops -/

/-- Keep a coordinate inside, then snap it to its block. -/
def snap (a : FilterArgs) (size : Nat) (v : Int) : Int :=
  let v : Int := if v < 0 then 0 else v
  let v : Int := if v ≥ size then size - 1 else v
  if a.block > 1 then v - v.tmod a.block else v

def filterPixel (a : FilterArgs) (sy shift : Int) (y : Nat) (random : UInt32) (x : Nat) :
    UInt32 × Pixel :=
  let c := (a.at' (a.snap a.width (x + shift)) sy).rgb
  let s : Site := ⟨x, y, c.grey⟩
  let c := a.edge s (a.thermal s (a.mono (a.grade s c)))
  let c := a.asciiArt s (a.halftone s (a.dither s (a.cga s c)))
  let c := a.bloom s (a.temporal s (a.posterize c))
  let r := a.noise random c
  (r.1, r.2.pixel)

/-- Run through a range, handing the random state on. -/
def scan {β : Type} (f : UInt32 → Nat → UInt32 × β) : UInt32 → List Nat → UInt32 × List β
  | random, [] => (random, [])
  | random, i :: is =>
    let r := f random i
    let rest := scan f r.1 is
    (rest.1, r.2 :: rest.2)

/-- The rows that a tear displaces. -/
def tears (a : FilterArgs) (y : Nat) : Bool :=
  a.has fxTear && ((y + (Int32.ofInt (a.timestampMs.toInt.tdiv 31)).toInt).tmod 47 < 3 : Bool)

def filterRow (a : FilterArgs) (jitterX jitterY : Int) (random : UInt32) (y : Nat) :
    UInt32 × List Pixel :=
  let sy := a.snap a.height (y + jitterY)
  let random' := if a.tears y then nextRandom random else random
  let tear : Int := if a.tears y then ((random'.toNat % 23 : Nat) : Int) - 11 else 0
  scan (a.filterPixel sy (jitterX + tear) y) random' (List.range a.width)

/-- The random state that the frame starts with. -/
def start (a : FilterArgs) : UInt32 :=
  a.seed ^^^ UInt32.ofInt (a.timestampMs.toInt.tdiv 67) ^^^ 0x9e3779b9

/-- The output, row by row. -/
def output (a : FilterArgs) : List Pixel :=
  if a.has fxJitter then
    let r₁ := nextRandom a.start
    let r₂ := nextRandom r₁
    (scan (a.filterRow (((r₁.toNat % 7 : Nat) : Int) - 3) (((r₂.toNat % 5 : Nat) : Int) - 2)) r₂
      (List.range a.height)).2.flatten
  else (scan (a.filterRow 0 0) a.start (List.range a.height)).2.flatten

end FilterArgs

/-- `processFrame` on whole frames. -/
def processPixels (source : List Pixel) (previous : Option (List Pixel)) (width height : Nat)
    (preset : Preset) (intensity : Int) (seed : UInt32) (timestampMs : Int64) : List Pixel :=
  let intensity := if intensity < 0 then 0 else intensity
  let intensity := if intensity > 100 then 100 else intensity
  FilterArgs.output { source, previous, width, height, preset, amount := intensity, seed,
                      timestampMs }

/-! ## The output is a whole frame -/

theorem scan_length {β : Type} (f : UInt32 → Nat → UInt32 × β) (random : UInt32) (l : List Nat) :
    (FilterArgs.scan f random l).2.length = l.length := by
  induction l generalizing random with
  | nil => rfl
  | cons i l ih => simp [FilterArgs.scan, ih]

theorem scan_mem {β : Type} {f : UInt32 → Nat → UInt32 × β} {random : UInt32} {l : List Nat}
    {x : β} (h : x ∈ (FilterArgs.scan f random l).2) : ∃ s i, x = (f s i).2 := by
  induction l generalizing random with
  | nil => cases h
  | cons i l ih =>
    rcases List.mem_cons.1 h with h | h
    · exact ⟨_, _, h⟩
    · exact ih h

/-- Rows of one width make a frame. -/
theorem rows_length {a : FilterArgs} (jitterX jitterY : Int) (random : UInt32) :
    (FilterArgs.scan (a.filterRow jitterX jitterY) random (List.range a.height)).2.flatten.length =
      a.height * a.width := by
  have hrow : ∀ row ∈ (FilterArgs.scan (a.filterRow jitterX jitterY) random
      (List.range a.height)).2, row.length = a.width := fun row h => by
    obtain ⟨s, y, rfl⟩ := scan_mem h
    simp [FilterArgs.filterRow, scan_length]
  rw [List.length_flatten, List.map_congr_left hrow]
  simp [scan_length]

theorem output_length (a : FilterArgs) : a.output.length = a.height * a.width := by
  unfold FilterArgs.output
  split
  · exact rows_length _ _ _
  · exact rows_length _ _ _

theorem processPixels_length (source : List Pixel) (previous : Option (List Pixel))
    (width height : Nat) (preset : Preset) (intensity : Int) (seed : UInt32)
    (timestampMs : Int64) :
    (processPixels source previous width height preset intensity seed timestampMs).length =
      height * width := output_length _

/-- `processFrame` on the worker's frames. -/
def processFrame (source : Frame) (previous : Option Frame) (preset : Preset) (intensity : Int)
    (seed : UInt32) (timestampMs : Int64) : Frame :=
  ⟨processPixels source.pixels (previous.map Frame.pixels) kFrameWidth kFrameHeight preset
    intensity seed timestampMs, processPixels_length ..⟩

end RetroLens.Core
