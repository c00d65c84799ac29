import RetroLens.Core.ProcessFrame
import RetroLens.Lib.IntExpr

/-!
# The effects, step by step

The effects of `processFrame` with all their `int` operations checked, and with
bounds on the images read. For a preset with the bounds of the catalogue each
of them is defined and computes what its unchecked namesake does; the bound it
leaves on the channels is the next one's to start from.
-/

namespace RetroLens.Core

open Checked

/-- A read of an image. -/
def fetch (image : List Pixel) (i : Int) : Option Pixel :=
  if 0 ≤ i then image[i.toNat]? else none

/-- The three channels by the same expression. -/
def Rgb.each (f : Int → IntExpr) (c : Rgb) : Option Rgb := do
  return ⟨← (f c.r).value, ← (f c.g).value, ← (f c.b).value⟩

/-- `if (v < 0) v = -v`. -/
def magnitude (v : Int) : IntExpr := if v < 0 then -v else v

namespace Steps

variable (a : FilterArgs) (s : Site) (c : Rgb)

def grey (c : Rgb) : Option Int := ((c.r * 77 + c.g * 150 + c.b * 29 : IntExpr) >>> (8 : Nat)).value

def tint (v channel : Int) : IntExpr := v * (100 + (channel - 100) * a.amount / 100) / 100

def grade : Option Rgb := do
  let sat ← (100 + a.preset.saturation * a.amount / 100 : IntExpr).value
  let c ← c.each fun v => s.grey + (v - s.grey) * sat / 100
  let c : Rgb := ⟨← (tint a c.r a.preset.red).value, ← (tint a c.g a.preset.green).value,
    ← (tint a c.b a.preset.blue).value⟩
  let contrast ← (100 + a.preset.contrast * a.amount / 100 : IntExpr).value
  c.each fun v => 128 + (v - 128) * contrast / 100

def mono : Option Rgb :=
  if a.has fxMono then do
    let m ← grey c
    return ⟨← (m * a.preset.red / 100 : IntExpr).value,
      ← (m * a.preset.green / 100 : IntExpr).value, ← (m * a.preset.blue / 100 : IntExpr).value⟩
  else some c

def thermal : Option Rgb :=
  if a.has fxThermal then do
    let d ← (magnitude (← (s.grey - 128 : IntExpr).value)).value
    return ⟨clamp8 (← ((s.grey - 96) * 3 : IntExpr).value),
      clamp8 (← (255 - d * 2 : IntExpr).value), clamp8 (← ((128 - s.grey) * 2 : IntExpr).value)⟩
  else some c

/-- `luma` of the source at an index. -/
def lumaAt (i : IntExpr) : Option Int := do
  grey (← fetch a.source (← i.value)).rgb

def edgeAt (x y : Nat) : Option Int := do
  let xl ← (if x > 0 then x - 1 else x : IntExpr).value
  let xr ← (if (← (x + 1 : IntExpr).value) < a.width then x + 1 else x : IntExpr).value
  let yu ← (if y > 0 then y - 1 else y : IntExpr).value
  let yd ← (if (← (y + 1 : IntExpr).value) < a.height then y + 1 else y : IntExpr).value
  let ex ← sub (← lumaAt a (y * a.width + xr)) (← lumaAt a (y * a.width + xl))
  let ex ← (magnitude ex).value
  let ey ← sub (← lumaAt a (yd * a.width + x)) (← lumaAt a (yu * a.width + x))
  let ey ← (magnitude ey).value
  return clamp8 (← ((ex + ey) * 2 : IntExpr).value)

def edge : Option Rgb :=
  if a.has fxEdge then do
    let e ← edgeAt a s.x s.y
    if a.has fxInvert then
      return .fill (← (255 - e : IntExpr).value)
    else
      return (← c.each fun v => v - e).map clamp8
  else if a.has fxInvert then c.each fun v => 255 - v
  else some c

def dither : Option Rgb :=
  if a.has fxDither then do
    let i ← ((s.y % 4 : Nat) * 4 + (s.x % 4 : Nat) : IntExpr).value
    let threshold ← FilterArgs.bayer[i.toNat]?
    let d ← ((threshold - 8) * 4 : IntExpr).value
    c.each fun v => v + d
  else some c

def halftone : Option Rgb :=
  if a.has fxHalftone then do
    let cell := if a.block < 3 then 3 else a.block
    let dx ← (s.x % cell * 2 - cell : IntExpr).value
    let dy ← (s.y % cell * 2 - cell : IntExpr).value
    let radius ← ((255 - s.grey) * cell / 255 : IntExpr).value
    if (← (dx * dx + dy * dy : IntExpr).value) < (← (radius * radius : IntExpr).value) then
      return .fill 18
    else
      return ⟨clamp8 (← (c.r + 70 : IntExpr).value), clamp8 (← (c.g + 68 : IntExpr).value),
        clamp8 (← (c.b + 60 : IntExpr).value)⟩
  else some c

def asciiArt : Option Rgb :=
  if a.has fxAscii then do
    let cell := if a.block < 4 then 4 else a.block
    if (← (s.x % cell : IntExpr).value) = (← (s.grey / 32 % cell : IntExpr).value) then
      return c
    else if (← (s.y % cell : IntExpr).value) = (← (cell - 1 : IntExpr).value) then
      return c
    else
      c.each fun v => v * 28 / 100
  else some c

def posterize : Option Rgb :=
  let levels := a.preset.posterize
  if 2 ≤ levels ∧ levels < 16 then
    c.each fun v => clamp8 v * (levels - 1) / 255 * 255 / (levels - 1)
  else some c

def temporal : Option Rgb :=
  match a.previous with
  | none => some c
  | some previous =>
    if a.has fxTemporal ∧ a.preset.temporal ≠ 0 then do
      let old := (← fetch previous (← (s.y * a.width + s.x : IntExpr).value)).rgb
      let mix ← (a.preset.temporal * a.amount / 100 : IntExpr).value
      return ⟨← ((c.r * (100 - mix) + old.r * mix) / 100 : IntExpr).value,
        ← ((c.g * (100 - mix) + old.g * mix) / 100 : IntExpr).value,
        ← ((c.b * (100 - mix) + old.b * mix) / 100 : IntExpr).value⟩
    else some c

def bloom : Option Rgb :=
  if a.has fxBloom then do
    let lift ← (if s.grey > 185 then (s.grey - 185) * a.amount / 250 else 0 : IntExpr).value
    c.each fun v => v + lift
  else some c

def noise (random : UInt32) : Option (UInt32 × Rgb) :=
  if a.preset.noise ≠ 0 then do
    let random := nextRandom random
    let n ← ((random.toNat % 256 : Nat) - 128 : IntExpr).value
    let n ← (n * a.preset.noise * a.amount / 12800 : IntExpr).value
    return (random, ← c.each fun v => v + n)
  else some (random, c)

def snap (size : Nat) (v : Int) : Option Int := do
  let v : Int := if v < 0 then 0 else v
  let v ← (if v ≥ size then size - 1 else v : IntExpr).value
  (if a.block > 1 then v - v % a.block else v : IntExpr).value

/-! ## Bounds -/

end Steps

/-- The bounds of the catalogue's presets, adjusted or not. -/
structure Preset.Bounded (p : Preset) : Prop where
  red : p.red.natAbs ≤ 130
  green : p.green.natAbs ≤ 130
  blue : p.blue.natAbs ≤ 130
  saturation : p.saturation.natAbs ≤ 100
  contrast : p.contrast.natAbs ≤ 100
  posterize : p.posterize.natAbs ≤ 8
  noise : p.noise.natAbs ≤ 100
  pixelSize : p.pixelSize.natAbs ≤ 8
  temporal : p.temporal.natAbs ≤ 100

/-- Images of one size, which an `int` can index. -/
structure FilterArgs.Valid (a : FilterArgs) : Prop where
  preset : a.preset.Bounded
  amount : a.amount.natAbs ≤ 100
  width : 0 < a.width
  height : 0 < a.height
  size : a.width * a.height ≤ 2147483647
  source : a.source.length = a.width * a.height
  previous : ∀ image ∈ a.previous, image.length = a.width * a.height

structure Site.Inside (s : Site) (a : FilterArgs) : Prop where
  column : s.x < a.width
  row : s.y < a.height
  grey : s.grey.natAbs ≤ 255

structure Rgb.Within (c : Rgb) (n : Nat) : Prop where
  r : c.r.natAbs ≤ n
  g : c.g.natAbs ≤ n
  b : c.b.natAbs ≤ n

/-- `o` is defined, and its channels are not above `n`. -/
structure Yields (o : Option Rgb) (c : Rgb) (n : Nat) : Prop where
  value : o = some c
  within : c.Within n

namespace Yields

variable {o : Option Rgb} {c : Rgb} {m n : Nat}

theorem bind {α : Type} (h : Yields o c n) (k : Rgb → Option α) : (o >>= k) = k c := by
  rw [h.value]
  rfl

theorem some (h : c.Within n) : Yields (some c) c n := ⟨rfl, h⟩

theorem mono (h : Yields o c m) (hmn : m ≤ n) : Yields o c n :=
  ⟨h.value, h.within.r.trans hmn, h.within.g.trans hmn, h.within.b.trans hmn⟩

theorem channels {e f g : IntExpr} {r s t : Int} (he : Eval e r n) (hf : Eval f s n)
    (hg : Eval g t n) : Yields (do return ⟨← e.value, ← f.value, ← g.value⟩) ⟨r, s, t⟩ n := by
  refine ⟨?_, he.bound, hf.bound, hg.bound⟩
  rw [he.bind, hf.bind, hg.bind]
  rfl

theorem each {f : Int → IntExpr} {g : Int → Int} (hc : c.Within m)
    (h : ∀ v : Int, v.natAbs ≤ m → Eval (f v) (g v) n) : Yields (c.each f) (c.map g) n :=
  channels (h _ hc.r) (h _ hc.g) (h _ hc.b)

end Yields

theorem clamp8_within (v : Int) : (clamp8 v).natAbs ≤ 255 := by
  unfold clamp8
  split
  · decide
  · split <;> omega

theorem rgb_within (p : Pixel) : p.rgb.Within 255 :=
  ⟨Nat.le_of_lt_succ p.r.toNat_lt, Nat.le_of_lt_succ p.g.toNat_lt, Nat.le_of_lt_succ p.b.toNat_lt⟩

/-- The grey of a pixel is a byte. -/
theorem luma_within (p : Pixel) : (luma p).natAbs ≤ 255 := by
  have hr := p.r.toNat_lt
  have hg := p.g.toNat_lt
  have hb := p.b.toNat_lt
  simp only [luma, Rgb.grey, Pixel.rgb, Int.shiftRight_eq_div_pow]
  omega

theorem magnitude_eval {v : Int} {n : Nat} (h : v.natAbs ≤ n) (hn : n ≤ 2147483647) :
    Eval (magnitude v) (if v < 0 then -v else v) n := by
  unfold magnitude
  split
  · exact (Eval.var h).neg hn
  · exact Eval.var h

namespace Steps

open Eval

variable {a : FilterArgs} {s : Site} {c : Rgb} {n : Nat}

theorem grey_eval (hc : c.Within n) (hn : n ≤ 8000000) :
    Eval ((c.r * 77 + c.g * 150 + c.b * 29 : IntExpr) >>> (8 : Nat)) c.grey (n * 256) := by
  have hsum := (((var hc.r).mul (lit 77) (by omega)).add ((var hc.g).mul (lit 150) (by omega))
    (by omega)).add ((var hc.b).mul (lit 29) (by omega)) (by omega)
  exact (hsum.shiftRight 8).mono (by omega)

theorem grey_pixel (p : Pixel) : grey p.rgb = some (luma p) :=
  (grey_eval (rgb_within p) (by omega)).value

/-- The percentage that an amount of a setting gives. -/
theorem percent_eval (ha : a.Valid) {setting : Int} (h : setting.natAbs ≤ 100) :
    Eval (100 + setting * a.amount / 100) (100 + (setting * a.amount).tdiv 100) 200 :=
  (lit 100).add (((var h).mul (var ha.amount) (by omega)).div 100 (by omega)) (by omega)

theorem tint_eval (ha : a.Valid) {v channel : Int} (hv : v.natAbs ≤ 1275)
    (h : channel.natAbs ≤ 130) :
    Eval (tint a v channel) ((v * (100 + ((channel - 100) * a.amount).tdiv 100)).tdiv 100)
      4207 := by
  have hshift := (((var h).sub (lit 100) (by omega)).mul (var ha.amount) (by omega)).div 100
    (by omega)
  exact ((var hv).mul ((lit 100).add hshift (by omega)) (by omega)).div 100 (by omega)

theorem grade_yields (ha : a.Valid) (hs : s.grey.natAbs ≤ 255) (hc : c.Within 255) :
    Yields (grade a s c) (a.grade s c) 8798 := by
  have hsat := percent_eval ha ha.preset.saturation
  have hcontrast := percent_eval ha ha.preset.contrast
  have hgreyed := Yields.each hc fun v hv => (var hs).add ((((var hv).sub (var hs) (by omega)).mul
    (var hsat.bound) (by omega)).div 100 (by omega)) (by omega)
  have hr := tint_eval ha hgreyed.within.r ha.preset.red
  have hg := tint_eval ha hgreyed.within.g ha.preset.green
  have hb := tint_eval ha hgreyed.within.b ha.preset.blue
  have htinted : (Rgb.mk _ _ _).Within 4207 := ⟨hr.bound, hg.bound, hb.bound⟩
  unfold grade
  rw [hsat.bind, hgreyed.bind, hr.bind, hg.bind, hb.bind, hcontrast.bind]
  exact Yields.each htinted fun v hv => (lit 128).add
    ((((var hv).sub (lit 128) (by omega)).mul (var hcontrast.bound) (by omega)).div 100
      (by omega)) (by omega)

theorem mono_yields (ha : a.Valid) (hc : c.Within 8798) : Yields (mono a c) (a.mono c) 3000000 := by
  unfold mono FilterArgs.mono
  split
  · have hm := grey_eval hc (by omega)
    have hchannel {channel : Int} (h : channel.natAbs ≤ 130) :=
      (((var hm.bound).mul (var h) (by omega)).div 100 (by omega)).mono
        (show _ ≤ 3000000 by omega)
    unfold grey
    rw [hm.bind]
    exact .channels (hchannel ha.preset.red) (hchannel ha.preset.green) (hchannel ha.preset.blue)
  · exact (Yields.some hc).mono (by omega)

theorem thermal_yields (hs : s.grey.natAbs ≤ 255) (hc : c.Within 3000000) :
    Yields (thermal a s c) (a.thermal s c) 3000000 := by
  unfold thermal FilterArgs.thermal
  split
  · have hsign := (var hs).sub (lit 128) (by omega)
    have hd := magnitude_eval hsign.bound (by omega)
    have hr := ((var hs).sub (lit 96) (by omega)).mul (lit 3) (by omega)
    have hg := (lit 255).sub ((var hd.bound).mul (lit 2) (by omega)) (by omega)
    have hb := ((lit 128).sub (var hs) (by omega)).mul (lit 2) (by omega)
    rw [hsign.bind, hd.bind, hr.bind, hg.bind, hb.bind]
    exact (Yields.some ⟨clamp8_within _, clamp8_within _, clamp8_within _⟩).mono
      (show 255 ≤ _ by omega)
  · exact .some hc

/-! ## Reads -/

theorem width_le (ha : a.Valid) : a.width ≤ 2147483647 :=
  (Nat.le_mul_of_pos_right _ ha.height).trans ha.size

theorem height_le (ha : a.Valid) : a.height ≤ 2147483647 :=
  (Nat.le_mul_of_pos_left _ ha.width).trans ha.size

theorem place_lt {x y : Nat} (hx : x < a.width) (hy : y < a.height) :
    y * a.width + x < a.width * a.height :=
  calc
    y * a.width + x < (y + 1) * a.width := by rw [Nat.succ_mul]; omega
    _ ≤ a.height * a.width := Nat.mul_le_mul_right _ hy
    _ = a.width * a.height := Nat.mul_comm _ _

/-- The index of a pixel. -/
theorem place_eval (ha : a.Valid) {x y : Nat} (hx : x < a.width) (hy : y < a.height) :
    Eval ((y : Int) * (a.width : Int) + (x : Int) : IntExpr) ((y * a.width + x : Nat) : Int)
      (y * a.width + x) := by
  have hplace := (place_lt hx hy).le.trans ha.size
  rw [Int.natCast_add, Int.natCast_mul]
  exact ((nat y).mul (nat _) (by omega)).add (nat x) hplace

/-- An image has a pixel at the index of each place. -/
theorem fetch_place {image : List Pixel} (himage : image.length = a.width * a.height) {x y : Nat}
    (hx : x < a.width) (hy : y < a.height) :
    fetch image ((y * a.width + x : Nat) : Int) =
      some (image.getD (y * a.width + x) default) := by
  have hplace : y * a.width + x < image.length := himage ▸ place_lt hx hy
  rw [fetch, if_pos (Int.natCast_nonneg _), Int.toNat_natCast, List.getD_eq_getElem?_getD,
    List.getElem?_eq_getElem hplace, Option.getD_some]

theorem source_place (ha : a.Valid) {x y : Nat} (hx : x < a.width) (hy : y < a.height) :
    fetch a.source ((y * a.width + x : Nat) : Int) = some (a.at' x y) := by
  rw [fetch_place ha.source hx hy]
  rfl

theorem lumaAt_eq (ha : a.Valid) {x y : Nat} (hx : x < a.width) (hy : y < a.height) :
    lumaAt a ((y : Int) * (a.width : Int) + (x : Int) : IntExpr) = some (luma (a.at' x y)) := by
  unfold lumaAt
  rw [(place_eval ha hx hy).bind, source_place ha hx hy]
  exact grey_pixel _

theorem before_eval (x : Nat) (hx : x ≤ 2147483646) :
    Eval (if x > 0 then (x : Int) - 1 else (x : Int) : IntExpr)
      ((if x > 0 then x - 1 else x : Nat) : Int) (x + 1) := by
  split
  · rename_i hpos
    rw [Int.ofNat_sub hpos]
    exact (nat x).sub (lit 1) (by omega)
  · exact (nat x).mono (by omega)

theorem after_eval (x size : Nat) (hx : x ≤ 2147483646) :
    Eval (if (x : Int) + 1 < size then (x : Int) + 1 else (x : Int) : IntExpr)
      ((if x + 1 < size then x + 1 else x : Nat) : Int) (x + 1) := by
  have hcond : ((x : Int) + 1 < size) = (x + 1 < size) := by
    rw [← Int.natCast_succ, Int.ofNat_lt]
  simp only [hcond]
  split
  · exact (nat x).add (lit 1) (by omega)
  · exact (nat x).mono (by omega)

theorem next_eval (x : Nat) (hx : x ≤ 2147483646) :
    Eval ((x : Int) + 1 : IntExpr) ((x : Int) + 1) (x + 1) := (nat x).add (lit 1) (by omega)

section

variable (p q : Pixel)

theorem luma_sub : Eval (luma p - luma q : IntExpr) (luma p - luma q) 510 :=
  (var (luma_within p)).sub (var (luma_within q)) (by omega)

/-- The luma difference of two pixels, without its sign. -/
def step : Int := if luma p - luma q < 0 then -(luma p - luma q) else luma p - luma q

theorem step_eval : Eval (magnitude (luma p - luma q)) (step p q) 510 :=
  magnitude_eval (luma_sub p q).bound (by omega)

end

theorem edgeAt_eq (ha : a.Valid) {x y : Nat} (hx : x < a.width) (hy : y < a.height) :
    edgeAt a x y = some (a.edgeAt x y) := by
  have hw := width_le ha
  have hh := height_le ha
  have hl : (if x > 0 then x - 1 else x) < a.width := by split <;> omega
  have hr : (if x + 1 < a.width then x + 1 else x) < a.width := by split <;> omega
  have hu : (if y > 0 then y - 1 else y) < a.height := by split <;> omega
  have hd : (if y + 1 < a.height then y + 1 else y) < a.height := by split <;> omega
  have hsub (p q : Pixel) : sub (luma p) (luma q) = some (luma p - luma q) := (luma_sub p q).value
  have hsum (p q r s : Pixel) := ((var (step_eval p q).bound).add (var (step_eval r s).bound)
    (by omega)).mul (lit 2) (by omega)
  unfold edgeAt
  rw [(before_eval x (by omega)).bind, (next_eval x (by omega)).bind,
    (after_eval x a.width (by omega)).bind, (before_eval y (by omega)).bind,
    (next_eval y (by omega)).bind, (after_eval y a.height (by omega)).bind,
    lumaAt_eq ha hr hy, lumaAt_eq ha hl hy, lumaAt_eq ha hx hd, lumaAt_eq ha hx hu]
  simp only [Option.bind_eq_bind, Option.bind_some, hsub, (step_eval _ _).value,
    (hsum _ _ _ _).value]
  rfl

/-! ## The effects after the edges -/

theorem edge_yields (ha : a.Valid) (hs : s.Inside a) (hc : c.Within 3000000) :
    Yields (edge a s c) (a.edge s c) 3000255 := by
  have he : (a.edgeAt s.x s.y).natAbs ≤ 255 := clamp8_within _
  unfold edge FilterArgs.edge
  split
  · rw [edgeAt_eq ha hs.column hs.row]
    simp only [Option.bind_eq_bind, Option.bind_some]
    split
    · have hinverse := (lit 255).sub (var he) (by omega)
      rw [hinverse.value]
      exact (Yields.some ⟨hinverse.bound, hinverse.bound, hinverse.bound⟩).mono
        (show 510 ≤ _ by omega)
    · have hdark := Yields.each hc fun v hv => (var hv).sub (var he) (by omega)
      rw [hdark.value]
      exact (Yields.some ⟨clamp8_within _, clamp8_within _, clamp8_within _⟩).mono
        (show 255 ≤ _ by omega)
  · split
    · exact (Yields.each hc fun v hv => (lit 255).sub (var hv) (by omega)).mono (by omega)
    · exact (Yields.some hc).mono (by omega)

theorem cga_within (hc : c.Within 3000255) : (a.cga s c).Within 3000255 := by
  unfold FilterArgs.cga
  split
  · repeat' split
    all_goals exact ⟨by decide, by decide, by decide⟩
  · exact hc

theorem bayer_get (x y : Nat) :
    ∃ threshold, FilterArgs.bayer[y % 4 * 4 + x % 4]? = some threshold ∧
      FilterArgs.bayer.getD (y % 4 * 4 + x % 4) 0 = threshold ∧ threshold.natAbs ≤ 15 := by
  have hall : ∀ i < 16, ∃ threshold, FilterArgs.bayer[i]? = some threshold ∧
      FilterArgs.bayer.getD i 0 = threshold ∧ threshold.natAbs ≤ 15 := by decide
  exact hall _ (by omega)

theorem dither_yields (hc : c.Within 3000255) : Yields (dither a s c) (a.dither s c) 3000400 := by
  unfold dither FilterArgs.dither
  split
  · obtain ⟨threshold, hget, rfl, hbound⟩ := bayer_get s.x s.y
    have hi : Eval ((s.y % 4 : Nat) * 4 + (s.x % 4 : Nat) : IntExpr)
        ((s.y % 4 * 4 + s.x % 4 : Nat) : Int) 16 :=
      ((((nat (s.y % 4)).mul (lit 4) (by omega)).add (nat (s.x % 4)) (by omega)).mono (by omega))
    have hd := ((var hbound).sub (lit 8) (by omega)).mul (lit 4) (by omega)
    rw [hi.bind, Int.toNat_natCast, hget, Option.bind_eq_bind, Option.bind_some, hd.value]
    exact (Yields.each hc fun v hv => (var hv).add (var hd.bound) (by omega)).mono (by omega)
  · exact (Yields.some hc).mono (by omega)

theorem block_range (ha : a.Valid) : 0 < a.block ∧ a.block.natAbs ≤ 8 := by
  have hsize := ha.preset.pixelSize
  unfold FilterArgs.block
  split
  · split <;> omega
  · decide

/-- A cell is a block of some size at least. -/
theorem cell_range (ha : a.Valid) (size : Int) (hsize : 0 < size ∧ size ≤ 8) :
    0 < (if a.block < size then size else a.block) ∧
      (if a.block < size then size else a.block).natAbs ≤ 8 := by
  have hblock := block_range ha
  split <;> omega

theorem halftone_yields (ha : a.Valid) (hs : s.Inside a) (hc : c.Within 3000400) :
    Yields (halftone a s c) (a.halftone s c) 3000400 := by
  unfold halftone FilterArgs.halftone
  split
  · have hcell := cell_range ha 3 (by omega)
    dsimp only
    generalize (if a.block < 3 then 3 else a.block) = cell at hcell ⊢
    obtain ⟨hpos, hcell⟩ := hcell
    have hoffset {x : Nat} (hx : x ≤ 2147483647) :=
      ((((nat x).mod (var hcell) hpos hx).mul (lit 2) (by omega)).sub (var hcell) (by omega))
    have hdx := hoffset (hs.column.le.trans (width_le ha))
    have hdy := hoffset (hs.row.le.trans (height_le ha))
    have hradius := (((lit 255).sub (var hs.grey) (by omega)).mul (var hcell) (by omega)).div 255
      (by omega)
    have hdistance := ((var hdx.bound).mul (var hdx.bound) (by omega)).add
      ((var hdy.bound).mul (var hdy.bound) (by omega)) (by omega)
    have hlimit := (var hradius.bound).mul (var hradius.bound) (by omega)
    have hr := (var hc.r).add (lit 70) (by omega)
    have hg := (var hc.g).add (lit 68) (by omega)
    have hb := (var hc.b).add (lit 60) (by omega)
    rw [hdx.bind, hdy.bind, hradius.bind, hdistance.bind, hlimit.bind]
    split
    · exact .some ⟨by decide, by decide, by decide⟩
    · rw [hr.bind, hg.bind, hb.bind]
      exact (Yields.some ⟨clamp8_within _, clamp8_within _, clamp8_within _⟩).mono
        (show 255 ≤ _ by omega)
  · exact .some hc

theorem asciiArt_yields (ha : a.Valid) (hs : s.Inside a) (hc : c.Within 3000400) :
    Yields (asciiArt a s c) (a.asciiArt s c) 3000400 := by
  unfold asciiArt FilterArgs.asciiArt
  split
  · have hcell := cell_range ha 4 (by omega)
    dsimp only
    generalize (if a.block < 4 then 4 else a.block) = cell at hcell ⊢
    obtain ⟨hpos, hcell⟩ := hcell
    have hcolumn := (nat s.x).mod (var hcell) hpos (hs.column.le.trans (width_le ha))
    have hshade := ((var hs.grey).div 32 (by omega)).mod (var hcell) hpos (by omega)
    have hrow := (nat s.y).mod (var hcell) hpos (hs.row.le.trans (height_le ha))
    have hlast := (var hcell).sub (lit 1) (by omega)
    rw [hcolumn.bind, hshade.bind]
    by_cases hx : (s.x : Int).tmod cell = (s.grey.tdiv 32).tmod cell
    · rw [if_pos hx, if_pos (.inl hx)]
      exact .some hc
    · rw [if_neg hx, hrow.bind, hlast.bind]
      by_cases hy : (s.y : Int).tmod cell = cell - 1
      · rw [if_pos hy, if_pos (.inr hy)]
        exact .some hc
      · rw [if_neg hy, if_neg (not_or.2 ⟨hx, hy⟩)]
        exact (Yields.each hc fun v hv => ((var hv).mul (lit 28) (by omega)).div 100
          (by omega)).mono (by omega)
  · exact .some hc

theorem posterize_yields (ha : a.Valid) (hc : c.Within 3000400) :
    Yields (posterize a c) (a.posterize c) 3000400 := by
  unfold posterize FilterArgs.posterize
  dsimp only
  split
  · rename_i hlevels
    have hsteps := (var ha.preset.posterize).sub (lit 1) (by omega)
    refine (Yields.each hc fun v _ => ?_).mono (show 585225 ≤ _ by omega)
    have hshade := (((var (clamp8_within v)).mul hsteps (by omega)).div 255 (by omega)).mul
      (lit 255) (by omega)
    exact (hshade.quot hsteps (show (0 : Int) < _ - 1 by omega) (by omega)).mono (by omega)
  · exact .some hc

theorem temporal_yields (ha : a.Valid) (hs : s.Inside a) (hc : c.Within 3000400) :
    Yields (temporal a s c) (a.temporal s c) 6001055 := by
  unfold temporal FilterArgs.temporal
  cases hprevious : a.previous with
  | none => exact (Yields.some hc).mono (by omega)
  | some previous =>
    dsimp only
    split
    · have hold := rgb_within (previous.getD (s.y * a.width + s.x) default)
      have hmix := ((var ha.preset.temporal).mul (var ha.amount) (by omega)).div 100 (by omega)
      have hblend {v u : Int} (hv : v.natAbs ≤ 3000400) (hu : u.natAbs ≤ 255) :=
        ((((var hv).mul ((lit 100).sub (var hmix.bound) (by omega)) (by omega)).add
          ((var hu).mul (var hmix.bound) (by omega)) (by omega)).div 100 (by omega))
      rw [(place_eval ha hs.column hs.row).bind,
        fetch_place (ha.previous previous hprevious) hs.column hs.row]
      simp only [Option.bind_eq_bind, Option.bind_some]
      rw [hmix.value, Option.bind_some]
      exact Yields.channels (hblend hc.r hold.r) (hblend hc.g hold.g) (hblend hc.b hold.b)
    · exact (Yields.some hc).mono (by omega)

theorem bloom_yields (ha : a.Valid) (hs : s.grey.natAbs ≤ 255) (hc : c.Within 6001055) :
    Yields (bloom a s c) (a.bloom s c) 6001231 := by
  unfold bloom FilterArgs.bloom
  split
  · have hlift : Eval (if s.grey > 185 then (s.grey - 185) * a.amount / 250 else 0 : IntExpr)
        (if s.grey > 185 then ((s.grey - 185) * a.amount).tdiv 250 else 0) 176 := by
      split
      · exact (((var hs).sub (lit 185) (by omega)).mul (var ha.amount) (by omega)).div 250
          (by omega)
      · exact (lit 0).mono (by omega)
    rw [hlift.bind]
    exact Yields.each hc fun v hv => (var hv).add (var hlift.bound) (by omega)
  · exact (Yields.some hc).mono (by omega)

theorem noise_eq (ha : a.Valid) (hc : c.Within 6001231) (random : UInt32) :
    noise a c random = some (a.noise random c) := by
  unfold noise FilterArgs.noise
  split
  · have hbyte := ((nat ((nextRandom random).toNat % 256)).mono
      (show _ ≤ 255 by omega)).sub (lit 128) (by omega)
    have hn := (((var hbyte.bound).mul (var ha.preset.noise) (by omega)).mul (var ha.amount)
      (by omega)).div 12800 (by omega)
    dsimp only
    rw [hbyte.bind, hn.bind, (Yields.each hc fun v hv => (var hv).add (var hn.bound)
      (by omega)).bind]
    rfl
  · rfl

/-- The end of a block is kept inside by its remainder. -/
theorem floor_eval (ha : a.Valid) {k : Nat} (hk : k ≤ 2147483647) :
    ∃ i ≤ k, (if a.block > 1 then (k : Int) - (k : Int).tmod a.block else k) = (i : Int) ∧
      Eval (if a.block > 1 then (k : Int) - (k : Int) % a.block else (k : Int) : IntExpr) i k := by
  split
  · obtain ⟨hpos, hblock⟩ := block_range ha
    have hrest := (nat k).mod (var hblock) hpos hk
    obtain ⟨b, hb⟩ := Int.eq_ofNat_of_zero_le hpos.le
    have hmod : (k : Int).tmod a.block = (k % b : Nat) := by rw [hb, Int.ofNat_tmod]
    have hle := Nat.mod_le k b
    refine ⟨k - k % b, Nat.sub_le _ _, by rw [hmod, Int.ofNat_sub hle], ?_⟩
    rw [Int.ofNat_sub hle, ← hmod]
    exact (nat k).sub_le hrest (by omega) hk
  · exact ⟨k, Nat.le_refl _, rfl, nat k⟩

/-- A coordinate ends up inside. -/
theorem snap_eq (ha : a.Valid) {size : Nat} (hsize : 0 < size ∧ size ≤ 2147483647) (v : Int) :
    ∃ i < size, snap a size v = some (i : Int) ∧ a.snap size v = i := by
  unfold snap FilterArgs.snap
  dsimp only
  have hlow : 0 ≤ (if v < 0 then 0 else v) := by split <;> omega
  generalize (if v < 0 then 0 else v) = u at hlow ⊢
  obtain ⟨k, hk, hlast, heval⟩ : ∃ k < size,
      (if u ≥ size then (size : Int) - 1 else u) = (k : Int) ∧
        Eval (if u ≥ size then (size : Int) - 1 else u : IntExpr) k 2147483647 := by
    split
    · refine ⟨size - 1, by omega, by omega, ?_⟩
      rw [Int.ofNat_sub (by omega)]
      have hone : (0 : Int) ≤ 1 ∧ (1 : Int) ≤ size := by omega
      exact ((nat size).sub_le (lit 1) hone hsize.2).mono hsize.2
    · exact ⟨u.toNat, by omega, by omega, by rw [Int.toNat_of_nonneg hlow]; exact var (by omega)⟩
  obtain ⟨i, hi, hfloor, hsnap⟩ := floor_eval ha (k := k) (by omega)
  rw [heval.bind, hlast, hfloor, hsnap.value]
  exact ⟨i, by omega, rfl, rfl⟩

end Steps

end RetroLens.Core
