import Mathlib.Order.Monotone.Defs
import RetroLens.Lib.Arith

/-!
# Blits onto a surface

`blitRgb565` and `blitRgb565CenterCrop` with checked `int` arithmetic and with
bounds on the source and on the surface. A `Window` is a part of the source
that lies inside it, spans it one way and is centred the other way.
-/

namespace RetroLens.Core

open Checked

/-! ## The code -/

/-- The destination's memory, by the size of its elements. -/
inductive Surface (n : Nat) where
  | rgb565 (pixels : Buffer UInt16 n)
  | rgba (pixels : Buffer UInt32 n)

/-- A pixel of the 32-bit formats. -/
def expand (color : UInt16) : UInt32 :=
  let red := ((color >>> 11).toNat % 32) * 255 / 31
  let green := ((color >>> 5).toNat % 64) * 255 / 63
  let blue := (color.toNat % 32) * 255 / 31
  (0xff000000 : UInt32) ||| (UInt32.ofNat blue <<< 16) ||| (UInt32.ofNat green <<< 8) |||
    UInt32.ofNat red

variable {α : Type} {k n : Nat}

/-- The loops of `blitRgb565`. -/
def blitRows (convert : UInt16 → α) (source : Buffer UInt16 k)
    (sourceWidth sourceHeight destinationWidth destinationHeight destinationStride : Int) :
    Buffer α n → Option (Buffer α n) :=
  loop destinationHeight.toNat fun y pixels => do
    let sourceRow ← mul (← div (← mul y sourceHeight) destinationHeight) sourceWidth
    let destinationRow ← mul y destinationStride
    loop destinationWidth.toNat (fun x pixels => do
      let color ← source.get (sourceRow + (← div (← mul x sourceWidth) destinationWidth))
      pixels.set (destinationRow + x) (convert color)) pixels

/-- The result and the surface after it. The pointers are not null, and the
surface's elements have the size that its format tells. -/
def blitRgb565 (source : Buffer UInt16 k) (sourceWidth sourceHeight : Int)
    (destination : Surface n) (destinationWidth destinationHeight destinationStride
      destinationFormat : Int) : Option (Bool × Surface n) :=
  if sourceWidth ≤ 0 ∨ sourceHeight ≤ 0 ∨ destinationWidth ≤ 0 ∨ destinationHeight ≤ 0 ∨
      destinationStride < destinationWidth then some (false, destination)
  else if destinationFormat = 4 then
    match destination with
    | .rgb565 pixels =>
      (blitRows id source sourceWidth sourceHeight destinationWidth destinationHeight
        destinationStride pixels).map fun pixels => (true, .rgb565 pixels)
    | .rgba _ => none
  else if destinationFormat = 1 ∨ destinationFormat = 2 then
    match destination with
    | .rgba pixels =>
      (blitRows expand source sourceWidth sourceHeight destinationWidth destinationHeight
        destinationStride pixels).map fun pixels => (true, .rgba pixels)
    | .rgb565 _ => none
  else some (false, destination)

structure Crop where
  cropLeft : Int
  cropTop : Int
  cropWidth : Int
  cropHeight : Int

/-- The aspects are compared in 64 bits, where the products of two `int` values are exact. -/
def cropOf (sourceWidth sourceHeight destinationWidth destinationHeight : Int) : Option Crop :=
  if destinationWidth * sourceHeight > destinationHeight * sourceWidth then do
    let cropHeight ← div (← mul sourceWidth destinationHeight) destinationWidth
    let cropHeight := if cropHeight < 1 then 1 else cropHeight
    let cropTop ← div (← sub sourceHeight cropHeight) 2
    return ⟨0, cropTop, sourceWidth, cropHeight⟩
  else if destinationWidth * sourceHeight < destinationHeight * sourceWidth then do
    let cropWidth ← div (← mul sourceHeight destinationWidth) destinationHeight
    let cropWidth := if cropWidth < 1 then 1 else cropWidth
    let cropLeft ← div (← sub sourceWidth cropWidth) 2
    return ⟨cropLeft, 0, cropWidth, sourceHeight⟩
  else some ⟨0, 0, sourceWidth, sourceHeight⟩

/-- The loops of `blitRgb565CenterCrop`. -/
def cropRows (convert : UInt16 → α) (source : Buffer UInt16 k) (sourceWidth : Int) (c : Crop)
    (destinationWidth destinationHeight destinationStride : Int) :
    Buffer α n → Option (Buffer α n) :=
  loop destinationHeight.toNat fun y pixels => do
    let sourceY ← add c.cropTop (← div (← mul y c.cropHeight) destinationHeight)
    let destinationRow ← mul y destinationStride
    loop destinationWidth.toNat (fun x pixels => do
      let sourceX ← add c.cropLeft (← div (← mul x c.cropWidth) destinationWidth)
      let color ← source.get (← add (← mul sourceY sourceWidth) sourceX)
      pixels.set (destinationRow + x) (convert color)) pixels

def blitRgb565CenterCrop (source : Buffer UInt16 k) (sourceWidth sourceHeight : Int)
    (destination : Surface n) (destinationWidth destinationHeight destinationStride
      destinationFormat : Int) : Option (Bool × Surface n) :=
  if sourceWidth ≤ 0 ∨ sourceHeight ≤ 0 ∨ destinationWidth ≤ 0 ∨ destinationHeight ≤ 0 ∨
      destinationStride < destinationWidth then some (false, destination)
  else do
    let c ← cropOf sourceWidth sourceHeight destinationWidth destinationHeight
    if destinationFormat = 4 then
      match destination with
      | .rgb565 pixels =>
        (cropRows id source sourceWidth c destinationWidth destinationHeight destinationStride
          pixels).map fun pixels => (true, .rgb565 pixels)
      | .rgba _ => none
    else if destinationFormat = 1 ∨ destinationFormat = 2 then
      match destination with
      | .rgba pixels =>
        (cropRows expand source sourceWidth c destinationWidth destinationHeight destinationStride
          pixels).map fun pixels => (true, .rgba pixels)
      | .rgb565 _ => none
    else some (false, destination)

/-! ## Windows -/

/-- A part of a source of `sw` by `sh` pixels. -/
structure Window (sw sh : Nat) where
  left : Nat
  top : Nat
  width : Nat
  height : Nat
  nonempty : 0 < width ∧ 0 < height
  inside : left + width ≤ sw ∧ top + height ≤ sh
  spans : width = sw ∨ height = sh
  /-- The margins on two sides differ by one pixel at most. -/
  centred : sw - (left + width) - left ≤ 1 ∧ left ≤ sw - (left + width) ∧
    sh - (top + height) - top ≤ 1 ∧ top ≤ sh - (top + height)

namespace Window

variable {sw sh : Nat} (w : Window sw sh)

def crop : Crop := ⟨w.left, w.top, w.width, w.height⟩

/-- The row of the source that row `y` of `dh` shows. -/
def row (dh y : Nat) : Nat := w.top + y * w.height / dh

/-- The column of the source that column `x` of `dw` shows. -/
def column (dw x : Nat) : Nat := w.left + x * w.width / dw

theorem scaled_lt {d i size : Nat} (hi : i < d) (hs : 0 < size) : i * size / d < size :=
  Nat.div_lt_of_lt_mul (Nat.mul_lt_mul_of_pos_right hi hs)

theorem row_mem {dh y : Nat} (hy : y < dh) : w.top ≤ w.row dh y ∧ w.row dh y < w.top + w.height :=
  ⟨Nat.le_add_right _ _, Nat.add_lt_add_left (scaled_lt hy w.nonempty.2) _⟩

theorem column_mem {dw x : Nat} (hx : x < dw) :
    w.left ≤ w.column dw x ∧ w.column dw x < w.left + w.width :=
  ⟨Nat.le_add_right _ _, Nat.add_lt_add_left (scaled_lt hx w.nonempty.1) _⟩

theorem row_mono (dh : Nat) : Monotone (w.row dh) := fun _ _ h =>
  Nat.add_le_add_left (Nat.div_le_div_right (Nat.mul_le_mul_right _ h)) _

theorem column_mono (dw : Nat) : Monotone (w.column dw) := fun _ _ h =>
  Nat.add_le_add_left (Nat.div_le_div_right (Nat.mul_le_mul_right _ h)) _

/-- What a window shows lies in the source. -/
theorem index_lt {dw dh x y : Nat} (hx : x < dw) (hy : y < dh) :
    w.row dh y * sw + w.column dw x < sw * sh := by
  have hrow := (w.row_mem hy).2.trans_le w.inside.2
  have hcol := (w.column_mem hx).2.trans_le w.inside.1
  calc w.row dh y * sw + w.column dw x < w.row dh y * sw + sw := Nat.add_lt_add_left hcol _
    _ = (w.row dh y + 1) * sw := (Nat.succ_mul _ _).symm
    _ ≤ sh * sw := Nat.mul_le_mul_right _ hrow
    _ = sw * sh := Nat.mul_comm _ _

end Window

/-! ## The loops -/

/-- The sizes that a blit is asked for. -/
structure Sizes (sw sh dw dh stride : Nat) : Prop where
  sourceWidth : 1 ≤ sw ∧ sw ≤ 32767
  sourceHeight : 1 ≤ sh ∧ sh ≤ 32767
  width : 1 ≤ dw ∧ dw ≤ 32767
  height : 1 ≤ dh ∧ dh ≤ 32767
  rows : dw ≤ stride ∧ stride ≤ 32767

section

variable {sw sh dw dh stride : Nat}

theorem small_mul {a b : Nat} (ha : a ≤ 32767) (hb : b ≤ 32767) : a * b ≤ 1073676289 :=
  Nat.mul_le_mul ha hb

/-- The color that a window shows at a place. -/
def Window.color (w : Window sw sh) (source : Buffer UInt16 (sw * sh)) (dw dh y x : Nat) : UInt16 :=
  (source.get ((w.row dh y * sw + w.column dw x : Nat) : Int)).getD 0

theorem Window.get_color (w : Window sw sh) (source : Buffer UInt16 (sw * sh)) {y x : Nat}
    (hy : y < dh) (hx : x < dw) :
    source.get ((w.row dh y * sw + w.column dw x : Nat) : Int) =
      some (w.color source dw dh y x) := by
  rw [Window.color, Buffer.get_nat (w.index_lt hx hy)]
  rfl

theorem room_of_last (hroom : (dh - 1) * stride + dw ≤ n) :
    ∀ y < dh, ∀ x < dw, y * stride + x < n := by
  intro y hy x hx
  have hrow : y * stride ≤ (dh - 1) * stride := Nat.mul_le_mul_right _ (by omega)
  omega

theorem cropRows_eq (hs : Sizes sw sh dw dh stride) (hroom : (dh - 1) * stride + dw ≤ n)
    (convert : UInt16 → α) (source : Buffer UInt16 (sw * sh)) (w : Window sw sh)
    (b : Buffer α n) :
    cropRows convert source sw w.crop dw dh stride b = some (b.raster
      (fun y x => convert (w.color source dw dh y x)) stride dw dh 0) := by
  obtain ⟨hsw, hsh, hdw, hdh, hstride⟩ := hs
  have hinside := w.inside
  simp only [cropRows, Window.crop, Int.toNat_natCast]
  refine Buffer.loop_raster hstride.1 (room_of_last hroom) fun y hy p => ?_
  have hmem := w.row_mem hy
  have hscaled := small_mul (a := y) (b := w.height) (by omega) (by omega)
  have hplace := small_mul (a := y) (b := stride) (by omega) hstride.2
  have hline := small_mul (a := w.row dh y) (b := sw) (by omega) hsw.2
  have hrow : add (w.top : Int) ((y * w.height / dh : Nat) : Int) =
      some ((w.row dh y : Nat) : Int) := add_nat (show w.row dh y ≤ _ by omega)
  simp only [Option.bind_eq_bind, mul_nat (hscaled.trans (by omega)),
    div_nat hdh.1 (hscaled.trans (by omega)), mul_nat (hplace.trans (by omega)), hrow,
    Option.bind_some]
  refine loop_congr fun x hx p => ?_
  have hmem' := w.column_mem hx
  have hindex := (w.index_lt hx hy).trans_le (small_mul hsw.2 hsh.2)
  have hscaled' := small_mul (a := x) (b := w.width) (by omega) (by omega)
  have hcolumn : add (w.left : Int) ((x * w.width / dw : Nat) : Int) =
      some ((w.column dw x : Nat) : Int) := add_nat (show w.column dw x ≤ _ by omega)
  simp only [mul_nat (hscaled'.trans (by omega)), div_nat hdw.1 (hscaled'.trans (by omega)),
    hcolumn, mul_nat (hline.trans (by omega)), add_nat (hindex.le.trans (by omega)),
    Option.bind_some]
  rw [w.get_color source hy hx, Option.bind_some, Int.natCast_add]

/-- The whole source. -/
def Window.whole (hsw : 1 ≤ sw) (hsh : 1 ≤ sh) : Window sw sh where
  left := 0
  top := 0
  width := sw
  height := sh
  nonempty := ⟨hsw, hsh⟩
  inside := by omega
  spans := .inl rfl
  centred := by omega

theorem blitRows_eq (hs : Sizes sw sh dw dh stride) (hroom : (dh - 1) * stride + dw ≤ n)
    (convert : UInt16 → α) (source : Buffer UInt16 (sw * sh)) (b : Buffer α n) :
    let w := Window.whole hs.sourceWidth.1 hs.sourceHeight.1
    blitRows convert source sw sh dw dh stride b = some (b.raster
      (fun y x => convert (w.color source dw dh y x)) stride dw dh 0) := by
  intro w
  obtain ⟨hsw, hsh, hdw, hdh, hstride⟩ := hs
  simp only [blitRows, Int.toNat_natCast]
  refine Buffer.loop_raster hstride.1 (room_of_last hroom) fun y hy p => ?_
  have hscaled := small_mul (a := y) (b := sh) (by omega) hsh.2
  have hplace := small_mul (a := y) (b := stride) (by omega) hstride.2
  have hrow : y * sh / dh = w.row dh y := (Nat.zero_add _).symm
  have hmem := w.row_mem hy
  have hinside := w.inside
  have hline := small_mul (a := w.row dh y) (b := sw) (by omega) hsw.2
  simp only [Option.bind_eq_bind, mul_nat (hscaled.trans (by omega)),
    div_nat hdh.1 (hscaled.trans (by omega)), mul_nat (hplace.trans (by omega)), hrow,
    mul_nat (hline.trans (by omega)), Option.bind_some]
  refine loop_congr fun x hx p => ?_
  have hscaled' := small_mul (a := x) (b := sw) (by omega) hsw.2
  have hcolumn : x * sw / dw = w.column dw x := (Nat.zero_add _).symm
  simp only [mul_nat (hscaled'.trans (by omega)), div_nat hdw.1 (hscaled'.trans (by omega)),
    hcolumn, Option.bind_some]
  rw [← Int.natCast_add, w.get_color source hy hx, Option.bind_some, Int.natCast_add]

/-- Cutting one side `s` of the source, with its other side and the destination's sides
in the order of the source. -/
theorem cut_side {s r a b : Nat} (hs : 1 ≤ s ∧ s ≤ 32767) (hr : r ≤ 32767) (ha : a ≤ 32767)
    (hb : 1 ≤ b) (hcut : r * a < b * s) :
    ∃ size, 1 ≤ size ∧ size ≤ s ∧ ∀ next : Int → Int → Option Crop,
      (do
        let size ← div (← mul r a) b
        let size := if size < 1 then 1 else size
        let start ← div (← sub s size) 2
        next start size) = next ((s - size) / 2 : Nat) size := by
  have hprod := small_mul hr ha
  have hlt : r * a / b < s := Nat.div_lt_of_lt_mul hcut
  refine ⟨max 1 (r * a / b), by omega, by omega, fun next => ?_⟩
  have hsize : (if ((r * a / b : Nat) : Int) < 1 then (1 : Int) else ((r * a / b : Nat) : Int)) =
      ((max 1 (r * a / b) : Nat) : Int) := by
    split <;> omega
  have hhalf : div ((s - max 1 (r * a / b) : Nat) : Int) 2 =
      some (((s - max 1 (r * a / b)) / 2 : Nat) : Int) := div_nat (b := 2) (by omega) (by omega)
  simp only [Option.bind_eq_bind, mul_nat (hprod.trans (by omega)),
    div_nat hb (hprod.trans (by omega)), Option.bind_some, hsize,
    sub_nat (show max 1 (r * a / b) ≤ s by omega) (show s ≤ 2147483647 by omega), hhalf]

/-- The crop of the source is a window, the whole source where the aspects agree. -/
theorem cropOf_window (hs : Sizes sw sh dw dh stride) :
    ∃ w : Window sw sh, cropOf sw sh dw dh = some w.crop ∧
      (dw * sh = dh * sw → w = .whole hs.sourceWidth.1 hs.sourceHeight.1) := by
  obtain ⟨hsw, hsh, hdw, hdh, -⟩ := hs
  unfold cropOf
  simp only [← Int.natCast_mul, gt_iff_lt, Int.ofNat_lt]
  by_cases hwide : dh * sw < dw * sh
  · obtain ⟨height, hpos, hle, hcut⟩ := cut_side hsh hsw.2 hdh.2 hdw.1 (by rwa [Nat.mul_comm sw dh])
    refine ⟨⟨0, (sh - height) / 2, sw, height, by omega, by omega, .inl rfl, by omega⟩, ?_,
      fun h => absurd hwide (by omega)⟩
    rw [if_pos hwide]
    exact hcut fun cropTop cropHeight => some ⟨0, cropTop, sw, cropHeight⟩
  rw [if_neg hwide]
  by_cases htall : dw * sh < dh * sw
  · obtain ⟨width, hpos, hle, hcut⟩ := cut_side hsw hsh.2 hdw.2 hdh.1 (by rwa [Nat.mul_comm sh dw])
    refine ⟨⟨(sw - width) / 2, 0, width, sh, by omega, by omega, .inr rfl, by omega⟩, ?_,
      fun h => absurd htall (by omega)⟩
    rw [if_pos htall]
    exact hcut fun cropLeft cropWidth => some ⟨cropLeft, 0, cropWidth, sh⟩
  · exact ⟨.whole hsw.1 hsh.1, if_neg htall, fun _ => rfl⟩

/-! ## The whole blit -/

/-- The surface shows the window, each of its pixels converted, and nothing else of it
has changed. -/
structure Shows (convert : UInt16 → α) (source : Buffer UInt16 (sw * sh)) (w : Window sw sh)
    (dw dh stride : Nat) (b c : Buffer α n) : Prop where
  area : ∀ y < dh, ∀ x < dw, ∃ color,
    source.get ((w.row dh y * sw + w.column dw x : Nat) : Int) = some color ∧
      c.get ((y * stride + x : Nat) : Int) = some (convert color)
  rest : ∀ j : Fin n, (∀ y < dh, ∀ x < dw, j.val ≠ y * stride + x) → c.cell j = b.cell j

theorem raster_shows (hs : Sizes sw sh dw dh stride) (hroom : (dh - 1) * stride + dw ≤ n)
    (convert : UInt16 → α) (source : Buffer UInt16 (sw * sh)) (w : Window sw sh)
    (b : Buffer α n) : Shows convert source w dw dh stride b (b.raster
      (fun y x => convert (w.color source dw dh y x)) stride dw dh 0) where
  area y hy x hx := by
    refine ⟨_, w.get_color source hy hx, ?_⟩
    obtain ⟨hdiv, hmod⟩ := (Buffer.place_iff (y := y) (hx.trans_le hs.rows.1)).1 rfl
    rw [Buffer.get_nat (room_of_last hroom y hy x hx)]
    simp only [Buffer.raster, hdiv, hmod]
    rw [if_pos ⟨hx, .inl hy⟩]
  rest j hj := by
    refine if_neg fun hinside => ?_
    obtain ⟨hx, hy⟩ := hinside
    have hy : j.val / stride < dh := by omega
    exact hj _ hy _ hx ((Buffer.place_iff (hx.trans_le hs.rows.1)).2 ⟨rfl, rfl⟩)

/-- `blitRgb565CenterCrop` on one source and one layout, whatever the surface held:
it shows one window of the source in all formats, the whole source as `blitRgb565`
does where the aspects agree. -/
structure CropExact (source : Buffer UInt16 (sw * sh)) (dw dh stride n : Nat) (w : Window sw sh) :
    Prop where
  rows : Monotone (w.row dh) ∧ ∀ y < dh, w.top ≤ w.row dh y ∧ w.row dh y < w.top + w.height
  columns : Monotone (w.column dw) ∧
    ∀ x < dw, w.left ≤ w.column dw x ∧ w.column dw x < w.left + w.width
  narrow : ∀ b : Buffer UInt16 n, ∃ c,
    blitRgb565CenterCrop source sw sh (.rgb565 b) dw dh stride 4 = some (true, .rgb565 c) ∧
      Shows id source w dw dh stride b c
  wide : ∀ format : Int, format = 1 ∨ format = 2 → ∀ b : Buffer UInt32 n, ∃ c,
    blitRgb565CenterCrop source sw sh (.rgba b) dw dh stride format = some (true, .rgba c) ∧
      Shows expand source w dw dh stride b c
  same : dw * sh = dh * sw → ∀ (surface : Surface n) (format : Int),
    blitRgb565CenterCrop source sw sh surface dw dh stride format =
      blitRgb565 source sw sh surface dw dh stride format

/-- **The blit with center crop is exact for every source, size and layout.** -/
theorem blitCenterCrop_exact (hs : Sizes sw sh dw dh stride)
    (hroom : (dh - 1) * stride + dw ≤ n) (source : Buffer UInt16 (sw * sh)) :
    ∃ w : Window sw sh, CropExact source dw dh stride n w := by
  obtain ⟨w, hcrop, hwhole⟩ := cropOf_window hs
  have hguard : ¬ ((sw : Int) ≤ 0 ∨ (sh : Int) ≤ 0 ∨ (dw : Int) ≤ 0 ∨ (dh : Int) ≤ 0 ∨
      (stride : Int) < dw) := by
    have := hs.sourceWidth; have := hs.sourceHeight; have := hs.width; have := hs.height
    have := hs.rows
    omega
  refine ⟨w, ⟨⟨w.row_mono dh, fun _ => w.row_mem⟩, ⟨w.column_mono dw, fun _ => w.column_mem⟩,
    fun b => ⟨_, ?_, raster_shows hs hroom id source w b⟩,
    fun format hf b => ⟨_, ?_, raster_shows hs hroom expand source w b⟩,
    fun hsame surface format => ?_⟩⟩
  · rw [blitRgb565CenterCrop, if_neg hguard, hcrop]
    simp only [Option.bind_eq_bind, Option.bind_some, if_true, cropRows_eq hs hroom id source w b,
      Option.map_some]
  · have hfour : format ≠ 4 := by omega
    rw [blitRgb565CenterCrop, if_neg hguard, hcrop]
    simp only [Option.bind_eq_bind, Option.bind_some, if_neg hfour, if_pos hf,
      cropRows_eq hs hroom expand source w b, Option.map_some]
  · unfold blitRgb565CenterCrop blitRgb565
    rw [if_neg hguard, if_neg hguard, hcrop, hwhole hsame]
    simp only [Option.bind_eq_bind, Option.bind_some]
    cases surface <;>
      simp only [cropRows_eq hs hroom, blitRows_eq hs hroom]

theorem blitCenterCrop_exact_screen : ∃ w : Window 240 180,
    CropExact ⟨fun i => UInt16.ofNat i⟩ 640 360 648 (648 * 360) w :=
  blitCenterCrop_exact ⟨by omega, by omega, by omega, by omega, by omega⟩ (by omega) _

end

end RetroLens.Core
