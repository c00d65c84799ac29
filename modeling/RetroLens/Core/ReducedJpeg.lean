import RetroLens.Core.Frame

/-!
# The reduced decoder

`decodeReducedJpeg` writes an 80x60 frame block by block while it decodes a
640x480 JPEG, one MCU after the other. What picojpeg makes of the bytes is the
parameter `PicoJpeg`: the header that `pjpeg_decode_init` reports, and the
buffers that each call of `pjpeg_decode_mcu` fills, or its failure.

The blocks of the MCUs tile the frame (`writeMcu_pixels`). A call that
succeeds leaves the complete decode, whatever the buffer held before
(`decodeReducedJpeg_complete`); a call that fails leaves the buffer as it was
exactly when nothing it had written by then was new (`decodeReducedJpeg_failed`).
-/

namespace RetroLens.Core

open Text

/-! ## What picojpeg reports -/

/-- `pjpeg_scan_type_t`. -/
inductive ScanType where
  | grayscale
  | yh1v1
  | yh2v1
  | yh1v2
  | yh2v2
  deriving DecidableEq, Repr

def ScanType.mcuWidth : ScanType → Nat
  | .grayscale | .yh1v1 | .yh1v2 => 8
  | .yh2v1 | .yh2v2 => 16

def ScanType.mcuHeight : ScanType → Nat
  | .grayscale | .yh1v1 | .yh2v1 => 8
  | .yh1v2 | .yh2v2 => 16

/-- The fields of `pjpeg_image_info_t` that do not follow from the others. -/
structure ImageInfo where
  width : Nat
  height : Nat
  scanType : ScanType
  deriving DecidableEq, Repr

namespace ImageInfo

def mcuWidth (info : ImageInfo) : Nat := info.scanType.mcuWidth

def mcuHeight (info : ImageInfo) : Nat := info.scanType.mcuHeight

def mcusPerRow (info : ImageInfo) : Nat :=
  (info.width + (info.mcuWidth - 1)) >>> (if info.mcuWidth = 8 then 3 else 4)

def mcusPerCol (info : ImageInfo) : Nat :=
  (info.height + (info.mcuHeight - 1)) >>> (if info.mcuHeight = 8 then 3 else 4)

end ImageInfo

/-- The three component buffers of an MCU. -/
structure Mcu where
  r : Nat → UInt8
  g : Nat → UInt8
  b : Nat → UInt8

def Mcu.pixel (mcu : Mcu) (offset : Nat) : Pixel := ⟨mcu.r offset, mcu.g offset, mcu.b offset⟩

/-- What the calls of picojpeg return while one JPEG is decoded. -/
structure PicoJpeg where
  decodeInit : Option ImageInfo
  /-- The call number `k` of `pjpeg_decode_mcu`, counted from 0; `none` for any error. -/
  decodeMcu : Nat → Option Mcu

/-! ## The decoder -/

def mcuOffset (localX localY : Nat) : Nat := localY / 8 * 128 + localX / 8 * 64

def Frame.set (f : Frame) (i : Nat) (p : Pixel) : Frame :=
  ⟨f.pixels.set i p, by rw [List.length_set, f.size]⟩

/-- The output row `y` of a block, from column `outputLeft` to `outputRight`. -/
def writeRow (info : ImageInfo) (mcu : Mcu) (left top y outputLeft outputRight : Nat)
    (output : Frame) : Frame :=
  (List.range' outputLeft (outputRight - outputLeft)).foldl (fun output x =>
    let sourceX := x * info.width / kFrameWidth
    let sourceY := y * info.height / kFrameHeight
    output.set (y * kFrameWidth + x) (mcu.pixel (mcuOffset (sourceX - left) (sourceY - top))))
    output

/-- The block of the MCU in row `my` and column `mx`. -/
def writeMcu (info : ImageInfo) (mcu : Mcu) (my mx : Nat) (output : Frame) : Frame :=
  let left := mx * info.mcuWidth
  let top := my * info.mcuHeight
  let right := min (left + info.mcuWidth) info.width
  let bottom := min (top + info.mcuHeight) info.height
  let outputLeft := left * kFrameWidth / info.width
  let outputTop := top * kFrameHeight / info.height
  let outputRight := (right * kFrameWidth + info.width - 1) / info.width
  let outputBottom := (bottom * kFrameHeight + info.height - 1) / info.height
  (List.range' outputTop (outputBottom - outputTop)).foldl (fun output y =>
    writeRow info mcu left top y outputLeft outputRight output) output

/-- The inner loop: `n` MCUs of row `my` from column `mx` on. -/
def decodeRow (p : PicoJpeg) (info : ImageInfo) (my : Nat) : Nat → Nat → Frame → Bool × Frame
  | 0, _, output => (true, output)
  | n + 1, mx, output =>
    match p.decodeMcu (my * info.mcusPerRow + mx) with
    | none => (false, output)
    | some mcu => decodeRow p info my n (mx + 1) (writeMcu info mcu my mx output)

/-- The outer loop: `n` rows of MCUs from row `my` on. -/
def decodeRows (p : PicoJpeg) (info : ImageInfo) : Nat → Nat → Frame → Bool × Frame
  | 0, _, output => (true, output)
  | n + 1, my, output =>
    let r := decodeRow p info my info.mcusPerRow 0 output
    if r.1 then decodeRows p info n (my + 1) r.2 else (false, r.2)

def decodeReducedJpeg (p : PicoJpeg) (jpeg : Bytes) (output : Frame) : Bool × Frame :=
  if jpeg.length < 4 then (false, output)
  else
    match p.decodeInit with
    | none => (false, output)
    | some info =>
      if info.width ≠ 640 ∨ info.height ≠ 480 then (false, output)
      else decodeRows p info info.mcusPerCol 0 output

/-! ## Where each pixel comes from -/

/-- The number of the MCU that covers a point of the source. -/
def mcuAt (info : ImageInfo) (sourceX sourceY : Nat) : Nat :=
  sourceY / info.mcuHeight * info.mcusPerRow + sourceX / info.mcuWidth

/-- The MCU of output pixel `i`: every eighth point of the source is sampled. -/
def mcuOf (info : ImageInfo) (i : Nat) : Nat :=
  mcuAt info (i % kFrameWidth * 8) (i / kFrameWidth * 8)

/-- What the decoded image shows at a point of the source. -/
def PicoJpeg.sample (p : PicoJpeg) (info : ImageInfo) (sourceX sourceY : Nat) : Pixel :=
  match p.decodeMcu (mcuAt info sourceX sourceY) with
  | none => default
  | some mcu => mcu.pixel (mcuOffset (sourceX % info.mcuWidth) (sourceY % info.mcuHeight))

def PicoJpeg.sampleOf (p : PicoJpeg) (info : ImageInfo) (i : Nat) : Pixel :=
  p.sample info (i % kFrameWidth * 8) (i / kFrameWidth * 8)

/-- The frame that a JPEG shows: nothing of what the buffer held before. -/
def completeDecode (p : PicoJpeg) (info : ImageInfo) : Frame :=
  ⟨(List.range framePixels).map (p.sampleOf info), by rw [List.length_map, List.length_range]⟩

theorem completeDecode_pixels (p : PicoJpeg) (info : ImageInfo) {i : Nat} (hi : i < framePixels) :
    (completeDecode p info).pixels[i]? = some (p.sampleOf info i) := by
  simp [completeDecode, hi]

/-- What `decodeReducedJpeg` goes on with. -/
def ImageInfo.Full (info : ImageInfo) : Prop := info.width = 640 ∧ info.height = 480

variable {p : PicoJpeg} {info : ImageInfo} {mcu : Mcu} {output : Frame}

/-! ## The blocks tile the frame -/

theorem writes_pixels (base : Nat) (v : Nat → Pixel) {n a : Nat} (output : Frame)
    (hroom : base + (a + n) ≤ framePixels) (i : Nat) :
    ((List.range' a n).foldl (fun output x => output.set (base + x) (v x)) output).pixels[i]? =
      if base + a ≤ i ∧ i < base + (a + n) then some (v (i - base)) else output.pixels[i]? := by
  induction n generalizing a output with
  | zero => simp
  | succ n ih =>
    rw [List.range'_succ, List.foldl_cons,
      ih (a := a + 1) (output.set (base + a) (v a)) (by omega)]
    have hset : (output.set (base + a) (v a)).pixels[i]? =
        if base + a = i then some (v a) else output.pixels[i]? := by
      have hlt : base + a < output.pixels.length := by rw [output.size]; omega
      simp only [Frame.set, List.getElem?_set, if_pos hlt]
    rw [hset]
    by_cases hi : base + a = i
    · subst hi
      rw [if_neg (by omega), if_pos rfl, if_pos (by omega), Nat.add_sub_cancel_left]
    · rw [if_neg hi]
      by_cases hin : base + a ≤ i ∧ i < base + (a + (n + 1))
      · rw [if_pos hin, if_pos (by omega)]
      · rw [if_neg hin, if_neg (by omega)]

theorem writeRow_pixels {left top y l r : Nat} (output : Frame) (hl : l ≤ r) (hr : r ≤ kFrameWidth)
    (hy : y < kFrameHeight) (i : Nat) :
    (writeRow info mcu left top y l r output).pixels[i]? =
      if i / kFrameWidth = y ∧ l ≤ i % kFrameWidth ∧ i % kFrameWidth < r then
        some (mcu.pixel (mcuOffset (i % kFrameWidth * info.width / kFrameWidth - left)
          (y * info.height / kFrameHeight - top)))
      else output.pixels[i]? := by
  have hw := writes_pixels (y * kFrameWidth) (a := l) (n := r - l)
    (fun x => mcu.pixel (mcuOffset (x * info.width / kFrameWidth - left)
      (y * info.height / kFrameHeight - top))) output
    (by simp only [framePixels, kFrameWidth, kFrameHeight] at hy hr ⊢; omega) i
  apply hw.trans
  by_cases hin : i / kFrameWidth = y ∧ l ≤ i % kFrameWidth ∧ i % kFrameWidth < r
  · have hx : i - y * kFrameWidth = i % kFrameWidth := by
      simp only [kFrameWidth] at hin ⊢
      omega
    rw [if_pos hin, if_pos (by simp only [kFrameWidth] at hin ⊢; omega), hx]
  · rw [if_neg hin, if_neg (by simp only [kFrameWidth] at hin hr ⊢; omega)]

theorem writeRows_pixels {left top l r : Nat} (hl : l ≤ r) (hr : r ≤ kFrameWidth) {n a : Nat}
    (output : Frame) (hroom : a + n ≤ kFrameHeight) (i : Nat) :
    ((List.range' a n).foldl (fun output y => writeRow info mcu left top y l r output)
        output).pixels[i]? =
      if (a ≤ i / kFrameWidth ∧ i / kFrameWidth < a + n) ∧ l ≤ i % kFrameWidth ∧
          i % kFrameWidth < r then
        some (mcu.pixel (mcuOffset (i % kFrameWidth * info.width / kFrameWidth - left)
          (i / kFrameWidth * info.height / kFrameHeight - top)))
      else output.pixels[i]? := by
  induction n generalizing a output with
  | zero => simp
  | succ n ih =>
    rw [List.range'_succ, List.foldl_cons,
      ih (a := a + 1) (writeRow info mcu left top a l r output) (by omega),
      writeRow_pixels output hl hr (by omega)]
    by_cases hy : i / kFrameWidth = a
    · subst hy
      rw [if_neg (by omega)]
      by_cases hx : l ≤ i % kFrameWidth ∧ i % kFrameWidth < r
      · rw [if_pos ⟨rfl, hx⟩, if_pos ⟨by omega, hx⟩]
      · rw [if_neg fun h => hx h.2, if_neg fun h => hx h.2]
    · rw [if_neg (c := i / kFrameWidth = a ∧ _) fun h => hy h.1]
      by_cases hin : (a ≤ i / kFrameWidth ∧ i / kFrameWidth < a + (n + 1)) ∧
          l ≤ i % kFrameWidth ∧ i % kFrameWidth < r
      · rw [if_pos hin, if_pos (by omega)]
      · rw [if_neg hin, if_neg (by omega)]

/-- The MCUs of a full image, by their two sizes. -/
theorem ImageInfo.Full.sizes (h : info.Full) :
    (info.mcuWidth = 8 ∧ info.mcusPerRow = 80 ∨ info.mcuWidth = 16 ∧ info.mcusPerRow = 40) ∧
      (info.mcuHeight = 8 ∧ info.mcusPerCol = 60 ∨
        info.mcuHeight = 16 ∧ info.mcusPerCol = 30) := by
  obtain ⟨width, height, scanType⟩ := info
  obtain ⟨rfl, rfl⟩ := h
  cases scanType <;> decide

/-- The number of an MCU says its row and column. -/
theorem mcuOf_eq_iff (h : info.Full) {my mx i : Nat} (hmx : mx < info.mcusPerRow) :
    mcuOf info i = my * info.mcusPerRow + mx ↔
      i / kFrameWidth * 8 / info.mcuHeight = my ∧ i % kFrameWidth * 8 / info.mcuWidth = mx := by
  obtain ⟨hw, hh⟩ := h.sizes
  simp only [mcuOf, mcuAt, kFrameWidth]
  rcases hw with ⟨hw, hper⟩ | ⟨hw, hper⟩
  · rw [hper] at hmx
    rw [hw, hper]
    omega
  · rw [hper] at hmx
    rw [hw, hper]
    omega

/-- A block begins and ends on whole output pixels: every MCU is one or two of them wide. -/
theorem block_cols (h : info.Full) {mx : Nat} (hmx : mx < info.mcusPerRow) :
    mx * info.mcuWidth * kFrameWidth / info.width = mx * (info.mcuWidth / 8) ∧
      (min (mx * info.mcuWidth + info.mcuWidth) info.width * kFrameWidth + info.width - 1) /
        info.width = (mx + 1) * (info.mcuWidth / 8) ∧
      (mx + 1) * (info.mcuWidth / 8) ≤ kFrameWidth := by
  simp only [h.1, kFrameWidth]
  rcases h.sizes.1 with ⟨hw, hper⟩ | ⟨hw, hper⟩
  · rw [hper] at hmx
    rw [hw]
    omega
  · rw [hper] at hmx
    rw [hw]
    omega

theorem block_rows (h : info.Full) {my : Nat} (hmy : my < info.mcusPerCol) :
    my * info.mcuHeight * kFrameHeight / info.height = my * (info.mcuHeight / 8) ∧
      (min (my * info.mcuHeight + info.mcuHeight) info.height * kFrameHeight + info.height - 1) /
        info.height = (my + 1) * (info.mcuHeight / 8) ∧
      (my + 1) * (info.mcuHeight / 8) ≤ kFrameHeight := by
  simp only [h.2, kFrameHeight]
  rcases h.sizes.2 with ⟨hh, hper⟩ | ⟨hh, hper⟩
  · rw [hper] at hmy
    rw [hh]
    omega
  · rw [hper] at hmy
    rw [hh]
    omega

/-- The points that fall into an MCU, and where in it they fall. -/
theorem within_mcu {size k x : Nat} (hsize : size = 8 ∨ size = 16) :
    (k * (size / 8) ≤ x ∧ x < (k + 1) * (size / 8) ↔ x * 8 / size = k) ∧
      (x * 8 / size = k → x * 8 - k * size = x * 8 % size) := by
  rcases hsize with rfl | rfl
  · omega
  · omega

/-- **One block.** An MCU writes the pixels it covers, and no others. -/
theorem writeMcu_pixels (h : info.Full) {my mx : Nat} (hmy : my < info.mcusPerCol)
    (hmx : mx < info.mcusPerRow) (output : Frame) (i : Nat) :
    (writeMcu info mcu my mx output).pixels[i]? =
      if mcuOf info i = my * info.mcusPerRow + mx then
        some (mcu.pixel (mcuOffset (i % kFrameWidth * 8 % info.mcuWidth)
          (i / kFrameWidth * 8 % info.mcuHeight)))
      else output.pixels[i]? := by
  obtain ⟨hleft, hright, hcols⟩ := block_cols h hmx
  obtain ⟨htop, hbottom, hrows⟩ := block_rows h hmy
  have hx := @within_mcu info.mcuWidth mx (i % kFrameWidth) (h.sizes.1.imp And.left And.left)
  have hy := @within_mcu info.mcuHeight my (i / kFrameWidth) (h.sizes.2.imp And.left And.left)
  have hxl : mx * (info.mcuWidth / 8) ≤ (mx + 1) * (info.mcuWidth / 8) :=
    Nat.mul_le_mul_right _ (Nat.le_succ mx)
  have hyl : my * (info.mcuHeight / 8) + ((my + 1) * (info.mcuHeight / 8) -
      my * (info.mcuHeight / 8)) = (my + 1) * (info.mcuHeight / 8) :=
    Nat.add_sub_cancel' (Nat.mul_le_mul_right _ (Nat.le_succ my))
  have hsourceX : i % kFrameWidth * info.width / kFrameWidth = i % kFrameWidth * 8 := by
    rw [h.1, kFrameWidth]
    omega
  have hsourceY : i / kFrameWidth * info.height / kFrameHeight = i / kFrameWidth * 8 := by
    rw [h.2, kFrameHeight]
    omega
  unfold writeMcu
  dsimp only
  rw [hleft, hright, htop, hbottom, writeRows_pixels hxl hcols output (by rw [hyl]; exact hrows),
    hyl, hsourceX, hsourceY]
  by_cases hin : mcuOf info i = my * info.mcusPerRow + mx
  · obtain ⟨hmy', hmx'⟩ := (mcuOf_eq_iff h hmx).1 hin
    rw [if_pos hin, if_pos ⟨hy.1.2 hmy', hx.1.2 hmx'⟩, hx.2 hmx', hy.2 hmy']
  · rw [if_neg hin, if_neg fun hc => hin ((mcuOf_eq_iff h hmx).2 ⟨hy.1.1 hc.1, hx.1.1 hc.2⟩)]

/-! ## How far the decoder gets -/

/-- The first `k` MCUs have been decoded into a buffer that held `old`. -/
structure DecodedTo (p : PicoJpeg) (info : ImageInfo) (k : Nat) (old new : Frame) : Prop where
  decoded : ∀ j < k, (p.decodeMcu j).isSome
  pixels : ∀ i < framePixels, new.pixels[i]? =
    if mcuOf info i < k then some (p.sampleOf info i) else old.pixels[i]?

variable {old : Frame} {k : Nat}

theorem DecodedTo.zero (old : Frame) : DecodedTo p info 0 old old :=
  ⟨fun j hj => absurd hj (Nat.not_lt_zero j), fun i _ => by rw [if_neg (Nat.not_lt_zero _)]⟩

theorem DecodedTo.next (hf : info.Full) {my mx : Nat} (hmy : my < info.mcusPerCol)
    (hmx : mx < info.mcusPerRow)
    (h : DecodedTo p info (my * info.mcusPerRow + mx) old output)
    (hmcu : p.decodeMcu (my * info.mcusPerRow + mx) = some mcu) :
    DecodedTo p info (my * info.mcusPerRow + (mx + 1)) old (writeMcu info mcu my mx output) where
  decoded j hj := by
    by_cases hlast : j = my * info.mcusPerRow + mx
    · rw [hlast, hmcu]
      rfl
    · exact h.decoded j (by omega)
  pixels i hi := by
    rw [writeMcu_pixels hf hmy hmx, h.pixels i hi]
    by_cases hin : mcuOf info i = my * info.mcusPerRow + mx
    · have hsample : p.sampleOf info i = mcu.pixel (mcuOffset (i % kFrameWidth * 8 % info.mcuWidth)
          (i / kFrameWidth * 8 % info.mcuHeight)) := by
        have hm : mcuAt info (i % kFrameWidth * 8) (i / kFrameWidth * 8) = _ := hin
        simp only [PicoJpeg.sampleOf, PicoJpeg.sample, hm, hmcu]
      rw [if_pos hin, if_pos (by omega), hsample]
    · rw [if_neg hin]
      by_cases hlt : mcuOf info i < my * info.mcusPerRow + mx
      · rw [if_pos hlt, if_pos (by omega)]
      · rw [if_neg hlt, if_neg (by omega)]

/-- Decoding up to MCU `total`: it gets there, or it stops at one that cannot be decoded. -/
def Reaches (p : PicoJpeg) (info : ImageInfo) (total : Nat) (old : Frame) (r : Bool × Frame) :
    Prop :=
  ∃ k ≤ total, DecodedTo p info k old r.2 ∧
    if r.1 then k = total else k < total ∧ p.decodeMcu k = none

theorem decodeRow_reaches (hf : info.Full) {my : Nat} (hmy : my < info.mcusPerCol) {n mx : Nat}
    (hn : mx + n = info.mcusPerRow) {output : Frame}
    (h : DecodedTo p info (my * info.mcusPerRow + mx) old output) :
    Reaches p info ((my + 1) * info.mcusPerRow) old (decodeRow p info my n mx output) := by
  have hsucc : (my + 1) * info.mcusPerRow = my * info.mcusPerRow + info.mcusPerRow :=
    Nat.succ_mul my info.mcusPerRow
  induction n generalizing mx output with
  | zero => exact ⟨_, by omega, h, by simp [decodeRow]; omega⟩
  | succ n ih =>
    unfold decodeRow
    split
    · rename_i hnone
      exact ⟨_, by omega, h, by simp; exact ⟨by omega, hnone⟩⟩
    · rename_i mcu hmcu
      exact ih (by omega) (h.next hf hmy (by omega) hmcu)

theorem decodeRows_reaches (hf : info.Full) {n my : Nat} (hn : my + n = info.mcusPerCol)
    {output : Frame} (h : DecodedTo p info (my * info.mcusPerRow) old output) :
    Reaches p info (info.mcusPerCol * info.mcusPerRow) old (decodeRows p info n my output) := by
  induction n generalizing my output with
  | zero =>
    obtain rfl : my = info.mcusPerCol := by omega
    exact ⟨_, Nat.le_refl _, h, by simp [decodeRows]⟩
  | succ n ih =>
    have hmy : my < info.mcusPerCol := by omega
    obtain ⟨k, hk, hto, hend⟩ := decodeRow_reaches hf hmy (Nat.zero_add info.mcusPerRow) h
    unfold decodeRows
    dsimp only
    by_cases hrow : (decodeRow p info my info.mcusPerRow 0 output).1 = true
    · rw [if_pos hrow] at hend ⊢
      exact ih (by omega) (hend ▸ hto)
    · rw [if_neg hrow] at hend ⊢
      have hle : (my + 1) * info.mcusPerRow ≤ info.mcusPerCol * info.mcusPerRow :=
        Nat.mul_le_mul_right _ hmy
      exact ⟨k, by omega, hto, by simp; exact ⟨by omega, hend.2⟩⟩

/-! ## What the call leaves -/

/-- The JPEG gets past the checks of the header. -/
structure Accepts (p : PicoJpeg) (jpeg : Bytes) (info : ImageInfo) : Prop where
  length : 4 ≤ jpeg.length
  header : p.decodeInit = some info
  full : info.Full

/-- Nothing in the JPEG fails. -/
def Decodes (p : PicoJpeg) (jpeg : Bytes) : Prop :=
  ∃ info, Accepts p jpeg info ∧
    ∀ j < info.mcusPerCol * info.mcusPerRow, (p.decodeMcu j).isSome

/-- What is decoded before the first failure, the frame shows already. -/
def NothingNew (p : PicoJpeg) (jpeg : Bytes) (old : Frame) : Prop :=
  ∀ info, Accepts p jpeg info → ∀ i < framePixels,
    (∀ j ≤ mcuOf info i, (p.decodeMcu j).isSome) → old.pixels[i]? = some (p.sampleOf info i)

variable {jpeg : Bytes}

theorem Accepts.unique {other : ImageInfo} (h : Accepts p jpeg info) (h' : Accepts p jpeg other) :
    info = other :=
  Option.some.inj (h.header.symm.trans h'.header)

theorem Frame.ext_pixels {f g : Frame} (h : ∀ i < framePixels, f.pixels[i]? = g.pixels[i]?) :
    f = g := by
  have hpixels : f.pixels = g.pixels := by
    refine List.ext_getElem? fun i => ?_
    by_cases hi : i < framePixels
    · exact h i hi
    · rw [List.getElem?_eq_none (by rw [f.size]; omega),
        List.getElem?_eq_none (by rw [g.size]; omega)]
  cases f
  cases g
  cases hpixels
  rfl

theorem mcuOf_lt (h : info.Full) {i : Nat} (hi : i < framePixels) :
    mcuOf info i < info.mcusPerCol * info.mcusPerRow := by
  obtain ⟨hw, hh⟩ := h.sizes
  simp only [framePixels, kFrameWidth, kFrameHeight] at hi
  simp only [mcuOf, mcuAt, kFrameWidth]
  rcases hw with ⟨hw, hrow⟩ | ⟨hw, hrow⟩ <;> rcases hh with ⟨hh, hcol⟩ | ⟨hh, hcol⟩ <;>
    rw [hw, hrow, hh, hcol] <;> omega

/-- The call refuses the JPEG at its header, or goes through its MCUs. -/
theorem decodeReducedJpeg_cases (p : PicoJpeg) (jpeg : Bytes) (output : Frame) :
    (decodeReducedJpeg p jpeg output = (false, output) ∧ ∀ info, ¬ Accepts p jpeg info) ∨
      ∃ info, Accepts p jpeg info ∧ Reaches p info (info.mcusPerCol * info.mcusPerRow) output
        (decodeReducedJpeg p jpeg output) := by
  unfold decodeReducedJpeg
  by_cases hlength : jpeg.length < 4
  · rw [if_pos hlength]
    exact .inl ⟨rfl, fun info h => absurd h.length (by omega)⟩
  · rw [if_neg hlength]
    split
    · rename_i hnone
      exact .inl ⟨rfl, fun info h => by cases hnone.symm.trans h.header⟩
    · rename_i info hinfo
      by_cases hsize : info.width ≠ 640 ∨ info.height ≠ 480
      · rw [if_pos hsize]
        refine .inl ⟨rfl, fun other h => ?_⟩
        obtain rfl : info = other := Option.some.inj (hinfo.symm.trans h.header)
        exact hsize.elim (fun hw => hw h.full.1) fun hh => hh h.full.2
      · rw [if_neg hsize]
        have hfull : info.Full := by
          simpa only [ImageInfo.Full, not_or, not_not] using hsize
        have hzero : DecodedTo p info (0 * info.mcusPerRow) output output := by
          rw [Nat.zero_mul]
          exact .zero output
        exact .inr ⟨info, ⟨by omega, hinfo, hfull⟩,
          decodeRows_reaches hfull (Nat.zero_add _) hzero⟩

/-- The call succeeds when nothing in the JPEG fails. -/
theorem decodeReducedJpeg_iff (output : Frame) :
    (decodeReducedJpeg p jpeg output).1 = true ↔ Decodes p jpeg := by
  rcases decodeReducedJpeg_cases p jpeg output with ⟨heq, hno⟩ | ⟨info, ha, k, hk, hto, hend⟩
  · rw [heq]
    exact ⟨fun h => (by cases h), fun ⟨info, h, _⟩ => absurd h (hno info)⟩
  · constructor
    · intro h
      rw [if_pos h] at hend
      exact ⟨info, ha, hend ▸ hto.decoded⟩
    · rintro ⟨other, ho, hall⟩
      obtain rfl := ha.unique ho
      by_cases h : (decodeReducedJpeg p jpeg output).1 = true
      · exact h
      · rw [if_neg h] at hend
        have hsome := hall k hend.1
        rw [hend.2] at hsome
        cases hsome

/-- **A call that succeeds leaves the whole image**, and nothing of what the buffer held. -/
theorem decodeReducedJpeg_complete (h : (decodeReducedJpeg p jpeg output).1 = true) :
    ∃ info, p.decodeInit = some info ∧
      (decodeReducedJpeg p jpeg output).2 = completeDecode p info := by
  rcases decodeReducedJpeg_cases p jpeg output with ⟨heq, -⟩ | ⟨info, ha, k, hk, hto, hend⟩
  · rw [heq] at h
    cases h
  · rw [if_pos h] at hend
    refine ⟨info, ha.header, Frame.ext_pixels fun i hi => ?_⟩
    have hlt := mcuOf_lt ha.full hi
    rw [hto.pixels i hi, if_pos (by omega), completeDecode_pixels p info hi]

/-- **A call that fails leaves the frame as it was exactly when it had nothing new to write.** -/
theorem decodeReducedJpeg_failed (h : (decodeReducedJpeg p jpeg output).1 = false) :
    (decodeReducedJpeg p jpeg output).2 = output ↔ NothingNew p jpeg output := by
  rcases decodeReducedJpeg_cases p jpeg output with ⟨heq, hno⟩ | ⟨info, ha, k, hk, hto, hend⟩
  · rw [heq]
    exact ⟨fun _ info hinfo => absurd hinfo (hno info), fun _ => rfl⟩
  · rw [if_neg (by rw [h]; decide)] at hend
    -- the MCUs before the failure are those up to which all are there
    have hbefore : ∀ i, mcuOf info i < k ↔ ∀ j ≤ mcuOf info i, (p.decodeMcu j).isSome := by
      intro i
      constructor
      · exact fun hlt j hj => hto.decoded j (by omega)
      · intro hall
        by_cases hlt : mcuOf info i < k
        · exact hlt
        · have hsome := hall k (by omega)
          rw [hend.2] at hsome
          cases hsome
    constructor
    · intro hsame other ho i hi hall
      obtain rfl := ha.unique ho
      have hpixel := hto.pixels i hi
      rwa [if_pos ((hbefore i).2 hall), hsame] at hpixel
    · intro hnew
      refine Frame.ext_pixels fun i hi => ?_
      rw [hto.pixels i hi]
      by_cases hlt : mcuOf info i < k
      · rw [if_pos hlt, hnew info ha i hi ((hbefore i).1 hlt)]
      · rw [if_neg hlt]

end RetroLens.Core
