import RetroLens.Core.ReducedJpeg

/-!
# The buffers behind the reduced decoder

picojpeg keeps the buffers of an MCU in static arrays. A call of
`pjpeg_decode_mcu` writes the first byte of each block that the header
documents as valid, in all three arrays for a colour image and in the first
for a grayscale one, and leaves the other bytes as earlier decodes left them.

The frame of a colour JPEG shows the JPEG whatever those held. That of a
grayscale JPEG takes two of its channels from them (`reduced_decode_iff`).
-/

namespace RetroLens.Core

open Text

/-- What a JPEG holds: its header, and for each MCU the samples of its blocks, by column and row,
where it can be decoded. The sample of a grayscale block is `r`. -/
structure JpegBlocks where
  info : Option ImageInfo
  blocks : Nat → Option (Nat → Nat → Pixel)

/-- The offsets that `picojpeg.h` gives for the blocks of an MCU. -/
def documented (scan : ScanType) (offset : Nat) : Bool :=
  offset % 64 = 0 && offset % 128 / 64 < scan.mcuWidth / 8 && offset / 128 < scan.mcuHeight / 8

/-- The static buffers after an MCU was decoded into them. -/
def fillBuffers (scan : ScanType) (block : Nat → Nat → Pixel) (before : Mcu) : Mcu where
  r offset :=
    if documented scan offset then (block (offset % 128 / 64) (offset / 128)).r
    else before.r offset
  g offset :=
    if scan ≠ .grayscale ∧ documented scan offset then (block (offset % 128 / 64) (offset / 128)).g
    else before.g offset
  b offset :=
    if scan ≠ .grayscale ∧ documented scan offset then (block (offset % 128 / 64) (offset / 128)).b
    else before.b offset

namespace JpegBlocks

def scan (j : JpegBlocks) : ScanType :=
  match j.info with
  | none => .grayscale
  | some info => info.scanType

/-- The static buffers before MCU `k` is decoded, from what earlier decodes left in them. -/
def buffers (j : JpegBlocks) (statics : Mcu) : Nat → Mcu
  | 0 => statics
  | k + 1 =>
    match j.blocks k with
    | none => j.buffers statics k
    | some block => fillBuffers j.scan block (j.buffers statics k)

/-- What the calls of picojpeg return for the JPEG. -/
def picoJpeg (j : JpegBlocks) (statics : Mcu) : PicoJpeg where
  decodeInit := j.info
  decodeMcu k := (j.blocks k).map fun block => fillBuffers j.scan block (j.buffers statics k)

/-- What the JPEG shows in block column `x` and block row `y`. -/
def shown (j : JpegBlocks) (info : ImageInfo) (x y : Nat) : Pixel :=
  let cols := info.mcuWidth / 8
  let rows := info.mcuHeight / 8
  match j.blocks (y / rows * info.mcusPerRow + x / cols) with
  | none => default
  | some block =>
    let p := block (x % cols) (y % rows)
    if info.scanType = .grayscale then ⟨p.r, p.r, p.r⟩ else p

end JpegBlocks

/-- Every pixel of the frame is what the JPEG shows in its block. -/
def ShowsJpeg (j : JpegBlocks) (info : ImageInfo) (output : Frame) : Prop :=
  ∀ x < kFrameWidth, ∀ y < kFrameHeight,
    output.pixels[y * kFrameWidth + x]? = some (j.shown info x y)

/-- Every block is as bright as the other two channels were left. -/
def AsLeft (j : JpegBlocks) (statics : Mcu) : Prop :=
  ∀ k < framePixels, ∀ block, j.blocks k = some block →
    (block 0 0).r = statics.g 0 ∧ (block 0 0).r = statics.b 0

variable {j : JpegBlocks} {info : ImageInfo} {statics before : Mcu} {block : Nat → Nat → Pixel}
  {output : Frame} {jpeg : Bytes} {scan : ScanType}

/-! ## One MCU -/

theorem mcuOffset_block {col : Nat} (row : Nat) (hcol : col < 2) :
    mcuOffset (col * 8) (row * 8) % 64 = 0 ∧ mcuOffset (col * 8) (row * 8) % 128 / 64 = col ∧
      mcuOffset (col * 8) (row * 8) / 128 = row := by
  unfold mcuOffset
  omega

theorem ScanType.sizes (scan : ScanType) :
    (scan.mcuWidth = 8 ∨ scan.mcuWidth = 16) ∧ (scan.mcuHeight = 8 ∨ scan.mcuHeight = 16) := by
  cases scan <;> decide

/-- What is read from the buffers at a block of a colour image is the block. -/
theorem fillBuffers_colour (hscan : scan ≠ .grayscale) {col row : Nat}
    (hcol : col < scan.mcuWidth / 8) (hrow : row < scan.mcuHeight / 8) :
    (fillBuffers scan block before).pixel (mcuOffset (col * 8) (row * 8)) = block col row := by
  have hlt : col < 2 := by have := scan.sizes.1; omega
  obtain ⟨h64, hc, hr⟩ := mcuOffset_block row hlt
  have hdoc : documented scan (mcuOffset (col * 8) (row * 8)) = true := by
    simp only [documented, h64, hc, hr, hcol, hrow, decide_true, Bool.and_self]
  simp only [Mcu.pixel, fillBuffers, hdoc, hc, hr, hscan, ne_eq, not_false_eq_true, and_self,
    if_true]

theorem fillBuffers_grayscale : fillBuffers .grayscale block before =
    { before with r := fun offset => if offset = 0 then (block 0 0).r else before.r offset } := by
  have hdoc (offset : Nat) : documented .grayscale offset = decide (offset = 0) := by
    have hw : ScanType.grayscale.mcuWidth = 8 := rfl
    have hh : ScanType.grayscale.mcuHeight = 8 := rfl
    rw [Bool.eq_iff_iff]
    simp only [documented, hw, hh, Bool.and_eq_true, decide_eq_true_eq]
    omega
  simp only [fillBuffers, hdoc, ne_eq, not_true_eq_false, false_and, if_false, decide_eq_true_eq]
  congr 1
  funext offset
  split
  · rename_i h
    subst h
    rfl
  · rfl

/-- Decoding a grayscale JPEG leaves the other two channels alone. -/
theorem buffers_grayscale (h : j.scan = .grayscale) (k : Nat) :
    (j.buffers statics k).g = statics.g ∧ (j.buffers statics k).b = statics.b := by
  induction k with
  | zero => exact ⟨rfl, rfl⟩
  | succ k ih =>
    unfold JpegBlocks.buffers
    split
    · exact ih
    · rw [h, fillBuffers_grayscale]
      exact ih

/-! ## The frame -/

/-- The block of an output column or row, in MCUs of one size. -/
theorem block_of_output {size x : Nat} (hsize : size = 8 ∨ size = 16) :
    x * 8 / size = x / (size / 8) ∧ x * 8 % size = x % (size / 8) * 8 ∧
      x % (size / 8) < size / 8 := by
  rcases hsize with rfl | rfl
  · omega
  · omega

theorem one_block (h : info.scanType = .grayscale) :
    info.mcuWidth / 8 = 1 ∧ info.mcuHeight / 8 = 1 := by
  rw [ImageInfo.mcuWidth, ImageInfo.mcuHeight, h]
  exact ⟨rfl, rfl⟩

/-- The MCU of an output pixel of a grayscale image is as far along as the pixel. -/
theorem mcuOf_grayscale (hfull : info.Full) (h : info.scanType = .grayscale) (i : Nat) :
    mcuOf info i = i := by
  have hw : info.mcuWidth = 8 := by rw [ImageInfo.mcuWidth, h]; rfl
  have hh : info.mcuHeight = 8 := by rw [ImageInfo.mcuHeight, h]; rfl
  have hper : info.mcusPerRow = kFrameWidth := by
    rcases hfull.sizes.1 with ⟨-, hper⟩ | ⟨h16, -⟩
    · exact hper
    · rw [h16] at hw
      cases hw
  rw [mcuOf, mcuAt, hw, hh, hper, Nat.mul_div_cancel _ (by decide),
    Nat.mul_div_cancel _ (by decide), Nat.div_add_mod']

theorem output_place {x y : Nat} (hx : x < kFrameWidth) :
    (y * kFrameWidth + x) % kFrameWidth = x ∧ (y * kFrameWidth + x) / kFrameWidth = y := by
  simp only [kFrameWidth] at hx ⊢
  omega

theorem output_lt {x y : Nat} (hx : x < kFrameWidth) (hy : y < kFrameHeight) :
    y * kFrameWidth + x < framePixels := by
  simp only [framePixels, kFrameWidth, kFrameHeight] at hx hy ⊢
  omega

theorem mcuOf_output (info : ImageInfo) {x y : Nat} (hx : x < kFrameWidth) :
    mcuOf info (y * kFrameWidth + x) =
      y / (info.mcuHeight / 8) * info.mcusPerRow + x / (info.mcuWidth / 8) := by
  obtain ⟨hw, hh⟩ := info.scanType.sizes
  rw [mcuOf, (output_place hx).1, (output_place hx).2, mcuAt, ImageInfo.mcuHeight,
    ImageInfo.mcuWidth, (block_of_output hh).1, (block_of_output hw).1]

/-- What the decoder reads for an output pixel. -/
theorem sampleOf_block (statics : Mcu) (hinfo : j.info = some info) {x y : Nat}
    (hx : x < kFrameWidth) (hblock : j.blocks (mcuOf info (y * kFrameWidth + x)) = some block) :
    ∃ before : Mcu, (info.scanType = .grayscale → before.g = statics.g ∧ before.b = statics.b) ∧
      (j.picoJpeg statics).sampleOf info (y * kFrameWidth + x) =
        (fillBuffers info.scanType block before).pixel
          (mcuOffset (x % (info.mcuWidth / 8) * 8) (y % (info.mcuHeight / 8) * 8)) := by
  have hscan : j.scan = info.scanType := by
    simp only [JpegBlocks.scan, hinfo]
  obtain ⟨hw, hh⟩ := info.scanType.sizes
  rw [mcuOf, (output_place hx).1, (output_place hx).2] at hblock
  refine ⟨j.buffers statics (mcuAt info (x * 8) (y * 8)),
    fun h => buffers_grayscale (hscan.trans h) _, ?_⟩
  rw [PicoJpeg.sampleOf, (output_place hx).1, (output_place hx).2, PicoJpeg.sample]
  simp only [JpegBlocks.picoJpeg, hblock, Option.map_some, hscan]
  rw [ImageInfo.mcuHeight, ImageInfo.mcuWidth, (block_of_output hw).2.1, (block_of_output hh).2.1]

/-- A pixel of a frame that was decoded is its block's, or for a grayscale image the block's with
what was left in the other two channels. -/
theorem decoded_pixel (statics : Mcu) (hinfo : j.info = some info) {x y : Nat}
    (hx : x < kFrameWidth) (hblock : j.blocks (mcuOf info (y * kFrameWidth + x)) = some block) :
    (info.scanType ≠ .grayscale ∧
        (j.picoJpeg statics).sampleOf info (y * kFrameWidth + x) = j.shown info x y) ∨
      (info.scanType = .grayscale ∧ j.shown info x y =
          ⟨(block 0 0).r, (block 0 0).r, (block 0 0).r⟩ ∧
        (j.picoJpeg statics).sampleOf info (y * kFrameWidth + x) =
          ⟨(block 0 0).r, statics.g 0, statics.b 0⟩) := by
  obtain ⟨before, hleft, hsample⟩ := sampleOf_block statics hinfo hx hblock
  obtain ⟨hw, hh⟩ := info.scanType.sizes
  rw [mcuOf_output info hx] at hblock
  rw [hsample]
  by_cases hgrey : info.scanType = .grayscale
  · refine .inr ⟨hgrey, ?_, ?_⟩
    · unfold JpegBlocks.shown
      simp only [hblock, if_pos hgrey]
      rw [(one_block hgrey).1, (one_block hgrey).2, Nat.mod_one, Nat.mod_one]
    · rw [hgrey, fillBuffers_grayscale, (one_block hgrey).1, (one_block hgrey).2, Nat.mod_one,
        Nat.mod_one]
      obtain ⟨hg, hb⟩ := hleft hgrey
      simp [Mcu.pixel, mcuOffset, hg, hb]
  · refine .inl ⟨hgrey, ?_⟩
    simp only [JpegBlocks.shown, hblock, if_neg hgrey]
    exact fillBuffers_colour hgrey (block_of_output (x := x) hw).2.2
      (block_of_output (x := y) hh).2.2

/-- A frame that was decoded has a sample of a block at each of its pixels. -/
theorem decodeReducedJpeg_pixel (h : (decodeReducedJpeg (j.picoJpeg statics) jpeg output).1 = true)
    (hinfo : j.info = some info) {x y : Nat} (hx : x < kFrameWidth) (hy : y < kFrameHeight) :
    ∃ block, j.blocks (mcuOf info (y * kFrameWidth + x)) = some block ∧
      (decodeReducedJpeg (j.picoJpeg statics) jpeg output).2.pixels[y * kFrameWidth + x]? =
        some ((j.picoJpeg statics).sampleOf info (y * kFrameWidth + x)) := by
  obtain ⟨other, hother, hdecoded⟩ := decodeReducedJpeg_complete h
  obtain rfl : info = other := Option.some.inj (hinfo.symm.trans hother)
  obtain ⟨other, haccepts, hall⟩ := (decodeReducedJpeg_iff output).1 h
  obtain rfl : info = other := Option.some.inj (hinfo.symm.trans haccepts.header)
  have hsome := hall _ (mcuOf_lt haccepts.full (output_lt hx hy))
  rw [JpegBlocks.picoJpeg, Option.isSome_map] at hsome
  obtain ⟨block, hblock⟩ := Option.isSome_iff_exists.1 hsome
  refine ⟨block, hblock, ?_⟩
  rw [hdecoded, completeDecode_pixels _ _ (output_lt hx hy)]

/-- **A frame that was decoded shows its JPEG exactly if this is a colour image**, or one as bright
all over as the buffers of the other two channels were left. -/
theorem reduced_decode_iff (j : JpegBlocks) (statics : Mcu) (jpeg : Bytes) (output : Frame)
    (h : (decodeReducedJpeg (j.picoJpeg statics) jpeg output).1 = true) :
    ∃ info, j.info = some info ∧
      (ShowsJpeg j info (decodeReducedJpeg (j.picoJpeg statics) jpeg output).2 ↔
        info.scanType ≠ .grayscale ∨ AsLeft j statics) := by
  obtain ⟨info, hinfo, -⟩ := decodeReducedJpeg_complete h
  obtain ⟨other, haccepts, -⟩ := (decodeReducedJpeg_iff output).1 h
  obtain rfl : info = other := Option.some.inj (hinfo.symm.trans haccepts.header)
  refine ⟨info, hinfo, ?_⟩
  constructor
  · intro hshows
    by_cases hgrey : info.scanType = .grayscale
    swap
    · exact .inl hgrey
    refine .inr fun k hk block hblock => ?_
    have hx : k % kFrameWidth < kFrameWidth := Nat.mod_lt _ (by decide)
    have hy : k / kFrameWidth < kFrameHeight := by
      simp only [framePixels, kFrameWidth, kFrameHeight] at hk ⊢
      omega
    have hplace : k / kFrameWidth * kFrameWidth + k % kFrameWidth = k := Nat.div_add_mod' ..
    have hmcu : mcuOf info (k / kFrameWidth * kFrameWidth + k % kFrameWidth) = k := by
      rw [hplace, mcuOf_grayscale haccepts.full hgrey]
    rw [← hmcu] at hblock
    have hshown := hshows _ hx _ hy
    obtain ⟨-, -, hpixel⟩ := decodeReducedJpeg_pixel h hinfo hx hy
    rw [hpixel] at hshown
    have hshown := Option.some.inj hshown
    rcases decoded_pixel statics hinfo hx hblock with ⟨hne, -⟩ | ⟨-, hs, hd⟩
    · exact absurd hgrey hne
    · rw [hs, hd] at hshown
      simp only [Pixel.mk.injEq, true_and] at hshown
      exact ⟨hshown.1.symm, hshown.2.symm⟩
  · intro hor x hx y hy
    obtain ⟨block, hblock, hpixel⟩ := decodeReducedJpeg_pixel h hinfo hx hy
    rw [hpixel]
    rcases decoded_pixel statics hinfo hx hblock with ⟨-, hd⟩ | ⟨hgrey, hs, hd⟩
    · rw [hd]
    · rcases hor with hcolour | hleft
      · exact absurd hgrey hcolour
      · rw [mcuOf_grayscale haccepts.full hgrey] at hblock
        obtain ⟨hg, hb⟩ := hleft _ (output_lt hx hy) block hblock
        rw [hs, hd, ← hg, ← hb]

/-- A JPEG of one colour. -/
def flatJpeg (scan : ScanType) (p : Pixel) : JpegBlocks :=
  ⟨some ⟨640, 480, scan⟩, fun _ => some fun _ _ => p⟩

/-- The static buffers of a process that has decoded nothing. -/
def zeroed : Mcu := ⟨fun _ => 0, fun _ => 0, fun _ => 0⟩

theorem flatJpeg_decodes (scan : ScanType) (p : Pixel) (statics : Mcu) (output : Frame) :
    (decodeReducedJpeg ((flatJpeg scan p).picoJpeg statics) [255, 216, 255, 217] output).1 =
      true :=
  (decodeReducedJpeg_iff output).2 ⟨_, ⟨by decide, rfl, rfl, rfl⟩, fun _ _ => rfl⟩

theorem reduced_decode_colour :
    ShowsJpeg (flatJpeg .yh2v2 ⟨200, 100, 50⟩) ⟨640, 480, .yh2v2⟩
      (decodeReducedJpeg ((flatJpeg .yh2v2 ⟨200, 100, 50⟩).picoJpeg zeroed) [255, 216, 255, 217]
        (.filled ⟨0, 0, 0⟩)).2 := by
  obtain ⟨info, hinfo, hiff⟩ := reduced_decode_iff (flatJpeg .yh2v2 ⟨200, 100, 50⟩) zeroed
    [255, 216, 255, 217] (.filled ⟨0, 0, 0⟩) (flatJpeg_decodes ..)
  cases hinfo
  exact hiff.2 (.inl (by decide))

/-- A bright grayscale JPEG comes out red in a new process. -/
theorem grayscale_shows_red :
    (decodeReducedJpeg ((flatJpeg .grayscale ⟨200, 200, 200⟩).picoJpeg zeroed)
      [255, 216, 255, 217] (.filled ⟨0, 0, 0⟩)).1 = true ∧
    ¬ ShowsJpeg (flatJpeg .grayscale ⟨200, 200, 200⟩) ⟨640, 480, .grayscale⟩
      (decodeReducedJpeg ((flatJpeg .grayscale ⟨200, 200, 200⟩).picoJpeg zeroed)
        [255, 216, 255, 217] (.filled ⟨0, 0, 0⟩)).2 := by
  refine ⟨flatJpeg_decodes .., fun hshows => ?_⟩
  obtain ⟨info, hinfo, hdecoded⟩ :=
    decodeReducedJpeg_complete (flatJpeg_decodes .grayscale ⟨200, 200, 200⟩ zeroed
      (.filled ⟨0, 0, 0⟩))
  cases hinfo
  rw [hdecoded] at hshows
  have hpixel := hshows 0 (by decide) 0 (by decide)
  rw [completeDecode_pixels _ _ (by decide)] at hpixel
  exact absurd hpixel (by decide)

end RetroLens.Core
