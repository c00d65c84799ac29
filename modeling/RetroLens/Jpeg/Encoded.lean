import RetroLens.Jpeg.RoundTrip

/-!
# An encoded image

What `stbi_write_jpg_core` has written shows the image again, a block at a time:
each sample is the first coefficient of a block times the first entry of its
quantization table, an eighth of that (`decodeInit_encoder`). So a photo that
`encodeJpeg` has returned is taken by `decodeReducedJpeg`, and the frame shows
the means of its blocks (`decodeReducedJpeg_encoder`).
-/

namespace RetroLens.Jpeg

open Text CanonicalCode Checked Comps RetroLens.Core

/-- The first entry of `YTable` or `UVTable`. -/
def firstEntry (quality : Int) (component : Nat) : Nat :=
  (tableEntry (if component = 0 then 16 else 17) quality).toNat

/-- The mean of a block: an eighth of its first coefficient, and 128. -/
def mean (q : Nat) (coeff : Int) : UInt8 := clamp ((coeff * q + 4) >>> (3 : Nat) + 128)

/-- The means of the blocks of an MCU from block `k` on. -/
def means (quality : Int) (DU : Nat → Nat → Int) : List Nat → Nat → List UInt8
  | [], _ => []
  | c :: cs, k => mean (firstEntry quality c) (DU k 0) :: means quality DU cs (k + 1)

/-- What the transform and the quantization leave of an image, whatever it shows. -/
structure Quantized (quality : Int) (units : Units) : Prop where
  small : ∀ y x i, Small (units y x i)
  first : ∀ y x i c, (unitComps (subsampled quality))[i]? = some c →
    -2048 ≤ units y x i 0 * firstEntry quality c ∧ units y x i 0 * firstEntry quality c ≤ 2047

/-- The image that is encoded, as far as a reduced decode shows it. -/
def encodedImage (units : Units) (width height : Nat) (quality : Int) : JpegBlocks where
  info := some ⟨width, height, scanTypeOf (subsampled quality)⟩
  blocks k :=
    if k < mcusOf (subsampled quality) height * mcusOf (subsampled quality) width then
      some (blockOf (scanTypeOf (subsampled quality)) (means quality
        (unitsAt units (subsampled quality) width k) (unitComps (subsampled quality)) 0))
    else none

/-- An encoded image, from where its header ends. -/
structure Pico.Holds (s : Pico) (units : Units) (width height : Nat) (quality : Int) : Prop where
  /-- The samples of an MCU are the means of the blocks that the encoder has made it of. -/
  samples : ∀ k < mcusOf (subsampled quality) height * mcusOf (subsampled quality) width,
    ∃ s', samplesOf k s = .done (means quality (unitsAt units (subsampled quality) width k)
      (unitComps (subsampled quality)) 0) s'
  noMore : ∀ k, mcusOf (subsampled quality) height * mcusOf (subsampled quality) width ≤ k →
    ∃ s', samplesOf k s = .fail .noMoreBlocks s'
  /-- What the calls return, whatever the buffers hold. -/
  calls : ∀ buf,
    picoJpegFrom (s.withMcu buf) = (encodedImage units width height quality).picoJpeg buf
  /-- So many calls succeed, and the next one finds no more. -/
  count : ∃ s' s'',
    decodeMcus (mcusOf (subsampled quality) height * mcusOf (subsampled quality) width) s =
        .done () s' ∧
      pjpegDecodeMcu s' = .fail .noMoreBlocks s''

variable {s s₀ : Pico} {units : Units} {width height : Nat} {quality : Int} {jpeg : Bytes}

/-! ## The quantization tables -/

/-- The entries behind the first one go elsewhere. -/
theorem quantBytes_first (qt : List Nat) (quality : Int) :
    (quantBytes qt quality).getD 0 0 = tableEntry (qt.getD 0 0) quality := by
  have hkeep : ∀ (l : List Nat) (table : Bytes), (∀ i ∈ l, zigZag.getD i 0 ≠ 0) →
      (l.foldl (fun table i =>
        table.set (zigZag.getD i 0) (tableEntry (qt.getD i 0) quality)) table).getD 0 0 =
      table.getD 0 0 := by
    intro l
    induction l with
    | nil => exact fun table _ => rfl
    | cons i l ih =>
      intro table hl
      rw [List.foldl_cons, ih _ fun i hi => hl i (List.mem_cons_of_mem _ hi),
        List.getD_eq_getElem?_getD, List.getElem?_set_ne (hl i List.mem_cons_self),
        ← List.getD_eq_getElem?_getD]
  have hrange : List.range 64 = 0 :: List.range' 1 63 := by decide
  rw [quantBytes, hrange, List.foldl_cons, hkeep _ _ (by decide)]
  rfl

theorem zeroExtend_toInt (c : UInt8) : (zeroExtend c).toInt = c.toNat := by
  have hlt : c.toBitVec.toNat < 256 := c.toNat_lt
  have hnat : (zeroExtend c).toNat = c.toNat := by
    rw [zeroExtend, BitVec.toNat_setWidth, Nat.mod_eq_of_lt (by omega)]
    rfl
  have hlt' : c.toNat < 256 := hlt
  rw [BitVec.toInt_eq_toNat_of_lt (by omega), hnat]

theorem quantEntries_first (l : Bytes) :
    quantEntries l 0 = BitVec.ofInt 16 (16 * (l.getD 0 0).toNat) := by
  have hfirst : winogradQuant.getD 0 0 = 128 := rfl
  rw [quantEntries, createWinogradQuant, if_pos (by decide), hfirst, zeroExtend_toInt,
    Int.shiftRight_eq_div_pow]
  congr 1
  omega

theorem Pico.AtBlocks.quantOf_first {blocks : Bytes} (h : s.AtBlocks width height quality blocks)
    {c : Nat} (hc : c < 3) : s.quantOf c 0 = BitVec.ofInt 16 (16 * firstEntry quality c) := by
  rw [Pico.quantOf, h.quant c hc, firstEntry]
  by_cases hc0 : c = 0
  · rw [if_pos hc0, if_pos hc0]
    refine (h.quantized.y 0 (by decide)).trans ?_
    rw [quantEntries_first, quantBytes_first]
    rfl
  · rw [if_neg hc0, if_neg hc0]
    refine (h.quantized.uv 0 (by decide)).trans ?_
    rw [quantEntries_first, quantBytes_first]
    rfl

/-! ## The samples -/

/-- The multiplication does not leave 16 bits. -/
theorem descaled_mean {d : Int} {q : Nat} (h : -2048 ≤ d * q ∧ d * q ≤ 2047) :
    descaled (BitVec.ofInt 16 d * BitVec.ofInt 16 (16 * q)) = mean q d := by
  have hproduct : (BitVec.ofInt 16 d * BitVec.ofInt 16 (16 * q)).toInt = 16 * (d * q) := by
    rw [← BitVec.ofInt_mul, show d * (16 * (q : Int)) = 16 * (d * q) by ring]
    exact BitVec.toInt_ofInt_eq_self (by decide) (by omega) (by omega)
  rw [descaled, hproduct, mean, Int.shiftRight_eq_div_pow, Int.shiftRight_eq_div_pow]
  congr 2
  omega

theorem unitSamples_means {quant : Nat → BitVec 16} {DU : Nat → Nat → Int} {cs : List Nat} {k : Nat}
    (hquant : ∀ c ∈ cs, quant c = BitVec.ofInt 16 (16 * firstEntry quality c))
    (h : ∀ i c, cs[i]? = some c → -2048 ≤ DU (k + i) 0 * firstEntry quality c ∧
      DU (k + i) 0 * firstEntry quality c ≤ 2047) :
    unitSamples quant DU cs k = means quality DU cs k := by
  induction cs generalizing k with
  | nil => rfl
  | cons c cs ih =>
    have hfirst : -2048 ≤ DU k 0 * firstEntry quality c ∧ DU k 0 * firstEntry quality c ≤ 2047 :=
      h 0 c rfl
    rw [unitSamples, means, hquant c List.mem_cons_self, descaled_mean hfirst,
      ih (fun c' hc' => hquant c' (List.mem_cons_of_mem _ hc')) fun i c' hc' => ?_]
    have hnext := h (i + 1) c' hc'
    rwa [← Nat.add_assoc, Nat.add_right_comm] at hnext

/-! ## What is written is shown -/

theorem Pico.AtBlocks.means {back : Bytes} {k : Nat} (hwidth : 1 ≤ width) (hheight : 1 ≤ height)
    (hunits : Quantized quality units) (hs : s.Started)
    (hat : s.AtBlocks width height quality (encodedBlocks units width height quality ++ back))
    (hk : k < mcusOf (subsampled quality) height * mcusOf (subsampled quality) width) :
    ∃ s', samplesOf k s = .done (means quality (unitsAt units (subsampled quality) width k)
        (unitComps (subsampled quality)) 0) s' ∧
      s'.Counting ∧ s'.mcusLeft =
        mcusOf (subsampled quality) height * mcusOf (subsampled quality) width - (k + 1) := by
  obtain ⟨s', hdone, hrest⟩ := hat.samples hwidth hheight hunits.small hs hk
  refine ⟨s', ?_, hrest⟩
  rw [hdone, unitSamples_means (fun c hc => hat.quantOf_first (unitComps_lt _ c hc))]
  intro i c hc
  rw [Nat.zero_add]
  exact hunits.first _ _ i c hc

/-- The last MCU leaves none. -/
theorem Pico.AtBlocks.noMore {back : Bytes} (hwidth : 1 ≤ width) (hheight : 1 ≤ height)
    (hunits : Quantized quality units) (hs : s.Started)
    (hat : s.AtBlocks width height quality (encodedBlocks units width height quality ++ back))
    {k : Nat} (hk : mcusOf (subsampled quality) height * mcusOf (subsampled quality) width ≤ k) :
    ∃ s', samplesOf k s = .fail .noMoreBlocks s' := by
  generalize htotal : mcusOf (subsampled quality) height * mcusOf (subsampled quality) width =
    total at hk
  have hpos : 0 < total := by
    rw [← htotal]
    exact Nat.mul_pos (lt_mcusOf.1 (by omega)) (lt_mcusOf.1 (by omega))
  obtain ⟨s', hlast, hcounting, hleft⟩ :=
    hat.means (k := total - 1) hwidth hheight hunits hs (by omega)
  exact samplesOf_none hlast hcounting (by omega) (by omega)

theorem Pico.AtBlocks.jpegBlocks {back : Bytes} (hwidth : 1 ≤ width) (hheight : 1 ≤ height)
    (hunits : Quantized quality units) (hs : s.Started)
    (hat : s.AtBlocks width height quality (encodedBlocks units width height quality ++ back)) :
    jpegBlocks s = encodedImage units width height quality := by
  have hscan : s.layout.scanType = scanTypeOf (subsampled quality) :=
    congrArg ImageInfo.scanType hat.info
  rw [Jpeg.jpegBlocks, encodedImage, hat.info, hscan]
  congr 1
  funext k
  by_cases hk : k < mcusOf (subsampled quality) height * mcusOf (subsampled quality) width
  · obtain ⟨s', hdone, -⟩ := hat.means hwidth hheight hunits hs hk
    rw [if_pos hk, hdone, Outcome.value?, Option.map_some]
  · obtain ⟨s', hnone⟩ := hat.noMore hwidth hheight hunits hs (Nat.le_of_not_lt hk)
    rw [if_neg hk, hnone]
    rfl

/-- All of the calls succeed, and none after them. -/
theorem Pico.AtBlocks.count {back : Bytes} (hwidth : 1 ≤ width) (hheight : 1 ≤ height)
    (hunits : Quantized quality units) (hs : s.Started) (hreduce : s.reduce = 1)
    (hat : s.AtBlocks width height quality (encodedBlocks units width height quality ++ back)) :
    ∃ s' s'',
      decodeMcus (mcusOf (subsampled quality) height * mcusOf (subsampled quality) width) s =
          .done () s' ∧
        pjpegDecodeMcu s' = .fail .noMoreBlocks s'' := by
  have hcount : s.info.mcusPerCol * s.info.mcusPerRow =
      mcusOf (subsampled quality) height * mcusOf (subsampled quality) width := by
    rw [hat.info, (mcusOf_info width height (subsampled quality)).1,
      (mcusOf_info width height (subsampled quality)).2]
  have hpos : 0 < mcusOf (subsampled quality) height * mcusOf (subsampled quality) width :=
    Nat.mul_pos (lt_mcusOf.1 (by omega)) (lt_mcusOf.1 (by omega))
  generalize htotal : mcusOf (subsampled quality) height * mcusOf (subsampled quality) width =
    total at hcount hpos
  obtain ⟨last, rfl⟩ : ∃ last, total = last + 1 := ⟨total - 1, by omega⟩
  obtain ⟨s₁, hlast, -⟩ := hat.means (k := last) hwidth hheight hunits hs (by omega)
  obtain ⟨-, hrun⟩ :=
    (decodeMcus_samples hs.tables hs.laidOut.org hreduce s.mcuBuf last).1 _ _ hlast
  obtain ⟨s'', hnone⟩ := (decodeMcus_count hs hrun).2.1 hcount.symm
  exact ⟨_, s'', hrun, hnone⟩

theorem Pico.AtBlocks.holds {back : Bytes} (hwidth : 1 ≤ width) (hheight : 1 ≤ height)
    (hunits : Quantized quality units) (hs : s.Started) (hreduce : s.reduce = 1)
    (hat : s.AtBlocks width height quality (encodedBlocks units width height quality ++ back)) :
    s.Holds units width height quality where
  samples k hk := by
    obtain ⟨s', hdone, -⟩ := hat.means hwidth hheight hunits hs hk
    exact ⟨s', hdone⟩
  noMore k hk := hat.noMore hwidth hheight hunits hs hk
  calls buf := by
    rw [← hat.jpegBlocks hwidth hheight hunits hs]
    exact picoJpeg_blocks hs hreduce buf
  count := hat.count hwidth hheight hunits hs hreduce

theorem chunks_flatten (hwidth : 1 ≤ width) (hheight : 1 ≤ height) :
    (stbiWriteJpgCore units width height quality).chunks.flatten =
      (headers width height quality).flatten ++
        (encodedBlocks units width height quality ++ [0xFF, 0xD9]) := by
  have hbytes : ∀ l : Bytes, (l.map fun c => [c]).flatten = l := by
    intro l
    induction l with
    | nil => rfl
    | cons c l ih => rw [List.map_cons, List.flatten_cons, ih, List.singleton_append]
  rw [stbiWriteJpgCore, if_neg (by omega)]
  simp only [List.flatten_append, hbytes, List.append_assoc]
  rfl

/-- A JPEG that `encodeJpeg` returns is accepted, and its blocks come next. -/
theorem encodeJpeg_accepted {capacity : Nat} (hwidth : 1 ≤ width ∧ width ≤ maxSize)
    (hheight : 1 ≤ height ∧ height ≤ maxSize) (hs : s.TablesSafe)
    (hjpeg : encodeJpeg (stbiWriteJpgCore units width height quality) capacity = some jpeg) :
    ∃ s₀, pjpegDecodeInit (jpeg.length + 2) jpeg 1 s =
        .done ⟨width, height, scanTypeOf (subsampled quality)⟩ s₀ ∧
      s₀.Started ∧ s₀.reduce = 1 ∧ s₀.AtBlocks width height quality
        (encodedBlocks units width height quality ++ [0xFF, 0xD9]) := by
  obtain ⟨-, hflatten, hlength, -⟩ := encodeJpeg_eq_some.1 hjpeg
  rw [chunks_flatten hwidth.1 hheight.1] at hflatten
  have hblocks : encodedBlocks units width height quality ++ [0xFF, 0xD9] ≠ [] := by simp
  obtain ⟨s₀, hinit, hat⟩ := pjpegDecodeInit_encoder hwidth hheight hblocks s
  rw [hflatten, show jpeg.length - 1 + 3 = jpeg.length + 2 by omega] at hinit
  obtain ⟨⟨hstarted, -⟩, -, hreduce⟩ :=
    (pjpegDecodeInit_started (Nat.le_refl _) 1 hs).done hinit
  exact ⟨s₀, hinit, hstarted, hreduce, hat⟩

variable {calls : List Call} {capacity : Nat}

/-- **What the encoder has written is the image, a block at a time**: every size up to picojpeg's
is accepted, for every quality and whatever was decoded before. -/
theorem decodeInit_encoder (hrun : runCalls calls Pico.zeroed = .done () s)
    (hwidth : 1 ≤ width ∧ width ≤ maxSize) (hheight : 1 ≤ height ∧ height ≤ maxSize)
    (hunits : Quantized quality units)
    (hjpeg : encodeJpeg (stbiWriteJpgCore units width height quality) capacity = some jpeg) :
    ∃ s₀, pjpegDecodeInit (jpeg.length + 2) jpeg 1 s =
        .done ⟨width, height, scanTypeOf (subsampled quality)⟩ s₀ ∧
      s₀.Holds units width height quality := by
  have hsafe : s.TablesSafe := (runCalls_reduced hrun).tables
  obtain ⟨s₀, hinit, hstarted, hreduce, hat⟩ := encodeJpeg_accepted hwidth hheight hsafe hjpeg
  exact ⟨s₀, hinit, hat.holds hwidth.1 hheight.1 hunits hstarted hreduce⟩

/-! ## A photo -/

theorem scanTypeOf_colour (subsample : Bool) : scanTypeOf subsample ≠ .grayscale := by
  cases subsample <;> decide

theorem encodedImage_decodes (units : Units) (quality : Int) (statics : Mcu)
    (hlength : 4 ≤ jpeg.length) (output : Frame) :
    (decodeReducedJpeg ((encodedImage units 640 480 quality).picoJpeg statics) jpeg output).1 =
      true := by
  refine (decodeReducedJpeg_iff output).2 ⟨_, ⟨hlength, rfl, rfl, rfl⟩, fun k hk => ?_⟩
  rw [(mcusOf_info 640 480 (subsampled quality)).1, (mcusOf_info 640 480 (subsampled quality)).2]
    at hk
  rw [JpegBlocks.picoJpeg, Option.isSome_map, encodedImage]
  dsimp only
  rw [if_pos hk]
  rfl

/-- A colour image is shown as it is, whatever the buffers held. -/
theorem decodeReducedJpeg_colour {j : JpegBlocks} {info : ImageInfo} {statics : Mcu}
    {output : Frame} (h : (decodeReducedJpeg (j.picoJpeg statics) jpeg output).1 = true)
    (hinfo : j.info = some info) (hcolour : info.scanType ≠ .grayscale) :
    ShowsJpeg j info (decodeReducedJpeg (j.picoJpeg statics) jpeg output).2 := by
  intro x hx y hy
  obtain ⟨block, hblock, hpixel⟩ := decodeReducedJpeg_pixel h hinfo hx hy
  rw [hpixel]
  obtain ⟨-, hshown⟩ | ⟨hgrey, -⟩ := decoded_pixel statics hinfo hx hblock
  · rw [hshown]
  · exact absurd hgrey hcolour

/-- **A photo of the encoder is decoded again, and the frame shows it**, whatever was decoded
before and was in the frame. -/
theorem decodeReducedJpeg_encoder (hrun : runCalls calls Pico.zeroed = .done () s)
    (hunits : Quantized quality units)
    (hjpeg : encodeJpeg (stbiWriteJpgCore units 640 480 quality) capacity = some jpeg) :
    ∃ s₀, pjpegDecodeInit (jpeg.length + 2) jpeg 1 s =
        .done ⟨640, 480, scanTypeOf (subsampled quality)⟩ s₀ ∧
      ∀ output, (decodeReducedJpeg (picoJpegFrom s₀) jpeg output).1 = true ∧
        ShowsJpeg (encodedImage units 640 480 quality)
          ⟨640, 480, scanTypeOf (subsampled quality)⟩
          (decodeReducedJpeg (picoJpegFrom s₀) jpeg output).2 := by
  have hsafe : s.TablesSafe := (runCalls_reduced hrun).tables
  obtain ⟨-, -, hlength, -⟩ := encodeJpeg_eq_some.1 hjpeg
  obtain ⟨s₀, hinit, hstarted, hreduce, hat⟩ :=
    encodeJpeg_accepted (by decide) (by decide) hsafe hjpeg
  have hpico : picoJpegFrom s₀ = (encodedImage units 640 480 quality).picoJpeg s₀.mcuBuf :=
    (hat.holds (by decide) (by decide) hunits hstarted hreduce).calls s₀.mcuBuf
  refine ⟨s₀, hinit, fun output => ?_⟩
  rw [hpico]
  have hdecodes := encodedImage_decodes units quality s₀.mcuBuf hlength output
  exact ⟨hdecodes, decodeReducedJpeg_colour hdecodes rfl (scanTypeOf_colour _)⟩

/-- The first coefficients of an image that slopes, before they are quantized. -/
def slope (y x i : Nat) : Int := 2 * ((7 * y + 3 * x + 31 * i) % 997 : Nat) - 999

/-- They are odd, and so are all rounded by a quantization by 4; each block has a second one. -/
def slopeUnits : Units := fun y x i k =>
  if k = 0 then (slope y x i + 2) / 4 else if k = 1 then ((y + x) % 7 : Nat) - 3 else 0

theorem firstEntry_photo (c : Nat) : firstEntry 88 c = 4 := by
  unfold firstEntry
  split <;> decide

theorem slopeUnits_first (y x i : Nat) : 4 * slopeUnits y x i 0 ≤ slope y x i + 2 ∧
    slope y x i - 2 ≤ 4 * slopeUnits y x i 0 ∧ -999 ≤ slope y x i ∧ slope y x i ≤ 993 := by
  rw [slopeUnits, if_pos rfl, slope]
  omega

theorem slopeUnits_quantized : Quantized 88 slopeUnits := by
  refine ⟨fun y x i => ⟨?_, fun k h1 _ => ?_⟩, fun y x i c _ => ?_⟩
  · have hfirst := slopeUnits_first y x i
    omega
  · rw [slopeUnits, if_neg (by omega)]
    split <;> omega
  · have hfirst := slopeUnits_first y x i
    rw [firstEntry_photo]
    omega

/-- Every image is encoded, with room enough. -/
theorem encodeJpeg_room (hwidth : 1 ≤ width) (hheight : 1 ≤ height) (units : Units)
    (quality : Int) : ∃ capacity jpeg,
      encodeJpeg (stbiWriteJpgCore units width height quality) capacity = some jpeg := by
  have hresult : (stbiWriteJpgCore units width height quality).result = true := by
    rw [stbiWriteJpgCore, if_neg (by omega)]
  refine ⟨_, _, encodeJpeg_eq_some.2 ⟨hresult, rfl, ?_, Nat.le_refl _⟩⟩
  have hhead : head0.length = 25 := rfl
  rw [chunks_flatten hwidth hheight, headers, List.flatten_cons]
  simp only [List.length_append, hhead]
  omega

theorem decodeInit_encoder_slope : ∃ s₀ : Pico, s₀.Holds slopeUnits 100 50 88 ∧
    (samplesOf 8 s₀).value? = some [43, 51, 59, 67, 74, 82] := by
  obtain ⟨s, s₁, hrun, -⟩ := twoMcus_accepted
  obtain ⟨capacity, jpeg, hjpeg⟩ := @encodeJpeg_room 100 50 (by decide) (by decide) slopeUnits 88
  obtain ⟨s₀, -, hholds⟩ := decodeInit_encoder hrun (by decide) (by decide)
    slopeUnits_quantized hjpeg
  obtain ⟨s', hsamples⟩ := hholds.samples 8 (by decide)
  refine ⟨s₀, hholds, ?_⟩
  rw [hsamples, Outcome.value?, Option.some.injEq]
  decide +kernel

theorem decodeReducedJpeg_encoder_slope : ∃ s₀ jpeg, ∀ output,
    (decodeReducedJpeg (picoJpegFrom s₀) jpeg output).1 = true ∧
      (decodeReducedJpeg (picoJpegFrom s₀) jpeg output).2.pixels[50 * kFrameWidth + 70]? =
        some ⟨178, 91, 177⟩ := by
  obtain ⟨s, s₁, hrun, -⟩ := twoMcus_accepted
  obtain ⟨capacity, jpeg, hjpeg⟩ := @encodeJpeg_room 640 480 (by decide) (by decide) slopeUnits 88
  obtain ⟨s₀, -, hshows⟩ := decodeReducedJpeg_encoder hrun slopeUnits_quantized hjpeg
  refine ⟨s₀, jpeg, fun output => ⟨(hshows output).1, ?_⟩⟩
  have hshown : (encodedImage slopeUnits 640 480 88).shown ⟨640, 480, .yh2v2⟩ 70 50 =
      ⟨178, 91, 177⟩ := by decide +kernel
  rw [← hshown]
  exact (hshows output).2 70 (by decide) 50 (by decide)

end RetroLens.Jpeg
