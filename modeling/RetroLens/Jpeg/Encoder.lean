import RetroLens.Core.JpegEncoder
import RetroLens.Jpeg.StdTables

/-!
# The encoder

`stbi_write_jpg_core` writes its headers, then the blocks of each MCU, and fills
the last byte with ones. The colour conversion, the transform and the division
by the quantization table are computed with `float`; `Units` is what they make
of the image.

`pjpeg_decode_init` accepts the headers for every size and quality
(`pjpegDecodeInit_encoder`), and is then where the blocks begin.
-/

namespace RetroLens.Jpeg

open Text Bits CanonicalCode Checked Comps RetroLens.Core

def yqt : List Nat :=
  [16, 11, 10, 16, 24, 40, 51, 61, 12, 12, 14, 19, 26, 58, 60, 55, 14, 13, 16, 24, 40, 57, 69,
    56, 14, 17, 22, 29, 51, 87, 80, 62, 18, 22, 37, 56, 68, 109, 103, 77, 24, 35, 55, 64, 81,
    104, 113, 92, 49, 64, 78, 87, 103, 121, 120, 101, 72, 92, 95, 98, 112, 100, 103, 99]

def uvqt : List Nat :=
  [17, 18, 24, 47, 99, 99, 99, 99, 18, 21, 26, 66, 99, 99, 99, 99, 24, 26, 56, 99, 99, 99, 99,
    99, 47, 66, 99, 99, 99, 99, 99, 99, 99, 99, 99, 99, 99, 99, 99, 99, 99, 99, 99, 99, 99, 99,
    99, 99, 99, 99, 99, 99, 99, 99, 99, 99, 99, 99, 99, 99, 99, 99, 99, 99]

def zigZag : List Nat :=
  [0, 1, 5, 6, 14, 15, 27, 28, 2, 4, 7, 13, 16, 26, 29, 42, 3, 8, 12, 17, 25, 30, 41, 43, 9,
    11, 18, 24, 31, 40, 44, 53, 10, 19, 23, 32, 39, 45, 52, 54, 20, 22, 33, 38, 46, 51, 55, 60,
    21, 34, 37, 47, 50, 56, 59, 61, 35, 36, 48, 49, 57, 58, 62, 63]

/-! ## `stbi_write_jpg_core` -/

def givenQuality (quality : Int) : Int := if quality ≠ 0 then quality else 90

def subsampled (quality : Int) : Bool := givenQuality quality ≤ 90

def scaledQuality (quality : Int) : Int :=
  let quality := givenQuality quality
  let quality := if quality < 1 then 1 else if quality > 100 then 100 else quality
  if quality < 50 then Int.tdiv 5000 quality else 200 - quality * 2

def tableEntry (qt : Nat) (quality : Int) : UInt8 :=
  let ti := Int.tdiv (qt * scaledQuality quality + 50) 100
  if ti < 1 then 1 else if ti > 255 then 255 else UInt8.ofNat ti.toNat

/-- `YTable` and `UVTable`. -/
def quantBytes (qt : List Nat) (quality : Int) : Bytes :=
  (List.range 64).foldl (fun table i =>
    table.set (zigZag.getD i 0) (tableEntry (qt.getD i 0) quality)) (List.replicate 64 0)

def head0 : Bytes :=
  [0xFF, 0xD8, 0xFF, 0xE0, 0, 0x10, 0x4A, 0x46, 0x49, 0x46, 0, 1, 1, 0, 0, 1, 0, 1, 0, 0, 0xFF,
    0xDB, 0, 0x84, 0]

def head1 (width height : Nat) (subsample : Bool) : Bytes :=
  [0xFF, 0xC0, 0, 0x11, 8, UInt8.ofNat (height >>> 8), UInt8.ofNat height,
    UInt8.ofNat (width >>> 8), UInt8.ofNat width, 3, 1, if subsample then 0x22 else 0x11, 0, 2,
    0x11, 1, 3, 0x11, 1, 0xFF, 0xC4, 0x01, 0xA2, 0]

def head2 : Bytes := [0xFF, 0xDA, 0, 0xC, 3, 1, 0, 2, 0x11, 3, 0x11, 0, 0x3F, 0]

/-- The chunks in front of the blocks. -/
def headers (width height : Nat) (quality : Int) : List Bytes :=
  [head0, quantBytes yqt quality, [1], quantBytes uvqt quality,
    head1 width height (subsampled quality),
    stdDcLuminanceNrcodes.drop 1, stdDcLuminanceValues, [0x10],
    stdAcLuminanceNrcodes.drop 1, stdAcLuminanceValues, [1],
    stdDcChrominanceNrcodes.drop 1, stdDcChrominanceValues, [0x11],
    stdAcChrominanceNrcodes.drop 1, stdAcChrominanceValues, head2]

/-- The coefficients of the MCU at row `y` and column `x`, for each block of it. -/
abbrev Units := Nat → Nat → Nat → Nat → Int

/-- The bits so far, and `DCY`, `DCU` and `DCV`. -/
structure Encoding where
  w : BitWriter
  DC : Nat → Int

def processUnit (component : Nat) (DU : Nat → Int) (e : Encoding) : Encoding where
  w := processDU DU (e.DC component) (dcCodes component) (acCodes component) e.w
  DC := Function.update e.DC component (DU 0)

/-- The blocks of an MCU from block `k` on. -/
def processUnits (DU : Nat → Nat → Int) : List Nat → Nat → Encoding → Encoding
  | [], _, e => e
  | component :: comps, k, e =>
    processUnits DU comps (k + 1) (processUnit component (DU k) e)

/-- The components of the blocks of an MCU. -/
def unitComps (subsample : Bool) : List Nat := if subsample then [0, 0, 0, 0, 1, 2] else [0, 1, 2]

def unitSize (subsample : Bool) : Nat := if subsample then 16 else 8

/-- The loop over `x`. -/
def encodeRow (DU : Nat → Nat → Nat → Int) (subsample : Bool) (width : Nat) :
    Nat → Nat → Encoding → Encoding
  | 0, _, e => e
  | n + 1, x, e =>
    if x < width then
      encodeRow DU subsample width n (x + unitSize subsample)
        (processUnits (DU x) (unitComps subsample) 0 e)
    else e

/-- The loop over `y`. -/
def encodeRows (DU : Units) (subsample : Bool) (width height : Nat) :
    Nat → Nat → Encoding → Encoding
  | 0, _, e => e
  | n + 1, y, e =>
    if y < height then
      encodeRows DU subsample width height n (y + unitSize subsample)
        (encodeRow (DU y) subsample width width 0 e)
    else e

def Encoding.start : Encoding := ⟨⟨[], 0, 0⟩, fun _ => 0⟩

/-- All blocks, and the bits that fill the last byte. -/
def encodedBlocks (DU : Units) (width height : Nat) (quality : Int) : Bytes :=
  (writeBits (0x7F, 7)
    (encodeRows DU (subsampled quality) width height height 0 Encoding.start).w).out

def stbiWriteJpgCore (DU : Units) (width height : Nat) (quality : Int) : Core.EncoderRun :=
  if width = 0 ∨ height = 0 then ⟨[], false⟩
  else
    ⟨headers width height quality ++
      (encodedBlocks DU width height quality).map (fun c => [c]) ++ [[0xFF], [0xD9]], true⟩

/-! ## What the headers are -/

variable {s : Pico} {width height : Nat} {quality : Int}

theorem quantBytes_length (qt : List Nat) (quality : Int) :
    (quantBytes qt quality).length = 64 := by
  have main : ∀ (l : List Nat) (table : Bytes), (l.foldl (fun table i =>
      table.set (zigZag.getD i 0) (tableEntry (qt.getD i 0) quality)) table).length =
        table.length := by
    intro l
    induction l with
    | nil => exact fun _ => rfl
    | cons i l ih => exact fun table => by rw [List.foldl_cons, ih, List.length_set]
  exact (main _ _).trans (List.length_replicate ..)

/-- The segments up to the frame. -/
def frontSegments (quality : Int) : Bytes :=
  0xFF :: 0xE0 :: ([0, 0x10, 0x4A, 0x46, 0x49, 0x46, 0, 1, 1, 0, 0, 1, 0, 1, 0, 0] ++
    0xFF :: 0xDB :: ((0 :: 0x84 :: (0 :: (quantBytes yqt quality ++
      (1 :: (quantBytes uvqt quality ++ []))))) ++ [0xFF, 0xC0]))

/-- The bytes of a size. -/
def sizeBytes (width height : Nat) (subsample : Bool) : Bytes :=
  sofBytes (UInt8.ofNat (width >>> 8)) (UInt8.ofNat width) (UInt8.ofNat (height >>> 8))
    (UInt8.ofNat height) (if subsample then 0x22 else 0x11)

/-- The segments behind the frame. -/
def backSegments : Bytes :=
  0xFF :: 0xC4 :: ((0x01 :: 0xA2 :: huffBytes stdEntries) ++ ([0xFF, 0xDA]))

theorem headers_flatten (width height : Nat) (quality : Int) :
    (headers width height quality).flatten = [0xFF, 0xD8] ++ (frontSegments quality ++
      (sizeBytes width height (subsampled quality) ++ (backSegments ++ sosBytes))) := by
  simp only [headers, head0, head1, head2, frontSegments, sizeBytes, sofBytes, backSegments,
    sosBytes, huffBytes, stdEntries, dcLuminance, acLuminance, dcChrominance, acChrominance,
    HuffEntry.bytes, List.flatten_cons, List.flatten_nil,
    List.flatMap_cons, List.flatMap_nil, List.cons_append, List.nil_append, List.append_assoc,
    List.append_nil]

/-! ## What becomes of them -/

theorem wordOf_size {n : Nat} (h : n < 65536) :
    (wordOf (UInt8.ofNat (n >>> 8)) (UInt8.ofNat n)).toNat = n := by
  rw [wordOf_toNat, UInt8.toNat_ofNat', UInt8.toNat_ofNat', Nat.shiftRight_eq_div_pow]
  omega

/-- The quantization tables are those of a quality. -/
structure Tables.Quantized (b : Tables) (quality : Int) : Prop where
  y : ∀ k < 64, b.quant 0 k = quantEntries (quantBytes yqt quality) k
  uv : ∀ k < 64, b.quant 1 k = quantEntries (quantBytes uvqt quality) k
  valid : b.validQuantTables &&& 1 ≠ 0 ∧ b.validQuantTables &&& 2 ≠ 0

theorem or_and_ne {x y m : Nat} (h : x &&& m ≠ 0) : (x ||| y) &&& m ≠ 0 := fun h0 => h (by
  rw [Nat.and_or_distrib_right, Nat.or_eq_zero_iff] at h0
  exact h0.1)

theorem or_self_and_ne {x m : Nat} (h : m ≠ 0) : (x ||| m) &&& m ≠ 0 := fun h0 => h (by
  rw [Nat.and_or_distrib_right, Nat.or_eq_zero_iff, Nat.and_self] at h0
  exact h0.2)

theorem readDQTMarker_takes {y uv : Bytes} (hy : y.length = 64) (huv : uv.length = 64) :
    Takes readDQTMarker s (0 :: 0x84 :: (0 :: (y ++ (1 :: (uv ++ []))))) fun _ s' =>
      ∃ r b, s' = (s.withReader r).withTables b ∧
        (∀ k < 64, b.quant 0 k = quantEntries y k) ∧ (∀ k < 64, b.quant 1 k = quantEntries uv k) ∧
        b.validQuantTables &&& 1 ≠ 0 ∧ b.validQuantTables &&& 2 ≠ 0 := by
  refine Takes.sixteen fun r₁ => Takes.andThen (check_pass (by decide)) rfl ?_
  rw [show (wordOf 0 0x84).toNat - 2 = 130 from rfl]
  refine readQuantTables_entry (n := 129) 0 hy (by decide) fun r₂ q hq => ?_
  refine readQuantTables_entry (n := 128) 1 huv (by decide) fun r₃ q' hq' => ?_
  refine Takes.done (a := ()) rfl rfl ⟨r₃, _, rfl, fun k hk => ?_, fun k hk => ?_, ?_, ?_⟩
  · exact hq k hk
  · exact hq' k hk
  · exact or_and_ne (or_self_and_ne (by decide))
  · exact or_self_and_ne (by decide)

theorem locateSOIMarker_takes :
    Takes locateSOIMarker s [0xFF, 0xD8] fun _ s' => ∃ r, s' = s.withReader r :=
  Takes.byte fun _ => Takes.byte fun r => Takes.done (a := ()) rfl rfl ⟨r, rfl⟩

theorem frontSegments_takes {fuel n : Nat} :
    Takes (processMarkers (fuel + 1) (n + 3)) s (frontSegments quality) fun c s' =>
      c = 0xC0 ∧ ∃ r b, s' = (s.withReader r).withTables b ∧ b.Quantized quality := by
  refine processMarkers_segment (Q := fun _ s' => ∃ r, s' = s.withReader r) rfl (by decide)
    (by decide) (fun r => ?_) ?_
  · exact ((skipVariableMarker_takes (s := s.withReader r) rfl).mono
      fun _ _ ⟨r', h⟩ => ⟨r', h⟩).ignore
  rintro _ ⟨r₁, rfl⟩
  refine processMarkers_segment (Q := fun _ s' => ∃ r b, s' = (s.withReader r).withTables b ∧
    b.Quantized quality) rfl (by decide) (by decide) (fun r => ?_) ?_
  · exact ((readDQTMarker_takes (s := (s.withReader r₁).withReader r)
      (quantBytes_length yqt quality) (quantBytes_length uvqt quality)).mono
        fun _ _ ⟨r', b, h, hy, huv, hvalid⟩ => ⟨r', b, h, hy, huv, hvalid⟩).ignore
  rintro _ ⟨r₂, b, rfl, hb⟩
  exact (processMarkers_returns rfl).mono fun _ _ ⟨hc, r₃, h⟩ => ⟨hc, r₃, b, h, hb⟩

/-- Everything up to the frame. -/
theorem locateSOFMarker_takes (fuel : Nat) (quality : Int) (hwidth : 1 ≤ width ∧ width ≤ maxSize)
    (hheight : 1 ≤ height ∧ height ≤ maxSize) :
    Takes (locateSOFMarker (fuel + 3)) s ([0xFF, 0xD8] ++ (frontSegments quality ++
      sizeBytes width height (subsampled quality))) fun _ s' => ∃ r b f,
        s' = { (s.withReader r).withTables b with frame := f } ∧ b.Quantized quality ∧
          f.Colour width height (if subsampled quality then 0x22 else 0x11) := by
  have hw := wordOf_size (n := width) (Nat.lt_of_le_of_lt hwidth.2 (by decide))
  have hh := wordOf_size (n := height) (Nat.lt_of_le_of_lt hheight.2 (by decide))
  refine locateSOIMarker_takes.bind fun _ s₁ h₁ => ?_
  obtain ⟨r₁, rfl⟩ := h₁
  refine (frontSegments_takes (n := fuel)).bind fun c s₂ h₂ => ?_
  obtain ⟨rfl, r₂, b, rfl, hb⟩ := h₂
  refine (readSOFMarker_takes (by rwa [hw]) (by rwa [hh])).mono fun _ s₃ h₃ => ?_
  obtain ⟨r₃, f, rfl, hf⟩ := h₃
  rw [hw, hh] at hf
  exact ⟨r₃, b, f, rfl, hb, hf⟩

/-- Everything behind it. -/
theorem locateSOSMarker_takes (fuel : Nat) {hv : UInt8} (h : s.frame.Colour width height hv) :
    Takes (locateSOSMarker (fuel + 2)) s (backSegments ++ sosBytes) fun found s' =>
      found = false ∧ ∃ r b scan, s' = { (s.withReader r).withTables b with scan := scan } ∧
        b.Standard ∧ (b.quant = s.tables.quant ∧
          b.validQuantTables = s.tables.validQuantTables) ∧ scan.Colour := by
  have hmarkers : Takes (processMarkers (fuel + 2) (fuel + 2)) s backSegments fun c s' =>
      c = 0xDA ∧ ∃ r b, s' = (s.withReader r).withTables b ∧ s.tables.EnteredAll stdEntries b := by
    refine processMarkers_segment (Q := fun _ s' => ∃ r b, s' = (s.withReader r).withTables b ∧
      s.tables.EnteredAll stdEntries b) rfl (by decide) (by decide) (fun r => ?_) ?_
    · exact ((readDHTMarker_takes (s := s.withReader r) stdEntries_wellFormed
        (by decide +kernel)).mono fun _ _ ⟨r', b, h, hb⟩ => ⟨r', b, h, hb⟩).ignore
    · rintro _ ⟨r₁, b, rfl, hb⟩
      exact (processMarkers_returns rfl).mono fun _ _ ⟨hc, r₂, h⟩ => ⟨hc, r₂, b, h, hb⟩
  refine hmarkers.bind fun c s₁ h₁ => ?_
  obtain ⟨rfl, r₁, b, rfl, hb⟩ := h₁
  have hda : ¬ (0xDA : UInt8) = 0xD9 := by decide
  rw [if_neg hda]
  refine Takes.andThen (check_pass (by decide)) rfl ?_
  rw [← List.append_nil sosBytes]
  refine (readSOSMarker_takes (s := (s.withReader r₁).withTables b) h).bind fun _ s₂ h₂ => ?_
  obtain ⟨r₂, scan, rfl, hscan⟩ := h₂
  exact Takes.done rfl rfl ⟨rfl, r₂, b, scan, rfl, hb.standard, hb.quant, hscan⟩

/-! ## `pjpeg_decode_init` -/

theorem checkHuffTables_pass {n i : Nat} (h : ∀ j, i ≤ j → j < i + n →
      s.tables.validHuffTables &&& 1 <<< (s.scan.compDCTab (s.scan.compList j)).toNat ≠ 0 ∧
      s.tables.validHuffTables &&& 1 <<< ((s.scan.compACTab (s.scan.compList j)).toNat + 2) ≠ 0) :
    checkHuffTables n i s = .done () s := by
  induction n generalizing i with
  | zero => rfl
  | succ n ih =>
    obtain ⟨hdc, hac⟩ := h i (Nat.le_refl i) (by omega)
    rw [checkHuffTables, bind_done (show (Comp.get : Pj Pico) s = .done s s from rfl)]
    exact (bind_done (check_pass (not_or.2 ⟨hdc, hac⟩))).trans
      (ih fun j hj hlt => h j (by omega) (by omega))

theorem checkQuantTables_pass {n i : Nat} (h : ∀ j, i ≤ j → j < i + n →
      s.tables.validQuantTables &&&
        (if s.frame.compQuant (s.scan.compList j) ≠ 0 then 2 else 1) ≠ 0) :
    checkQuantTables n i s = .done () s := by
  induction n generalizing i with
  | zero => rfl
  | succ n ih =>
    have hone := h i (Nat.le_refl i) (by omega)
    rw [checkQuantTables, bind_done (show (Comp.get : Pj Pico) s = .done s s from rfl)]
    exact (bind_done (check_pass hone)).trans (ih fun j hj hlt => h j (by omega) (by omega))

/-- A byte that is put back is the next one again. -/
theorem Source.back_next {rest : Bytes} {tem : Bool} (h : rest ≠ []) :
    (Source.next ⟨rest, tem⟩).2.back (Source.next ⟨rest, tem⟩).1 = ⟨rest, tem⟩ := by
  cases rest with
  | nil => exact absurd rfl h
  | cons c rest => rfl

/-- Where the blocks of the encoder begin. -/
structure Pico.AtBlocks (s : Pico) (width height : Nat) (quality : Int) (blocks : Bytes) :
    Prop where
  info : s.info = ⟨width, height, scanTypeOf (subsampled quality)⟩
  org : s.layout.mcuOrg = unitComps (subsampled quality)
  tables : s.tables.Standard
  quantized : s.tables.Quantized quality
  quant : ∀ c < 3, s.frame.compQuant c = if c = 0 then 0 else 1
  scan : ∀ c < 3, s.scan.UsesStandard c
  interval : s.restarts.restartInterval = 0
  lastDC : s.lastDC = noDC
  ready : s.reader.Ready
  bits : s.reader.bits true = ofBytes ((⟨blocks, false⟩ : Source).octets true)

theorem ScanHeader.Colour.usesStandard {scan : ScanHeader} (h : scan.Colour) {c : Nat}
    (hc : c < 3) : scan.UsesStandard c := by
  obtain ⟨hd0, hd1, hd2⟩ := h.dcTab
  obtain ⟨ha0, ha1, ha2⟩ := h.acTab
  obtain rfl | rfl | rfl : c = 0 ∨ c = 1 ∨ c = 2 := by omega
  · exact ⟨hd0, ha0⟩
  · exact ⟨hd1, ha1⟩
  · exact ⟨hd2, ha2⟩

theorem FrameHeader.Colour.quantOf {f : FrameHeader} {hv : UInt8} (h : f.Colour width height hv)
    {c : Nat} (hc : c < 3) : f.compQuant c = if c = 0 then 0 else 1 := by
  obtain ⟨h0, h1, h2⟩ := h.quant
  obtain rfl | rfl | rfl : c = 0 ∨ c = 1 ∨ c = 2 := by omega
  · exact h0
  · exact h1
  · exact h2

theorem ScanHeader.Colour.list_eq {scan : ScanHeader} (h : scan.Colour) {j : Nat} (hj : j < 3) :
    scan.compList j = j := by
  obtain ⟨h0, h1, h2⟩ := h.list
  obtain rfl | rfl | rfl : j = 0 ∨ j = 1 ∨ j = 2 := by omega
  · exact h0
  · exact h1
  · exact h2

/-- The checks of `initScan` find what the headers have entered. -/
theorem initScan_checks {hv : UInt8} (hf : s.frame.Colour width height hv) (hscan : s.scan.Colour)
    (hb : s.tables.Standard) (hq : s.tables.Quantized quality) :
    checkHuffTables s.scan.compsInScan 0 s = .done () s ∧
      checkQuantTables s.scan.compsInScan 0 s = .done () s := by
  rw [hscan.comps]
  refine ⟨checkHuffTables_pass fun j _ hj => ?_, checkQuantTables_pass fun j _ hj => ?_⟩
  · have huses := hscan.usesStandard (c := j) (by omega)
    rw [hscan.list_eq (by omega), huses.dcTab, huses.acTab]
    by_cases hj0 : j = 0
    · rw [if_pos hj0]
      exact ⟨(hb dcLuminance (by simp [stdEntries])).valid,
        (hb acLuminance (by simp [stdEntries])).valid⟩
    · rw [if_neg hj0]
      exact ⟨(hb dcChrominance (by simp [stdEntries])).valid,
        (hb acChrominance (by simp [stdEntries])).valid⟩
  · rw [hscan.list_eq (by omega), hf.quantOf (by omega)]
    by_cases hj0 : j = 0
    · rw [if_pos hj0]
      exact hq.valid.1
    · rw [if_neg hj0]
      exact hq.valid.2

/-- What `initScan` makes of the rest of the headers. -/
structure Pico.ScanBegun (s s' : Pico) : Prop where
  frame : s'.frame = s.frame
  layout : s'.layout = s.layout
  tables : s'.tables.Standard
  quant : s'.tables.quant = s.tables.quant ∧
    s'.tables.validQuantTables = s.tables.validQuantTables
  scan : s'.scan.Colour
  interval : s'.restarts.restartInterval = s.restarts.restartInterval
  lastDC : s'.lastDC = noDC
  ready : s'.reader.Ready

theorem Tables.Quantized.congr {b b' : Tables} (h : b.Quantized quality)
    (hquant : b'.quant = b.quant) (hvalid : b'.validQuantTables = b.validQuantTables) :
    b'.Quantized quality := by
  refine ⟨fun k hk => ?_, fun k hk => ?_, ?_⟩
  · rw [hquant]
    exact h.y k hk
  · rw [hquant]
    exact h.uv k hk
  · rw [hvalid]
    exact h.valid

theorem initScan_encoder (fuel : Nat) {p : Nat} {hv : UInt8} {t : Source}
    (hf : s.frame.Colour width height hv) (hq : s.tables.Quantized quality)
    (hat : At t s.reader p)
    (hbytes : t.bytesAt p (backSegments ++ sosBytes).length = backSegments ++ sosBytes) :
    ∃ s', initScan (fuel + 2) s = .done () s' ∧ s.ScanBegun s' ∧ s'.reader.bits true =
      ofBytes (((t.drop (p + (backSegments ++ sosBytes).length + 1)).back
        (t.byteAt (p + (backSegments ++ sosBytes).length))).octets true) := by
  generalize hback : backSegments ++ sosBytes = back at hbytes ⊢
  obtain ⟨found, s₁, hsos, hat₁, hfound, r₁, b, scan, hs₁, hb, hquant, hscan⟩ :=
    locateSOSMarker_takes fuel hf t p hat (by rw [hback, hbytes])
  rw [hback] at hat₁
  subst hfound
  have hframe₁ : s₁.frame = s.frame := by rw [hs₁]; rfl
  have hlayout₁ : s₁.layout = s.layout := by rw [hs₁]; rfl
  have htables₁ : s₁.tables = b := by rw [hs₁]; rfl
  have hscan₁ : s₁.scan = scan := by rw [hs₁]
  have hrestarts₁ : s₁.restarts = s.restarts := by rw [hs₁]; rfl
  clear hs₁
  have hq₁ : s₁.tables.Quantized quality :=
    hq.congr (htables₁ ▸ hquant.1) (htables₁ ▸ hquant.2)
  obtain ⟨hhuff, hquantCheck⟩ :=
    initScan_checks (hframe₁ ▸ hf) (hscan₁ ▸ hscan) (htables₁ ▸ hb) hq₁
  -- the state `fixInBuffer` is called in
  obtain ⟨s₂, hs₂⟩ : ∃ s₂ : Pico, s₂ = { s₁ with
      lastDC := noDC
      restarts :=
        if s₁.restarts.restartInterval ≠ 0 then
          { s₁.restarts with restartsLeft := s₁.restarts.restartInterval, nextRestartNum := 0 }
        else s₁.restarts } := ⟨_, rfl⟩
  have hreader₂ : s₂.reader = s₁.reader := by rw [hs₂]
  obtain ⟨r, hfix, hready, hbits⟩ := fixInBuffer_ready (hreader₂ ▸ hat₁)
  have hbegun : s.ScanBegun (s₂.withReader r) := by
    refine ⟨?_, ?_, ?_, ?_, ?_, ?_, ?_, hready⟩ <;> subst hs₂
    · exact hframe₁
    · exact hlayout₁
    · show s₁.tables.Standard
      rwa [htables₁]
    · show s₁.tables.quant = _ ∧ s₁.tables.validQuantTables = _
      rwa [htables₁]
    · show s₁.scan.Colour
      rwa [hscan₁]
    · show (if s₁.restarts.restartInterval ≠ 0 then _ else _ : Restarts).restartInterval = _
      rw [hrestarts₁]
      split <;> rfl
    · rfl
  refine ⟨s₂.withReader r, ?_, hbegun, hbits⟩
  refine (bind_done hsos).trans ((bind_done (check_pass (by decide))).trans ?_)
  refine (bind_done (show (Comp.get : Pj Pico) s₁ = .done s₁ s₁ from rfl)).trans ?_
  refine (bind_done hhuff).trans ((bind_done hquantCheck).trans ?_)
  refine (bind_done (show Comp.modify _ s₁ = .done () s₂ from ?_)).trans hfix
  rw [hs₂]
  rfl

/-- The frame, as `initFrame` lays it out. -/
theorem initFrame_encoder {subsample : Bool}
    (h : s.frame.Colour width height (if subsample then 0x22 else 0x11)) :
    ∃ s', initFrame s = .done () s' ∧ s'.frame = s.frame ∧ s'.tables = s.tables ∧
      s'.reader = s.reader ∧ s'.restarts = s.restarts ∧
      s'.layout.scanType = scanTypeOf subsample ∧ s'.layout.mcuOrg = unitComps subsample := by
  refine ⟨_, initFrame_colour h, rfl, rfl, rfl, rfl, rfl, ?_⟩
  show blockComps (scanTypeOf subsample) = unitComps subsample
  cases subsample <;> rfl

/-- **The headers are accepted**, for every size and quality and whatever was decoded before. -/
theorem pjpegDecodeInit_encoder {fuel : Nat} {blocks : Bytes}
    (hwidth : 1 ≤ width ∧ width ≤ maxSize) (hheight : 1 ≤ height ∧ height ≤ maxSize)
    (hblocks : blocks ≠ []) (s : Pico) :
    ∃ s₀, pjpegDecodeInit (fuel + 3) ((headers width height quality).flatten ++ blocks) 1 s =
        .done ⟨width, height, scanTypeOf (subsampled quality)⟩ s₀ ∧
      s₀.AtBlocks width height quality blocks := by
  generalize hfront : [0xFF, 0xD8] ++ (frontSegments quality ++
    sizeBytes width height (subsampled quality)) = front
  generalize hback : backSegments ++ sosBytes = back
  have hjpeg : (headers width height quality).flatten ++ blocks = front ++ back ++ blocks := by
    rw [headers_flatten, ← hfront, ← hback]
    simp only [List.append_assoc]
  rw [hjpeg]
  generalize htail : front ++ back ++ blocks = jpeg
  obtain ⟨s₁, hinit, hat₁, -⟩ := init_at jpeg 1 s
  have hinterval : s₁.restarts.restartInterval = 0 := by
    cases hinit
    rfl
  obtain ⟨_, s₂, hsof, hat₂, r₂, b₂, f, hs₂, hb₂, hf⟩ :=
    locateSOFMarker_takes fuel quality hwidth hheight ⟨jpeg, false⟩ 0 hat₁
      (by
        rw [hfront]
        have hrest : (⟨jpeg, false⟩ : Source).rest = [] ++ front ++ (back ++ blocks) := by
          rw [← htail, List.nil_append, List.append_assoc]
        exact Source.bytesAt_rest hrest)
  rw [hfront, Nat.zero_add] at hat₂
  have hf₂ : s₂.frame = f := by rw [hs₂]
  have htables₂ : s₂.tables = b₂ := by rw [hs₂]; rfl
  have hrestarts₂ : s₂.restarts = s₁.restarts := by rw [hs₂]; rfl
  clear hs₂
  subst hf₂ htables₂
  obtain ⟨s₃, hframe, hframe₃, htables₃, hreader₃, hrestarts₃, hscanType, horg⟩ :=
    initFrame_encoder hf
  rw [← hframe₃] at hf
  rw [← htables₃] at hb₂
  rw [← hreader₃] at hat₂
  obtain ⟨s₄, hscan, hbegun, hbits⟩ := initScan_encoder (fuel + 1) hf hb₂ hat₂ (by
    rw [hback]
    have hrest : (⟨jpeg, false⟩ : Source).rest = front ++ back ++ blocks := htail.symm
    exact Source.bytesAt_rest hrest)
  have hsource : ((⟨jpeg, false⟩ : Source).drop (front.length + back.length + 1)).back
      ((⟨jpeg, false⟩ : Source).byteAt (front.length + back.length)) = ⟨blocks, false⟩ := by
    have hdrop : (⟨jpeg, false⟩ : Source).drop (front.length + back.length) = ⟨blocks, false⟩ := by
      rw [Source.drop_rest (by rw [← htail]; simp), ← htail, ← List.length_append,
        List.drop_left]
    rw [Source.drop_succ, Source.byteAt, hdrop, Source.back_next hblocks]
  rw [hback, hsource] at hbits
  have hinfo : s₄.info = ⟨width, height, scanTypeOf (subsampled quality)⟩ := by
    rw [Pico.info, hbegun.frame, hbegun.layout, hf.width, hf.height, hscanType]
  refine ⟨s₄, ?_, hinfo, ?_, hbegun.tables, hb₂.congr hbegun.quant.1 hbegun.quant.2,
    fun c hc => ?_, fun c hc => hbegun.scan.usesStandard hc, ?_, hbegun.lastDC, hbegun.ready,
    hbits⟩
  · rw [← hinfo]
    exact (bind_done hinit).trans ((bind_done hsof).trans ((bind_done hframe).trans
      ((bind_done hscan).trans rfl)))
  · rw [hbegun.layout, horg]
  · rw [hbegun.frame]
    exact hf.quantOf hc
  · rw [hbegun.interval, hrestarts₃, hrestarts₂, hinterval]

end RetroLens.Jpeg
