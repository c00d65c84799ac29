import RetroLens.Core.Frame
import RetroLens.Core.JpegEncoder
import RetroLens.Lib.Checked

/-!
# The bounded JPEG sink in memory

`jpeg_encoder.cpp` with its pointers, its `int` chunk sizes and its `size_t`
arithmetic, over a buffer whose bounds are checked. It does what the sink of
`JpegEncoder` does on byte strings (`writeEncoded_refines`), so that it leaves
either all of the encoder's output or nothing (`encodeJpeg_whole`).
-/

namespace RetroLens.Core.JpegSink

open Text Checked

/-- A `size_t` is at least as wide as an `int`. -/
structure Platform where
  sizeBits : Nat
  atLeast : 32 ≤ sizeBits

/-- What a call of `writeEncoded` is handed. -/
structure Chunk where
  size : Int
  data : Bytes
  holds : data.length = size.toNat
  inInt : size < 2 ^ 31

/-- What a call of `stbi_write_jpg_to_func` does. -/
structure EncoderRun where
  chunks : List Chunk
  result : Int

def EncoderRun.written (run : EncoderRun) : Bytes := (run.chunks.map Chunk.data).flatten

structure EncoderTarget {platform : Platform} (capacity : BitVec platform.sizeBits) where
  output : Buffer UInt8 capacity.toNat
  size : BitVec platform.sizeBits
  overflow : Bool

variable {platform : Platform} {capacity : BitVec platform.sizeBits}

def writeEncoded (target : EncoderTarget capacity) (chunk : Chunk) :
    Option (EncoderTarget capacity) :=
  if chunk.size < 0 ∨ target.overflow then some target
  else if BitVec.ofInt platform.sizeBits chunk.size > capacity - target.size then
    some { target with overflow := true }
  else do
    let output ← target.output.copy target.size.toNat chunk.data
    some { target with
      output, size := target.size + BitVec.ofInt platform.sizeBits chunk.size }

/-- What the caller of `encodeJpeg` sees: what it returned, and what its pointers point to. -/
structure Encoded (capacity : BitVec platform.sizeBits) where
  returned : Bool
  output : Option (Buffer UInt8 capacity.toNat)
  outputSize : Option (BitVec platform.sizeBits)

/-- A null pointer is `none`. -/
def encodeJpeg (stbiWriteJpgToFunc : List Pixel → Int → Int → Int → EncoderRun)
    (pixels : Option (List Pixel)) (width height quality : Int)
    (output : Option (Buffer UInt8 capacity.toNat))
    (outputSize : Option (BitVec platform.sizeBits)) : Option (Encoded capacity) :=
  match pixels, output, outputSize with
  | some pixels, some buffer, some _ =>
    if width ≤ 0 ∨ height ≤ 0 then some ⟨false, buffer, some 0⟩
    else do
      let run := stbiWriteJpgToFunc pixels width height quality
      let target ← run.chunks.foldlM writeEncoded ⟨buffer, 0, false⟩
      if run.result = 0 ∨ target.overflow ∨ target.size < 4 then
        some ⟨false, target.output, some 0⟩
      else some ⟨true, target.output, some target.size⟩
  | _, output, outputSize => some ⟨false, output, outputSize.map fun _ => 0⟩

variable {target : EncoderTarget capacity} {chunk : Chunk} {kept : Core.EncoderTarget}

/-- What is in the buffer is what the sink on byte strings has kept. -/
structure Holds (target : EncoderTarget capacity) (kept : Core.EncoderTarget) : Prop where
  limit : kept.capacity = capacity.toNat
  overflow : target.overflow = kept.overflow
  size : target.size.toNat = kept.output.length
  room : kept.output.length ≤ capacity.toNat
  output : target.output.front kept.output.length = kept.output

theorem Platform.two_pow (platform : Platform) : 2 ^ 32 ≤ 2 ^ platform.sizeBits :=
  Nat.pow_le_pow_right (by decide) platform.atLeast

/-- `(size_t)size`. -/
theorem Chunk.toSize (chunk : Chunk) (h : ¬ chunk.size < 0) :
    (BitVec.ofInt platform.sizeBits chunk.size).toNat = chunk.data.length := by
  have hpow := platform.two_pow
  have hint := chunk.inInt
  have hcast : ((2 ^ platform.sizeBits : Nat) : Int) = 2 ^ platform.sizeBits := by norm_cast
  rw [BitVec.toNat_ofInt, chunk.holds, Int.emod_eq_of_lt (by omega) (by omega)]

/-- **A chunk is written inside the buffer**, and does what it does to the byte string. -/
theorem writeEncoded_refines (h : Holds target kept) (chunk : Chunk) :
    ∃ target', writeEncoded target chunk = some target' ∧
      Holds target' (Core.writeEncoded kept chunk.data) := by
  obtain ⟨bytes, limit, full⟩ := kept
  obtain ⟨rfl, rfl, hbytes, hroom, hfront⟩ := h
  have hroom : bytes.length ≤ capacity.toNat := hroom
  unfold writeEncoded Core.writeEncoded
  by_cases hskip : chunk.size < 0 ∨ target.overflow = true
  · rw [if_pos hskip]
    refine ⟨target, rfl, ?_⟩
    rcases hskip with hneg | hover
    · have hnil : chunk.data = [] :=
        List.eq_nil_of_length_eq_zero (by rw [chunk.holds]; omega)
      have hfits : ¬ ([] : Bytes).length > capacity.toNat - bytes.length := by simp
      rw [hnil, if_neg hfits, List.append_nil, ite_self]
      exact ⟨rfl, rfl, hbytes, hroom, hfront⟩
    · rw [if_pos hover]
      exact ⟨rfl, rfl, hbytes, hroom, hfront⟩
  · obtain ⟨hpos, hover⟩ := not_or.1 hskip
    have hsize : (BitVec.ofInt platform.sizeBits chunk.size).toNat = chunk.data.length :=
      chunk.toSize hpos
    have hgt : BitVec.ofInt platform.sizeBits chunk.size > capacity - target.size ↔
        chunk.data.length > capacity.toNat - bytes.length := by
      have hle : target.size ≤ capacity := by
        rw [BitVec.le_def, hbytes]
        exact hroom
      rw [gt_iff_lt, BitVec.lt_def, BitVec.toNat_sub_of_le hle, hsize, hbytes]
    rw [if_neg hskip, if_neg hover]
    by_cases hfull : chunk.data.length > capacity.toNat - bytes.length
    · rw [if_pos (hgt.2 hfull), if_pos hfull]
      exact ⟨_, rfl, rfl, rfl, hbytes, hroom, hfront⟩
    · rw [if_neg (mt hgt.1 hfull), if_neg hfull, hbytes]
      have hfits : bytes.length + chunk.data.length ≤ capacity.toNat := by omega
      obtain ⟨output, hcopy, hwritten⟩ := Buffer.copy_front hfront hfits
      rw [hcopy]
      refine ⟨_, rfl, rfl, rfl, ?_, ?_, ?_⟩
      · have hlt := capacity.isLt
        simp only [BitVec.toNat_add, hbytes, hsize, List.length_append]
        exact Nat.mod_eq_of_lt (by omega)
      · rw [List.length_append]
        exact hfits
      · rw [List.length_append]
        exact hwritten

/-- **So are all the chunks of a run**, in any number and of any sizes. -/
theorem chunks_refine (h : Holds target kept) (chunks : List Chunk) :
    ∃ target', chunks.foldlM writeEncoded target = some target' ∧
      Holds target' ((chunks.map Chunk.data).foldl Core.writeEncoded kept) := by
  induction chunks generalizing target kept with
  | nil => exact ⟨target, rfl, h⟩
  | cons chunk chunks ih =>
    obtain ⟨next, hnext, hholds⟩ := writeEncoded_refines h chunk
    rw [List.foldlM_cons, hnext]
    exact ih hholds

/-- The encoder's output as the sink on byte strings sees it. -/
def EncoderRun.bytes (run : EncoderRun) : Core.EncoderRun :=
  ⟨run.chunks.map Chunk.data, decide (run.result ≠ 0)⟩

/-- With its pointers there and an image of some size, `encodeJpeg` leaves in memory what it leaves
of the byte strings. -/
theorem encodeJpeg_refines (stbi : List Pixel → Int → Int → Int → EncoderRun)
    (pixels : List Pixel) {width height : Int} (quality : Int)
    (buffer : Buffer UInt8 capacity.toNat) (before : BitVec platform.sizeBits)
    (hw : 0 < width) (hh : 0 < height) :
    ∃ r, encodeJpeg stbi (some pixels) width height quality (some buffer) (some before) = some r ∧
      match Core.encodeJpeg (stbi pixels width height quality).bytes capacity.toNat with
      | none => r.returned = false ∧ r.outputSize = some 0
      | some data => r.returned = true ∧ ∃ output size, r.output = some output ∧
          r.outputSize = some size ∧ size.toNat = data.length ∧
          output.front size.toNat = data := by
  have hstart : Holds (⟨buffer, 0, false⟩ : EncoderTarget capacity)
      { output := [], capacity := capacity.toNat, overflow := false } :=
    ⟨rfl, rfl, BitVec.toNat_zero, Nat.zero_le _, Buffer.front_zero _⟩
  obtain ⟨target, hfold, hholds⟩ :=
    chunks_refine hstart (stbi pixels width height quality).chunks
  have hsmall : target.size < 4 ↔ target.size.toNat < 4 := by
    have hpow := platform.two_pow
    have hfour : (BitVec.ofNat platform.sizeBits 4).toNat = 4 := by
      rw [BitVec.toNat_ofNat, Nat.mod_eq_of_lt (by omega)]
    rw [BitVec.lt_def]
    exact hfour.symm ▸ Iff.rfl
  have hrefused : (!(stbi pixels width height quality).bytes.result ||
      ((stbi pixels width height quality).bytes.chunks.foldl Core.writeEncoded
        { output := [], capacity := capacity.toNat, overflow := false }).overflow ||
      decide (((stbi pixels width height quality).bytes.chunks.foldl Core.writeEncoded
        { output := [], capacity := capacity.toNat, overflow := false }).output.length < 4)) =
        true ↔ (stbi pixels width height quality).result = 0 ∨ target.overflow = true ∨
          target.size < 4 := by
    simp only [EncoderRun.bytes, Bool.or_eq_true, Bool.not_eq_true', decide_eq_false_iff_not,
      not_not, decide_eq_true_eq, ← hholds.overflow, ← hholds.size, ← hsmall, or_assoc]
  unfold encodeJpeg
  simp only [hfold, Option.bind_eq_bind, Option.bind_some]
  rw [if_neg (by omega)]
  by_cases hfails : (stbi pixels width height quality).result = 0 ∨ target.overflow = true ∨
      target.size < 4
  · have hnone : Core.encodeJpeg (stbi pixels width height quality).bytes capacity.toNat = none :=
      if_pos (hrefused.2 hfails)
    rw [hnone]
    exact ⟨_, if_pos hfails, rfl, rfl⟩
  · have hsome : Core.encodeJpeg (stbi pixels width height quality).bytes capacity.toNat = some _ :=
      if_neg (mt hrefused.1 hfails)
    rw [hsome]
    refine ⟨_, if_neg hfails, rfl, _, _, rfl, rfl, hholds.size, ?_⟩
    rw [hholds.size]
    exact hholds.output

/-- The call goes to the encoder, or is refused at once. -/
theorem encodeJpeg_cases (stbi : List Pixel → Int → Int → Int → EncoderRun)
    (pixels : Option (List Pixel)) (width height quality : Int)
    (output : Option (Buffer UInt8 capacity.toNat))
    (outputSize : Option (BitVec platform.sizeBits)) :
    (∃ source buffer before, pixels = some source ∧ output = some buffer ∧
      outputSize = some before ∧ 0 < width ∧ 0 < height) ∨
    ∃ r, encodeJpeg stbi pixels width height quality output outputSize = some r ∧
      r.returned = false ∧ ∀ size, r.outputSize = some size → size = 0 := by
  unfold encodeJpeg
  split
  · rename_i source buffer before
    by_cases hempty : width ≤ 0 ∨ height ≤ 0
    · rw [if_pos hempty]
      exact .inr ⟨_, rfl, rfl, fun size hsize => (Option.some.inj hsize).symm⟩
    · exact .inl ⟨source, buffer, before, rfl, rfl, rfl, by omega, by omega⟩
  · refine .inr ⟨_, rfl, rfl, fun size hsize => ?_⟩
    obtain ⟨_, -, rfl⟩ := Option.map_eq_some_iff.1 hsize
    rfl

/-- **The sink never truncates silently.** It writes inside the buffer; a call that returns true
has left all of the encoder's chunks, and one whose chunks do not fit returns false. -/
theorem encodeJpeg_whole (stbi : List Pixel → Int → Int → Int → EncoderRun)
    (pixels : Option (List Pixel)) (width height quality : Int)
    (output : Option (Buffer UInt8 capacity.toNat))
    (outputSize : Option (BitVec platform.sizeBits)) :
    ∃ r, encodeJpeg stbi pixels width height quality output outputSize = some r ∧
      (r.returned = true → ∃ source buffer size, pixels = some source ∧
        (stbi source width height quality).result ≠ 0 ∧ r.output = some buffer ∧
        r.outputSize = some size ∧ size.toNat ≤ capacity.toNat ∧
        buffer.front size.toNat = (stbi source width height quality).written) ∧
      ∀ source, pixels = some source →
        capacity.toNat < (stbi source width height quality).written.length →
        r.returned = false ∧ ∀ size, r.outputSize = some size → size = 0 := by
  rcases encodeJpeg_cases stbi pixels width height quality output outputSize with
    ⟨source, buffer, before, rfl, rfl, rfl, hw, hh⟩ | ⟨r, hrun, hfalse, hzero⟩
  · obtain ⟨r, hrun, hwhole⟩ := encodeJpeg_refines stbi source quality buffer before hw hh
    refine ⟨r, hrun, ?_⟩
    cases hkept : Core.encodeJpeg (stbi source width height quality).bytes capacity.toNat with
    | none =>
      rw [hkept] at hwhole
      obtain ⟨hfalse, hzero⟩ := hwhole
      refine ⟨fun htrue => ?_, fun _ _ _ => ⟨hfalse, fun size hsize => ?_⟩⟩
      · rw [hfalse] at htrue
        cases htrue
      · exact (Option.some.inj (hzero.symm.trans hsize)).symm
    | some data =>
      rw [hkept] at hwhole
      obtain ⟨-, kept, size, hkeptOutput, hsize, hlen, hfront⟩ := hwhole
      obtain ⟨hresult, hdata, -, hroom⟩ := encodeJpeg_eq_some.1 hkept
      have hdata : (stbi source width height quality).written = data := hdata
      refine ⟨fun _ => ⟨source, kept, size, rfl, ?_, hkeptOutput, hsize, ?_, ?_⟩, ?_⟩
      · exact of_decide_eq_true hresult
      · rw [hlen]
        exact hroom
      · rw [hfront, hdata]
      · rintro _ ⟨⟩ hlong
        rw [hdata] at hlong
        omega
  · refine ⟨r, hrun, fun htrue => ?_, fun _ _ _ => ⟨hfalse, hzero⟩⟩
    rw [hfalse] at htrue
    cases htrue

end RetroLens.Core.JpegSink
