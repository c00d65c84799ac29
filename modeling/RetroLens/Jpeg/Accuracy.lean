import Mathlib.Algebra.Order.Field.Rat
import Mathlib.Tactic.Linarith
import RetroLens.Jpeg.Encoded

/-!
# How near the samples are

The encoder rounds the first coefficient of a block to a multiple of its
quantization, and the decoder shifts an eighth of it. Together they move the
mean of a block by a sixteenth of the quantization and half a step at most
(`mean_near`), over the whole of a JPEG (`samples_near`).
-/

namespace RetroLens.Jpeg

open Text Checked Comps RetroLens.Core

/-- The encoder has rounded the first coefficients `first` of the blocks of an image to multiples of
their quantization. -/
structure Rounds (quality : Int) (units : Units) (first : Nat → Nat → Nat → ℚ) : Prop where
  small : ∀ y x i, Small (units y x i)
  range : ∀ y x i, -1024 ≤ first y x i ∧ first y x i ≤ 1020
  near : ∀ y x i c, (unitComps (subsampled quality))[i]? = some c →
    |(units y x i 0 * firstEntry quality c : ℚ) - first y x i| ≤ firstEntry quality c / 2

theorem clamp_toNat (b : Int) :
    ((clamp b).toNat : Int) = if b < 0 then 0 else if b > 255 then 255 else b := by
  unfold clamp
  by_cases hneg : b < 0
  · rw [if_pos hneg, if_pos hneg]
    rfl
  · rw [if_neg hneg, if_neg hneg]
    by_cases hbig : b > 255
    · rw [if_pos hbig, if_pos hbig]
      rfl
    · rw [if_neg hbig, if_neg hbig, UInt8.toNat_ofNat', Nat.mod_eq_of_lt (by omega)]
      omega

/-- **The mean of a block**, rounded by the encoder and by the decoder. -/
theorem mean_near {q : Nat} {coeff : Int} {d : ℚ} (hd : -1024 ≤ d ∧ d ≤ 1020)
    (h : |(coeff * q : ℚ) - d| ≤ q / 2) :
    |((mean q coeff).toNat : ℚ) - (128 + d / 8)| ≤ q / 16 + 1 / 2 := by
  generalize hx : coeff * (q : Int) = x
  have hxq : (coeff * q : ℚ) = x := by
    rw [← hx]
    push_cast
    rfl
  rw [hxq, abs_le] at h
  -- what the shift leaves, before it is clamped
  obtain ⟨v, hv⟩ : ∃ v : Int, v = (x + 4) >>> (3 : Nat) + 128 := ⟨_, rfl⟩
  have hshift : 8 * (v - 128) ≤ x + 4 ∧ x + 4 < 8 * (v - 128) + 8 := by
    rw [hv, Int.shiftRight_eq_div_pow]
    omega
  have hlow : (8 * (v - 128) : ℚ) ≤ x + 4 := by exact_mod_cast hshift.1
  have hhigh : (x + 4 : ℚ) < 8 * (v - 128) + 8 := by exact_mod_cast hshift.2
  have hmean : ((mean q coeff).toNat : Int) = if v < 0 then 0 else if v > 255 then 255 else v := by
    rw [mean, hx, ← hv, clamp_toNat]
  have hq : (0 : ℚ) ≤ q := Nat.cast_nonneg q
  have hcast : ((mean q coeff).toNat : ℚ) =
      ((if v < 0 then 0 else if v > 255 then 255 else v : Int) : ℚ) := by
    rw [← hmean]
    rfl
  rw [hcast, abs_le]
  by_cases hneg : v < 0
  · have hv1 : (v : ℚ) ≤ -1 := by exact_mod_cast Int.le_sub_one_of_lt hneg
    rw [if_pos hneg]
    push_cast
    constructor <;> linarith
  · rw [if_neg hneg]
    by_cases hbig : v > 255
    · have hv1 : (256 : ℚ) ≤ v := by exact_mod_cast hbig
      rw [if_pos hbig]
      push_cast
      constructor <;> linarith
    · rw [if_neg hbig]
      constructor <;> linarith

variable {s : Pico} {units : Units} {first : Nat → Nat → Nat → ℚ} {width height : Nat}
  {quality : Int} {jpeg : Bytes} {calls : List Call} {capacity : Nat}

theorem Rounds.quantized (h : Rounds quality units first) : Quantized quality units := by
  refine ⟨h.small, fun y x i c hc => ?_⟩
  have hlt : firstEntry quality c < 256 := UInt8.toNat_lt _
  have hq : (firstEntry quality c : ℚ) ≤ 255 := by exact_mod_cast Nat.le_of_lt_succ hlt
  have hnear := h.near y x i c hc
  have hrange := h.range y x i
  rw [abs_le] at hnear
  constructor
  · have hlow : (-2048 : ℚ) ≤ units y x i 0 * firstEntry quality c := by linarith
    exact_mod_cast hlow
  · have hhigh : (units y x i 0 * firstEntry quality c : ℚ) ≤ 2047 := by linarith
    exact_mod_cast hhigh

theorem means_getElem? (quality : Int) (DU : Nat → Nat → Int) (cs : List Nat) (k i : Nat) :
    (means quality DU cs k)[i]? =
      cs[i]?.map fun c => mean (firstEntry quality c) (DU (k + i) 0) := by
  induction cs generalizing k i with
  | nil => rfl
  | cons c cs ih =>
    cases i with
    | zero => rfl
    | succ i =>
      rw [means, List.getElem?_cons_succ, List.getElem?_cons_succ, ih, Nat.add_assoc,
        Nat.add_comm 1]

/-- **Every sample of a JPEG of the encoder is near the mean of its block**, within half a step and
a sixteenth of the quantization. -/
theorem samples_near (hrun : runCalls calls Pico.zeroed = .done () s)
    (hwidth : 1 ≤ width ∧ width ≤ maxSize) (hheight : 1 ≤ height ∧ height ≤ maxSize)
    (hrounds : Rounds quality units first)
    (hjpeg : encodeJpeg (stbiWriteJpgCore units width height quality) capacity = some jpeg) :
    ∃ s₀, pjpegDecodeInit (jpeg.length + 2) jpeg 1 s =
        .done ⟨width, height, scanTypeOf (subsampled quality)⟩ s₀ ∧
      ∀ k < mcusOf (subsampled quality) height * mcusOf (subsampled quality) width,
        ∃ cs s', samplesOf k s₀ = .done cs s' ∧
          ∀ i c, (unitComps (subsampled quality))[i]? = some c → ∃ b, cs[i]? = some b ∧
            |(b.toNat : ℚ) - (128 + first
                (k / mcusOf (subsampled quality) width * unitSize (subsampled quality))
                (k % mcusOf (subsampled quality) width * unitSize (subsampled quality)) i / 8)| ≤
              firstEntry quality c / 16 + 1 / 2 := by
  have hsafe : s.TablesSafe := (runCalls_reduced hrun).tables
  obtain ⟨s₀, hinit, hstarted, -, hat⟩ := encodeJpeg_accepted hwidth hheight hsafe hjpeg
  refine ⟨s₀, hinit, fun k hk => ?_⟩
  obtain ⟨s', hdone, -⟩ := hat.means hwidth.1 hheight.1 hrounds.quantized hstarted hk
  refine ⟨_, s', hdone, fun i c hc => ?_⟩
  refine ⟨_, ?_, mean_near (hrounds.range ..) (hrounds.near _ _ i c hc)⟩
  rw [means_getElem?, hc, Option.map_some, Nat.zero_add]
  rfl

theorem slopeUnits_rounds : Rounds 88 slopeUnits fun y x i => slope y x i := by
  refine ⟨slopeUnits_quantized.small, fun y x i => ?_, fun y x i c _ => ?_⟩
  · obtain ⟨-, -, hlow, hhigh⟩ := slopeUnits_first y x i
    have hlow' : (-999 : ℚ) ≤ slope y x i := by exact_mod_cast hlow
    have hhigh' : (slope y x i : ℚ) ≤ 993 := by exact_mod_cast hhigh
    constructor <;> linarith
  · obtain ⟨habove, hbelow, -⟩ := slopeUnits_first y x i
    have habove' : (4 * slopeUnits y x i 0 : ℚ) ≤ slope y x i + 2 := by exact_mod_cast habove
    have hbelow' : (slope y x i - 2 : ℚ) ≤ 4 * slopeUnits y x i 0 := by exact_mod_cast hbelow
    rw [firstEntry_photo, abs_le]
    push_cast
    constructor <;> linarith

theorem samples_near_slope : ∃ s₀ : Pico, ∀ k < 28, ∃ (cs : List UInt8) (s' : Pico),
    samplesOf k s₀ = .done cs s' ∧ ∀ i c : Nat, (unitComps true)[i]? = some c →
      ∃ b : UInt8, cs[i]? = some b ∧
        |(b.toNat : ℚ) - (128 + slope (k / 7 * 16) (k % 7 * 16) i / 8)| ≤ 3 / 4 := by
  obtain ⟨s, s₁, hrun, -⟩ := twoMcus_accepted
  obtain ⟨capacity, jpeg, hjpeg⟩ := @encodeJpeg_room 100 50 (by decide) (by decide) slopeUnits 88
  obtain ⟨s₀, -, hnear⟩ := samples_near hrun (by decide) (by decide) slopeUnits_rounds hjpeg
  refine ⟨s₀, fun k hk => ?_⟩
  obtain ⟨cs, s', hdone, hsamples⟩ := hnear k hk
  refine ⟨cs, s', hdone, fun i c hc => ?_⟩
  obtain ⟨b, hb, hbound⟩ := hsamples i c hc
  have hq : (firstEntry 88 c / 16 + 1 / 2 : ℚ) = 3 / 4 := by
    rw [firstEntry_photo]
    norm_num
  exact ⟨b, hb, hq ▸ hbound⟩

end RetroLens.Jpeg
