import RetroLens.Core.FilterRun
import RetroLens.Worker.Styles

/-!
# Filtering within int

`processFrame` with an adjusted preset of the catalogue: no operation of a run
overflows and no read or write is out of its image, unless a displacement moves
a coordinate out of `int`. The narrowing of the timestamp to `int` can also
tear rows that the whole timestamp would leave alone.
-/

namespace RetroLens.Core

open Checked

/-! ## Room for the displacements -/

namespace FilterArgs

/-- The displaced coordinates are values of `int`. -/
structure Roomy (a : FilterArgs) : Prop where
  rows : a.height + a.jitterY ≤ 2147483648
  columns : ∀ y < a.height,
    a.width + a.jitterX ≤ 2147483648 ∧ a.width + a.jitterX + a.tearAt y ≤ 2147483648
  phase : a.has fxTear → a.height + a.phase ≤ 2147483648

variable {a : FilterArgs}

theorem jitterX_range : -3 ≤ a.jitterX ∧ a.jitterX ≤ 3 := by
  unfold jitterX
  split <;> omega

theorem jitterY_range : -2 ≤ a.jitterY ∧ a.jitterY ≤ 2 := by
  unfold jitterY
  split <;> omega

theorem tearAt_range (y : Nat) : -11 ≤ a.tearAt y ∧ a.tearAt y ≤ 11 := by
  unfold tearAt tear
  split <;> omega

theorem phase_range : -2147483648 ≤ a.phase ∧ a.phase ≤ 2147483647 := by
  have hlow := Int32.le_toInt (Int32.ofInt (a.timestampMs.toInt.tdiv 31))
  have hhigh := Int32.toInt_lt (Int32.ofInt (a.timestampMs.toInt.tdiv 31))
  unfold phase
  omega

/-- The last row and the last column decide. -/
theorem roomy_iff (ha : a.Valid) :
    (∀ y < a.height, a.RowFits a.jitterX a.jitterY (a.tearAt y) y) ↔ a.Roomy := by
  have hwidth := ha.width
  have hheight := ha.height
  have hx := jitterX_range (a := a)
  have hy := jitterY_range (a := a)
  have hphase := phase_range (a := a)
  constructor
  · intro h
    have hlast := h (a.height - 1) (by omega)
    refine ⟨?_, fun y hrow => ?_, fun htear => ?_⟩
    · have := hlast.row.2
      omega
    · obtain ⟨hcolumn, htorn⟩ := (h y hrow).columns (a.width - 1) (by omega)
      have := hcolumn.2
      have := htorn.2
      omega
    · have := (hlast.phase htear).2
      omega
  · intro h y hrow
    have hrows := h.rows
    have hcolumns := h.columns y hrow
    have htorn := tearAt_range (a := a) y
    refine ⟨⟨by omega, by omega⟩, fun htear => ?_, fun x hcolumn => ?_⟩
    · have := h.phase htear
      exact ⟨by omega, by omega⟩
    · exact ⟨⟨by omega, by omega⟩, by omega, by omega⟩

/-! ## The phase of the tears -/

/-- How often 2^32 goes into what the narrowing of `timestampMs / 31` drops. -/
def wraps (a : FilterArgs) : Int := (a.timestampMs.toInt / 31 + 2147483648) / 4294967296

/-- 2^32 is 42 modulo 47: each of the `wraps` moves the torn rows by 5. -/
def Punctual (a : FilterArgs) : Prop :=
  ∀ y < a.height, a.tearAt y ≠ 0 → a.wraps = 0 ∨ (y + a.phase + 42 * a.wraps) % 47 < 3

theorem phase_wraps (htime : 0 < a.timestampMs.toInt) :
    a.timestampMs.toInt / 31 = a.phase + 4294967296 * a.wraps := by
  unfold phase wraps
  rw [Int32.toInt_ofInt, Int.tdiv_eq_ediv_of_nonneg htime.le, Int.bmod_def, Int32.size]
  omega

/-- A row is torn in one of the first three phases, if nothing was dropped. -/
theorem tears_phase {y : Nat} (h : a.tearAt y ≠ 0) : ((y : Int) + a.phase).tmod 47 < 3 := by
  unfold tearAt tear at h
  split at h
  · rename_i htears
    simp only [tears, Bool.and_eq_true, decide_eq_true_eq] at htears
    exact htears.2
  · exact absurd rfl h

theorem punctual_iff (htime : 0 < a.timestampMs.toInt) :
    (∀ y < a.height, a.tearAt y ≠ 0 → ((y : Int) + a.timestampMs.toInt / 31) % 47 < 3) ↔
      a.Punctual := by
  have hphase := phase_wraps htime
  have htime' : 0 ≤ a.timestampMs.toInt / 31 := by omega
  constructor
  · intro h y hy htear
    have := h y hy htear
    exact .inr (by omega)
  · intro h y hy htear
    rcases h y hy htear with hzero | hlate
    · have hpicked := tears_phase htear
      rw [Int.tmod_eq_emod_of_nonneg (by omega)] at hpicked
      rw [hphase, hzero]
      omega
    · omega

end FilterArgs

/-- What `processFrame` promises of its accesses and of its tears. -/
structure FilterRun.Safe (run : FilterRun) (width height : Nat) (timestampMs : Int64) : Prop where
  once : (run.writes.map Prod.fst).Perm (List.range (width * height))
  torn : ∀ (y : Nat) (tear : Int), run.tears[y]? = some tear → tear ≠ 0 →
    ((y : Int) + timestampMs.toInt / 31) % 47 < 3

theorem whole_safe_iff {a : FilterArgs} (htime : 0 < a.timestampMs.toInt) :
    a.whole.Safe a.width a.height a.timestampMs ↔ a.Punctual := by
  rw [← FilterArgs.punctual_iff htime]
  have htears (y : Nat) (hy : y < a.height) : a.whole.tears[y]? = some (a.tearAt y) := by
    simp [FilterArgs.whole, hy]
  constructor
  · intro h y hy htear
    exact h.torn y _ (htears y hy) htear
  · refine fun h => ⟨.of_eq a.whole_writes.1, fun y tear hget htear => ?_⟩
    have hy : y < a.height := by
      obtain ⟨hlt, -⟩ := List.getElem?_eq_some_iff.1 hget
      simpa [FilterArgs.whole] using hlt
    rw [htears y hy] at hget
    cases hget
    exact h y hy htear

/-- A run is defined and safe when there is room and no tear is misplaced. -/
theorem output_safe_iff {a : FilterArgs} (ha : a.Valid) (htime : 0 < a.timestampMs.toInt) :
    (∃ run, Steps.output a = some run ∧ run.Safe a.width a.height a.timestampMs) ↔
      a.Roomy ∧ a.Punctual := by
  rw [Steps.output_eq ha, ← FilterArgs.roomy_iff ha, ← whole_safe_iff htime]
  constructor
  · rintro ⟨run, hrun, hsafe⟩
    split at hrun
    · rename_i hfits
      cases hrun
      exact ⟨hfits, hsafe⟩
    · cases hrun
  · rintro ⟨hfits, hsafe⟩
    exact ⟨_, if_pos hfits, hsafe⟩

/-- Until the 31st part of the time leaves `int`, only huge frames lack room. -/
theorem FilterArgs.early {a : FilterArgs} (htime : 0 < a.timestampMs.toInt)
    (hsize : a.width ≤ 2147483634 ∧ a.height ≤ 2147483646)
    (hearly : a.height + a.timestampMs.toInt / 31 ≤ 2147483648) : a.Roomy ∧ a.Punctual := by
  have hx := jitterX_range (a := a)
  have hy := jitterY_range (a := a)
  have hphase := phase_wraps htime
  refine ⟨⟨by omega, fun y _ => ?_, fun _ => ?_⟩, fun y hy _ => .inl ?_⟩
  · have htear := tearAt_range (a := a) y
    omega
  · have := phase_range (a := a)
    omega
  · unfold wraps
    omega

end RetroLens.Core

namespace RetroLens.Worker

open RetroLens.Core Store

/-! ## The catalogue -/

theorem presets_bounded : ∀ p ∈ presets,
    p.red.natAbs ≤ 130 ∧ p.green.natAbs ≤ 130 ∧ p.blue.natAbs ≤ 130 ∧ p.saturation.natAbs ≤ 100 ∧
      p.posterize.natAbs ≤ 8 ∧ p.pixelSize.natAbs ≤ 8 := by decide +kernel

theorem adjustedPreset_bounded (presetIndex : Int) (row : Adjustments) :
    (adjustedPreset presetIndex row).Bounded := by
  obtain ⟨hred, hgreen, hblue, hsaturation, hposterize, hsize⟩ :=
    presets_bounded _ (presetAt_mem presetIndex)
  have hclamp {value low : Int} (hlow : -100 ≤ low ∧ low ≤ 100) :
      (clampValue value low 100).natAbs ≤ 100 := by
    unfold clampValue
    split
    · omega
    · split <;> omega
  exact ⟨hred, hgreen, hblue, hsaturation, hclamp (by decide), hposterize, hclamp (by decide),
    hsize, hclamp (by decide)⟩

section

variable {source : List Pixel} {previous : Option (List Pixel)} {width height : Nat}
  (hwidth : 0 < width) (hheight : 0 < height) (hsize : width * height ≤ 2147483647)
  (hsource : source.length = width * height)
  (hprevious : ∀ image ∈ previous, image.length = width * height)
  (presetIndex : Int) (row : Adjustments) (intensity : Int) (seed : UInt32) (timestampMs : Int64)

include hwidth hheight hsize hsource hprevious in
theorem call_valid :
    (FilterArgs.ofCall source previous width height (adjustedPreset presetIndex row) intensity seed
      timestampMs).Valid := by
  refine ⟨adjustedPreset_bounded presetIndex row, ?_, hwidth, hheight, hsize, hsource, hprevious⟩
  simp only [FilterArgs.ofCall]
  split <;> split <;> omega

include hwidth hheight hsize hsource hprevious in
/-- **Filtering a frame is safe exactly when the displaced coordinates fit and every
torn row keeps its phase under the narrowing of the timestamp.** -/
theorem processFrame_safe_iff (htime : 0 < timestampMs.toInt) :
    let a := FilterArgs.ofCall source previous width height (adjustedPreset presetIndex row)
      intensity seed timestampMs
    (∃ run, Steps.output a = some run ∧ run.Safe width height timestampMs) ↔
      a.Roomy ∧ a.Punctual :=
  output_safe_iff
    (call_valid hwidth hheight hsize hsource hprevious presetIndex row intensity seed _) htime

end

theorem processFrame_safe_iff_frame :
    let image := List.replicate (80 * 60) ⟨10, 20, 30⟩
    let a := FilterArgs.ofCall image (some image) 80 60 (adjustedPreset 20 {}) 100 0x52455452 1000
    (∃ run, Steps.output a = some run ∧ run.Safe 80 60 1000) ↔ a.Roomy ∧ a.Punctual :=
  processFrame_safe_iff (by decide) (by decide) (by decide) List.length_replicate
    (fun _ h => Option.some.inj h ▸ List.length_replicate) 20 {} 100 0x52455452 1000 (by decide)

/-- After 770 days the narrowed time tears a row out of its phase: here the only one. -/
theorem late_row_torn :
    ¬ ∃ run, Steps.output (FilterArgs.ofCall [⟨10, 20, 30⟩] none 1 1 (adjustedPreset 20 {}) 100
      0x52455452 66571993088) = some run ∧ run.Safe 1 1 66571993088 := by
  have htears : (Steps.output (FilterArgs.ofCall [⟨10, 20, 30⟩] none 1 1 (adjustedPreset 20 {}) 100
      0x52455452 66571993088)).map FilterRun.tears = some [4] := by decide +kernel
  rintro ⟨run, hrun, hsafe⟩
  rw [hrun] at htears
  have hfirst := hsafe.torn 0 4 (congrArg (·[0]?) (Option.some.inj htears)) (by decide)
  revert hfirst
  decide

/-- The worker's frames are filtered safely for the first 770 days. -/
theorem frame_safe (source : Frame) (previous : Option Frame) (presetIndex : Int)
    (row : Adjustments) (intensity : Int) (seed : UInt32) {timestampMs : Int64}
    (htime : 0 < timestampMs.toInt) (hearly : timestampMs.toInt ≤ 66571991258) :
    ∃ run, Steps.output (FilterArgs.ofCall source.pixels (previous.map Frame.pixels) kFrameWidth
        kFrameHeight (adjustedPreset presetIndex row) intensity seed timestampMs) = some run ∧
      run.writes.map Prod.snd = (processFrame source previous (adjustedPreset presetIndex row)
        intensity seed timestampMs).pixels ∧ run.Safe kFrameWidth kFrameHeight timestampMs := by
  have hprevious : ∀ image ∈ previous.map Frame.pixels, image.length = kFrameWidth * kFrameHeight :=
    fun image h => by
      obtain ⟨frame, -, rfl⟩ := Option.mem_map.1 h
      exact frame.size
  have hvalid := call_valid (by decide) (by decide) (by decide) source.size hprevious presetIndex
    row intensity seed timestampMs
  have hsafe := (output_safe_iff hvalid htime).2 (FilterArgs.early htime
    ⟨show kFrameWidth ≤ _ by decide, show kFrameHeight ≤ _ by decide⟩ ?_)
  · obtain ⟨run, hrun, hsafe⟩ := hsafe
    have hwrites := (Steps.output_writes hvalid hrun).2
    exact ⟨run, hrun, hwrites.trans (processPixels_ofCall ..).symm, hsafe⟩
  · show (60 : Int) + timestampMs.toInt / 31 ≤ 2147483648
    omega

/-- The first second of a grey picture, in a style that draws noise. -/
theorem frame_safe_grey : ∃ run,
    Steps.output (FilterArgs.ofCall (Frame.filled ⟨10, 20, 30⟩).pixels none kFrameWidth
      kFrameHeight (adjustedPreset 20 {}) 100 0x52455452 1000) = some run ∧
    run.Safe kFrameWidth kFrameHeight 1000 := by
  have htime : 0 < (1000 : Int64).toInt ∧ (1000 : Int64).toInt ≤ 66571991258 := by decide
  obtain ⟨run, hrun, -, hsafe⟩ :=
    frame_safe (.filled ⟨10, 20, 30⟩) none 20 {} 100 0x52455452 htime.1 htime.2
  exact ⟨run, hrun, hsafe⟩

end RetroLens.Worker
