import RetroLens.Lib.Text

/-!
# The preset catalogue

`presets` is the table `kPresets` of the core, with the fields that selection,
the renderer and the photo store read.
-/

namespace RetroLens.Core

open Text

inductive Category where
  | handheld | computer | console | analogTV | tape | film
  | archive | print | digitalDecay | gameEra | experimental
  deriving DecidableEq, Repr, Inhabited

def fxMono : UInt16 := 1
def fxDither : UInt16 := 2
def fxScanlines : UInt16 := 4
def fxPixelate : UInt16 := 8
def fxTemporal : UInt16 := 16
def fxJitter : UInt16 := 32
def fxVignette : UInt16 := 64
def fxEdge : UInt16 := 128
def fxHalftone : UInt16 := 256
def fxThermal : UInt16 := 512
def fxCga : UInt16 := 1024
def fxInvert : UInt16 := 2048
def fxAscii : UInt16 := 4096
def fxTear : UInt16 := 8192
def fxBloom : UInt16 := 16384
def fxMask : UInt16 := 32768

structure Preset where
  id : Bytes
  category : Category
  flags : UInt16
  red : Int
  green : Int
  blue : Int
  saturation : Int
  contrast : Int
  posterize : Int
  noise : Int
  pixelSize : Int
  temporal : Int
  deriving DecidableEq, Repr, Inhabited

/-- The bits `fx` are set in `flags`. -/
def Preset.has (p : Preset) (fx : UInt16) : Bool := p.flags &&& fx != 0

def Preset.row (id : String) (category : Category) (flags : List UInt16)
    (red green blue saturation contrast posterize noise pixelSize temporal : Int) : Preset :=
  { id := ascii id, category, flags := flags.foldl (· ||| ·) 0, red, green, blue, saturation
    contrast, posterize, noise, pixelSize, temporal }

def presets : List Preset := [
  .row "olive_pocket" .handheld [fxMono, fxDither, fxPixelate, fxTemporal]
    72 95 48 (-100) 15 4 3 3 18,
  .row "silver_pocket" .handheld [fxMono, fxDither, fxTemporal] 90 98 110 (-100) 5 4 2 2 13,
  .row "virtual_red" .handheld [fxMono, fxScanlines, fxBloom] 130 20 22 (-100) 38 3 3 2 0,
  .row "dot_matrix_toy" .handheld [fxMono, fxPixelate, fxMask, fxTemporal]
    70 86 58 (-100) 20 3 2 5 28,
  .row "calculator_vision" .handheld [fxMono, fxPixelate, fxDither] 58 70 50 (-100) 42 2 1 5 0,
  .row "pocket_color" .handheld [fxDither, fxPixelate, fxMask] 100 102 92 (-12) 10 5 2 3 0,
  .row "one_bit_desktop" .computer [fxMono, fxDither, fxPixelate] 100 100 100 (-100) 55 2 0 2 0,
  .row "cga_shock" .computer [fxCga, fxPixelate, fxDither] 100 100 100 25 30 4 0 4 0,
  .row "ega_sixteen" .computer [fxDither, fxPixelate] 105 100 105 20 22 4 0 3 0,
  .row "vga_sixteen" .computer [fxDither, fxPixelate] 110 105 115 42 20 4 1 2 0,
  .row "amber_terminal" .computer [fxMono, fxScanlines, fxBloom, fxAscii]
    130 76 12 (-100) 28 5 2 4 0,
  .row "green_terminal" .computer [fxMono, fxScanlines, fxTemporal, fxBloom]
    25 125 48 (-100) 25 6 2 2 20,
  .row "teletext" .computer [fxCga, fxPixelate, fxAscii] 105 105 105 35 28 4 0 6 0,
  .row "ansi_camera" .computer [fxAscii, fxPixelate, fxDither] 108 104 100 25 25 6 1 5 0,
  .row "ascii_mono" .computer [fxAscii, fxMono, fxPixelate] 105 96 76 (-100) 34 6 0 5 0,
  .row "ascii_color" .computer [fxAscii, fxPixelate] 105 105 105 15 22 6 0 5 0,
  .row "braille_mosaic" .computer [fxMono, fxHalftone, fxPixelate] 92 104 82 (-100) 30 3 0 4 0,
  .row "eight_bit_summer" .console [fxDither, fxPixelate] 115 108 92 38 18 5 1 4 0,
  .row "sixteen_bit_arcade" .console [fxPixelate, fxEdge] 110 105 110 42 25 6 0 2 0,
  .row "arcade_cabinet" .console [fxPixelate, fxScanlines, fxMask, fxVignette]
    105 100 104 18 24 7 1 3 0,
  .row "composite_console" .console [fxTear, fxScanlines, fxTemporal] 108 96 105 15 8 8 3 1 12,
  .row "rf_channel_three" .console [fxTear, fxJitter, fxTemporal, fxScanlines]
    98 98 98 (-10) 20 7 18 1 18,
  .row "consumer_crt" .analogTV [fxScanlines, fxMask, fxVignette, fxBloom]
    105 100 103 12 16 8 2 1 0,
  .row "aperture_grille" .analogTV [fxScanlines, fxMask, fxBloom] 106 102 105 14 20 8 1 1 0,
  .row "shadow_mask" .analogTV [fxMask, fxScanlines, fxVignette] 101 98 100 5 10 8 1 1 0,
  .row "late_night_broadcast" .analogTV [fxScanlines, fxVignette] 110 98 106 35 32 8 7 1 0,
  .row "ntsc_composite" .analogTV [fxTear, fxScanlines, fxTemporal] 108 96 104 18 12 8 4 1 10,
  .row "pal_ghost" .analogTV [fxTemporal, fxScanlines, fxTear] 98 104 104 4 8 8 2 1 22,
  .row "secam_state_tv" .analogTV [fxTear, fxScanlines, fxVignette] 102 98 92 (-25) 18 7 6 1 0,
  .row "vhs_rental" .tape [fxTear, fxJitter, fxTemporal, fxScanlines] 108 98 90 (-8) 12 8 10 1 18,
  .row "damaged_vhs" .tape [fxTear, fxJitter, fxTemporal, fxScanlines] 102 92 90 (-28) 25 7 22 1 25,
  .row "video8_family" .tape [fxTemporal, fxBloom, fxVignette] 112 103 90 8 5 8 7 1 13,
  .row "hi8_vacation" .tape [fxJitter, fxScanlines, fxEdge] 112 108 96 20 18 8 5 1 0,
  .row "minidv_2002" .tape [fxEdge, fxMask] 96 104 114 5 30 8 3 2 0,
  .row "early_webcam" .tape [fxPixelate, fxTemporal, fxMask] 105 96 110 5 25 5 7 6 30,
  .row "cctv_1996" .tape [fxMono, fxScanlines, fxTemporal] 100 103 98 (-100) 28 6 8 1 10,
  .row "night_security" .tape [fxMono, fxScanlines, fxVignette, fxBloom]
    28 124 42 (-100) 22 6 20 1 0,
  .row "super_eight" .film [fxJitter, fxVignette, fxBloom, fxTemporal] 114 103 84 8 12 8 12 1 9,
  .row "sixteen_millimeter_news" .film [fxMono, fxJitter, fxEdge, fxVignette]
    104 100 86 (-80) 34 7 16 1 0,
  .row "soviet_archive_1978" .archive [fxMono, fxJitter, fxTemporal, fxVignette, fxTear]
    94 105 78 (-75) 24 6 18 1 22,
  .row "state_archive_color" .archive [fxJitter, fxTemporal, fxVignette]
    108 101 88 (-35) 0 7 9 1 12,
  .row "cosmonaut_tape" .archive [fxMono, fxTear, fxScanlines, fxMask] 72 92 110 (-70) 22 6 14 1 0,
  .row "expired_slide" .film [fxVignette] 116 94 112 (-12) (-5) 8 5 1 0,
  .row "bleach_bypass" .film [fxEdge, fxVignette] 105 102 96 (-65) 42 8 9 1 0,
  .row "cross_process" .film [fxVignette] 104 112 88 24 38 8 4 1 0,
  .row "orthochromatic" .film [fxMono, fxDither, fxVignette] 72 110 96 (-100) 26 7 8 1 0,
  .row "cyanotype" .print [fxMono, fxInvert, fxVignette] 20 80 122 (-100) 24 6 5 1 0,
  .row "newsprint" .print [fxMono, fxHalftone, fxDither] 96 94 88 (-100) 30 3 3 3 0,
  .row "cmyk_misprint" .print [fxHalftone, fxTear, fxDither] 106 98 92 18 18 5 4 2 0,
  .row "risograph" .print [fxCga, fxHalftone, fxTear] 108 92 96 8 25 4 8 2 0,
  .row "manga_screen" .print [fxMono, fxEdge, fxHalftone, fxInvert] 100 100 100 (-100) 44 3 2 2 0,
  .row "photocopier" .print [fxMono, fxEdge, fxDither] 100 100 98 (-100) 62 2 12 1 0,
  .row "thermal_receipt" .print [fxMono, fxDither, fxTear] 96 92 82 (-100) 38 2 7 2 0,
  .row "pencil_draft" .print [fxMono, fxEdge, fxInvert, fxDither] 100 100 100 (-100) 18 6 4 1 0,
  .row "comic_ink" .print [fxEdge, fxDither] 108 103 98 18 34 4 2 2 0,
  .row "jpeg_hell" .digitalDecay [fxPixelate, fxMask, fxTear] 108 94 106 (-12) 36 4 10 8 0,
  .row "databent_preview" .digitalDecay [fxTear, fxJitter, fxMask, fxTemporal]
    112 92 108 22 25 6 8 4 35,
  .row "frame_echo" .digitalDecay [fxTemporal, fxTear] 110 98 108 12 10 8 2 1 48,
  .row "signal_tear" .digitalDecay [fxTear, fxJitter] 110 96 108 18 24 7 8 1 0,
  .row "pixel_sort" .digitalDecay [fxTear, fxPixelate, fxEdge] 105 102 108 20 30 6 2 3 0,
  .row "piss_filter_2007" .gameEra [fxVignette, fxBloom, fxEdge] 112 102 55 (-28) 34 8 6 1 0,
  .row "brown_apocalypse" .gameEra [fxVignette, fxBloom] 108 82 58 (-48) 42 7 9 1 0,
  .row "teal_orange_blockbuster" .gameEra [fxVignette] 112 101 96 28 38 8 3 1 0,
  .row "green_code" .gameEra [fxVignette] 78 112 82 (-20) 36 7 5 1 0,
  .row "blue_scifi_2004" .gameEra [fxBloom, fxVignette] 86 104 120 (-8) 32 8 4 1 0,
  .row "bloom_shooter" .gameEra [fxBloom, fxEdge, fxVignette] 112 108 102 (-35) 18 8 4 1 0,
  .row "thermal_false_color" .experimental [fxThermal] 100 100 100 0 24 8 2 1 0,
  .row "infrared_false_color" .experimental [fxInvert, fxVignette] 72 120 105 35 25 8 3 1 0,
  .row "edge_scanner" .experimental [fxEdge, fxMono, fxScanlines, fxInvert]
    30 116 104 (-100) 45 5 3 1 0,
  .row "blueprint" .experimental [fxEdge, fxMono, fxInvert, fxMask] 25 78 120 (-100) 36 5 1 1 0]

def presetCount : Int := presets.length

def presetAt (index : Int) : Preset :=
  let index := if index < 0 then 0 else index
  let index := if index ≥ presetCount then presetCount - 1 else index
  presets.getD index.toNat default

def findPreset (id : Bytes) : Int :=
  match presets.findIdx? (·.id = id) with
  | some i => i
  | none => 0

/-! ## What selection relies on -/

theorem presetCount_eq : presetCount = 70 := by decide

/-- An index of the catalogue. -/
def InCatalogue (index : Int) : Prop := 0 ≤ index ∧ index < presetCount

instance (index : Int) : Decidable (InCatalogue index) := inferInstanceAs (Decidable (_ ∧ _))

theorem presetAt_mem (index : Int) : presetAt index ∈ presets := by
  have hlen : presets.length = 70 := by decide
  have hget : ∀ i : Nat, i < 70 → presets.getD i default ∈ presets := fun i hi => by
    rw [List.getD_eq_getElem?_getD, List.getElem?_eq_getElem (by rw [hlen]; exact hi)]
    exact List.getElem_mem _
  refine hget _ ?_
  rw [presetCount_eq]
  split <;> split <;> omega

/-- A plain word: no `|`, `,`, line end, dot, slash or zero byte, and short. -/
def PlainId (id : Bytes) : Prop :=
  (∀ c ∈ id, c ≠ 124 ∧ c ≠ 44 ∧ c ≠ 10 ∧ c ≠ 13 ∧ c ≠ 46 ∧ c ≠ 47 ∧ c ≠ 0) ∧ id.length ≤ 23

instance (id : Bytes) : Decidable (PlainId id) := inferInstanceAs (Decidable (_ ∧ _))

theorem presets_ids :
    (presets.map (·.id)).Nodup ∧ ∀ id ∈ presets.map (·.id), PlainId id := by decide +kernel

theorem presetAt_id (index : Int) : PlainId (presetAt index).id :=
  presets_ids.2 _ (List.mem_map_of_mem (presetAt_mem index))

theorem presetAt_of_range {index : Int} (h0 : 0 ≤ index) (h1 : index < presetCount) :
    presets[index.toNat]? = some (presetAt index) := by
  have hlt : index.toNat < presets.length := by
    simp only [presetCount] at h1
    omega
  have hi : ¬ index < 0 ∧ ¬ index ≥ presetCount := by omega
  simp only [presetAt, hi.1, hi.2, if_false]
  rw [List.getD_eq_getElem?_getD, List.getElem?_eq_getElem hlt]
  rfl

/-- Reading an id back finds the preset it was written for. -/
theorem findPreset_presetAt {index : Int} (h0 : 0 ≤ index) (h1 : index < presetCount) :
    findPreset (presetAt index).id = index := by
  have hget := presetAt_of_range h0 h1
  obtain ⟨hlt, hval⟩ := List.getElem?_eq_some_iff.1 hget
  have hfind : presets.findIdx? (·.id = (presetAt index).id) = some index.toNat := by
    refine List.findIdx?_eq_some_iff_getElem.2 ⟨hlt, by simp [hval], fun j hj => ?_⟩
    have hj' : j < (presets.map (·.id)).length := by rw [List.length_map]; omega
    have hi' : index.toNat < (presets.map (·.id)).length := by rwa [List.length_map]
    have hne : (presets.map (·.id))[j] ≠ (presets.map (·.id))[index.toNat] :=
      List.pairwise_iff_getElem.1 presets_ids.1 j index.toNat hj' hi' hj
    simpa [hval] using hne
  simp only [findPreset, hfind]
  omega

/-- An index outside the table selects its first or its last preset. -/
theorem presetAt_inRange (index : Int) :
    ∃ i, 0 ≤ i ∧ i < presetCount ∧ presetAt index = presetAt i := by
  have hpos := presetCount_eq
  by_cases h0 : index < 0
  · refine ⟨0, by omega, by omega, ?_⟩
    simp only [presetAt, h0, if_true, lt_self_iff_false, if_false]
  · by_cases h1 : index < presetCount
    · exact ⟨index, by omega, h1, rfl⟩
    · refine ⟨presetCount - 1, by omega, by omega, ?_⟩
      have h2 : ¬ presetCount - 1 < 0 ∧ ¬ presetCount - 1 ≥ presetCount ∧ index ≥ presetCount := by
        omega
      simp only [presetAt, h0, h2, if_false, if_true]

/-- The id that a preset index is stored by selects the same preset. -/
theorem presetAt_findPreset (index : Int) :
    (presetAt (findPreset (presetAt index).id)).id = (presetAt index).id := by
  obtain ⟨i, h0, h1, hi⟩ := presetAt_inRange index
  rw [hi, findPreset_presetAt h0 h1]

theorem findPreset_range (id : Bytes) : 0 ≤ findPreset id ∧ findPreset id < presetCount := by
  unfold findPreset
  split
  · rename_i i h
    have := (List.findIdx?_eq_some_iff_getElem.1 h).1
    have hlen : presets.length = 70 := by decide
    rw [presetCount_eq]
    omega
  · rw [presetCount_eq]
    omega

end RetroLens.Core
