import RetroLens.Store.Settings
import Mathlib.Algebra.BigOperators.Group.Finset.Basic
import Mathlib.Algebra.Order.BigOperators.Group.Finset
import Mathlib.Data.Int.Interval

/-!
# Reading the settings back

Whatever `settings.cfg` holds, `loadSettings` gives settings in their ranges;
what `saveSettings` prints for settings in their ranges, `loadSettings` reads
back field by field.
-/

namespace RetroLens.Store

open Text Disk RetroLens.Core

/-! ## Ranges -/

structure Adjustments.InRange (a : Adjustments) : Prop where
  contrast : -40 ≤ a.contrast ∧ a.contrast ≤ 40
  grain : -20 ≤ a.grain ∧ a.grain ≤ 20
  motion : -30 ≤ a.motion ∧ a.motion ≤ 30

/-- Settings in their ranges. -/
structure RuntimeSettings.InRange (s : RuntimeSettings) : Prop where
  selectedPreset : InCatalogue s.selectedPreset
  intensity : 0 ≤ s.intensity ∧ s.intensity ≤ 100
  motion : 0 ≤ s.motion ∧ s.motion ≤ 2
  recent : ∀ i ∈ s.recent, InCatalogue i
  recentCount : s.recent.length ≤ kRecentPresetCount
  adjustments : ∀ i, (s.adjustments i).InRange

theorem clamp_range {lo hi z : Int} (h : lo ≤ hi) : lo ≤ clamp lo hi z ∧ clamp lo hi z ≤ hi := by
  unfold clamp
  omega

theorem adjustments_default_range : Adjustments.InRange {} :=
  ⟨by decide, by decide, by decide⟩

theorem clampedAdjustments_range (contrast grain motion : Int) :
    (clampedAdjustments contrast grain motion).InRange :=
  ⟨clamp_range (by decide), clamp_range (by decide), clamp_range (by decide)⟩

theorem recentIds_range (n : Nat) (cursor : Bytes) {recent : List Int}
    (hr : ∀ i ∈ recent, InCatalogue i) (hl : recent.length ≤ kRecentPresetCount) :
    (∀ i ∈ recentIds n cursor recent, InCatalogue i) ∧
      (recentIds n cursor recent).length ≤ kRecentPresetCount := by
  induction n generalizing cursor recent with
  | zero => exact ⟨hr, hl⟩
  | succ n ih =>
    have hadd : ∀ id, ∀ i ∈ recent ++ [findPreset id], InCatalogue i := fun id i hi => by
      rcases List.mem_append.1 hi with hi | hi
      · exact hr i hi
      · obtain rfl := List.mem_singleton.1 hi
        exact findPreset_range id
    unfold recentIds
    split
    · exact ⟨hr, hl⟩
    · rename_i h
      have hlen : ∀ id, (recent ++ [findPreset id]).length ≤ kRecentPresetCount := fun id => by
        rw [not_or] at h
        simp only [List.length_append, List.length_cons, List.length_nil]
        omega
      split
      · exact ⟨hadd _, hlen _⟩
      · exact ih _ (hadd _) (hlen _)

/-- What a line of the file keeps; the numbers that it sets are checked at the end. -/
structure RuntimeSettings.Loading (s : RuntimeSettings) : Prop where
  selectedPreset : InCatalogue s.selectedPreset
  recent : ∀ i ∈ s.recent, InCatalogue i
  recentCount : s.recent.length ≤ kRecentPresetCount
  adjustments : ∀ i, (s.adjustments i).InRange

theorem loadLine_loading {s : RuntimeSettings} (h : s.Loading) (line : Bytes) :
    (loadLine s line).Loading := by
  unfold loadLine
  dsimp only
  split
  · exact ⟨findPreset_range _, h.recent, h.recentCount, h.adjustments⟩
  split
  · exact ⟨h.selectedPreset, h.recent, h.recentCount, h.adjustments⟩
  split
  · exact ⟨h.selectedPreset, h.recent, h.recentCount, h.adjustments⟩
  split
  · exact ⟨h.selectedPreset, h.recent, h.recentCount, h.adjustments⟩
  split
  · exact ⟨h.selectedPreset, h.recent, h.recentCount, h.adjustments⟩
  split
  · exact ⟨h.selectedPreset, h.recent, h.recentCount, h.adjustments⟩
  split
  · rename_i v _
    obtain ⟨h1, h2⟩ := recentIds_range v.length v h.recent h.recentCount
    exact ⟨h.selectedPreset, h1, h2, h.adjustments⟩
  split
  · split
    · exact h
    · rename_i preset contrast grain motion _
      refine ⟨h.selectedPreset, h.recent, h.recentCount, fun i => ?_⟩
      by_cases hi : i = findPreset preset
      · subst hi
        dsimp only
        rw [Function.update_self]
        exact clampedAdjustments_range contrast grain motion
      · dsimp only
        rw [Function.update_of_ne hi]
        exact h.adjustments i
  · exact h

theorem loadLines_loading {s : RuntimeSettings} (h : s.Loading) (lines : List Bytes) :
    (lines.foldl loadLine s).Loading := by
  induction lines generalizing s with
  | nil => exact h
  | cons line lines ih => exact ih (loadLine_loading h line)

theorem loading_default : RuntimeSettings.Loading {} where
  selectedPreset := by decide
  recent _ h := by cases h
  recentCount := by decide
  adjustments _ := adjustments_default_range

/-- **Whatever the file holds, loading gives settings in their ranges.** -/
theorem loadSettings_range {card : Card Path} {s : RuntimeSettings}
    (h : loadSettings card = some s) : s.InRange := by
  obtain ⟨data, -, rfl⟩ := Option.map_eq_some_iff.1 h
  have hl := loadLines_loading loading_default (fgets 256 data)
  refine ⟨hl.selectedPreset, ?_, ?_, hl.recent, hl.recentCount, hl.adjustments⟩
  · dsimp only
    split <;> omega
  · dsimp only
    split <;> omega

/-! ## The lines of the file -/

/-- The ids of a `recent=` line. -/
def recentText (recent : List Int) : Bytes :=
  List.intercalate (ascii ",") ((recent.take kRecentPresetCount).map fun i => (presetAt i).id)

/-- What an `adjust=` line says. -/
def adjustText (preset : Int) (a : Adjustments) : Bytes :=
  (presetAt preset).id ++ 44 :: (decimal a.contrast ++ 44 :: (decimal a.grain ++
    44 :: decimal a.motion))

/-- The `adjust=` lines of the first `n` presets. -/
def adjustLines (adjustments : Int → Adjustments) (n : Nat) : List Bytes :=
  (List.range n).flatMap fun i : Nat =>
    if adjustments i = {} then [] else [ascii "adjust=" ++ adjustText i (adjustments i)]

/-- The lines of the settings, without their line ends. -/
def settingsLines (s : RuntimeSettings) : List Bytes :=
  [ascii "version=2", ascii "preset=" ++ (presetAt s.selectedPreset).id,
    ascii "intensity=" ++ decimal s.intensity,
    ascii "favorites_lo=" ++ hex s.favoritesLo.toNat,
    ascii "favorites_hi=" ++ hex s.favoritesHi.toNat,
    ascii "motion=" ++ decimal s.motion,
    ascii "diagnostics=" ++ (if s.diagnostics then [49] else [48]),
    ascii "recent=" ++ recentText s.recent] ++ adjustLines s.adjustments presets.length

theorem adjustments_eq_default {a : Adjustments} :
    a = {} ↔ ¬ (a.contrast ≠ 0 ∨ a.grain ≠ 0 ∨ a.motion ≠ 0) := by
  constructor
  · rintro rfl
    decide
  · intro h
    obtain ⟨c, g, m⟩ := a
    have h0 : c = 0 ∧ g = 0 ∧ m = 0 := by
      dsimp only at h
      omega
    obtain ⟨rfl, rfl, rfl⟩ := h0
    rfl

theorem ascii_comma : ascii "," = [44] := by decide +kernel

theorem adjustLines_text (adjustments : Int → Adjustments) (n : Nat) :
    ((List.range n).flatMap fun i : Nat => adjustLine i (adjustments i)) =
      (adjustLines adjustments n).flatMap (· ++ [10]) := by
  rw [adjustLines, List.flatMap_assoc]
  refine List.flatMap_congr fun i _ => ?_
  unfold adjustLine
  split
  · rename_i h
    rw [if_neg fun h0 => adjustments_eq_default.1 h0 h]
    simp [adjustText, ascii_comma]
  · rename_i h
    rw [if_pos (adjustments_eq_default.2 h)]
    rfl

theorem settingsText_lines (s : RuntimeSettings) :
    settingsText s = (settingsLines s).flatMap (· ++ [10]) := by
  have h1 : ascii "version=2\npreset=" = ascii "version=2" ++ 10 :: ascii "preset=" := by
    decide +kernel
  have h2 : ascii "\nintensity=" = 10 :: ascii "intensity=" := by decide +kernel
  have h3 : ascii "\nfavorites_lo=" = 10 :: ascii "favorites_lo=" := by decide +kernel
  have h4 : ascii "\nfavorites_hi=" = 10 :: ascii "favorites_hi=" := by decide +kernel
  have h5 : ascii "\nmotion=" = 10 :: ascii "motion=" := by decide +kernel
  have h6 : ascii "\ndiagnostics=" = 10 :: ascii "diagnostics=" := by decide +kernel
  have h7 : ascii "\nrecent=" = 10 :: ascii "recent=" := by decide +kernel
  simp only [settingsText, h1, h2, h3, h4, h5, h6, h7, adjustLines_text, settingsLines, recentText,
    List.flatMap_cons, List.append_assoc, List.cons_append, List.nil_append]

/-- No zero byte and no line end: a text that stands on one line. -/
def LineText (l : Bytes) : Prop := ∀ c ∈ l, c ≠ 0 ∧ c ≠ 10 ∧ c ≠ 13

instance (l : Bytes) : Decidable (LineText l) := inferInstanceAs (Decidable (∀ c ∈ l, _))

theorem lineText_append {a b : Bytes} (ha : LineText a) (hb : LineText b) : LineText (a ++ b) :=
  fun c hc => (List.mem_append.1 hc).elim (ha c) (hb c)

theorem lineText_cons {d : UInt8} {b : Bytes} (hd : d ≠ 0 ∧ d ≠ 10 ∧ d ≠ 13) (hb : LineText b) :
    LineText (d :: b) := fun c hc => by
  rcases List.mem_cons.1 hc with rfl | hc
  · exact hd
  · exact hb c hc

theorem lineText_id (i : Int) : LineText (presetAt i).id := fun c hc => by
  obtain ⟨-, -, h10, h13, -, -, h0⟩ := (presetAt_id i).1 c hc
  exact ⟨h0, h10, h13⟩

theorem lineText_digits {l : Bytes} (h : ∀ c ∈ l, isHexDigit c = true) : LineText l :=
  fun c hc => by
    have hd := h c hc
    refine ⟨?_, ?_, ?_⟩ <;> rintro rfl <;> exact absurd hd (by decide)

theorem lineText_decimal (z : Int) : LineText (decimal z) := by
  have hnat : LineText (decimalNat z.natAbs) :=
    lineText_digits fun c hc => isHexDigit_of_isDigit (decimalNat_digits c hc)
  unfold decimal
  split
  · exact lineText_cons (by decide) hnat
  · exact hnat

theorem recentText_cons (i j : Int) (l : List Int) :
    List.intercalate (ascii ",") ((i :: j :: l).map fun i => (presetAt i).id) =
      (presetAt i).id ++ 44 :: List.intercalate (ascii ",") ((j :: l).map fun i => (presetAt i).id) := by
  simp [List.intercalate, ascii_comma]

theorem lineText_recent (recent : List Int) : LineText (recentText recent) := by
  unfold recentText
  generalize recent.take kRecentPresetCount = l
  induction l with
  | nil => exact fun c hc => by cases hc
  | cons i l ih =>
    cases l with
    | nil => simpa [List.intercalate] using lineText_id i
    | cons j l =>
      rw [recentText_cons]
      exact lineText_append (lineText_id i) (lineText_cons (by decide) ih)

theorem lineText_adjust (i : Int) (a : Adjustments) : LineText (adjustText i a) :=
  have hcomma : (44 : UInt8) ≠ 0 ∧ (44 : UInt8) ≠ 10 ∧ (44 : UInt8) ≠ 13 := by decide
  lineText_append (lineText_id i) (lineText_cons hcomma (lineText_append (lineText_decimal _)
    (lineText_cons hcomma (lineText_append (lineText_decimal _)
      (lineText_cons hcomma (lineText_decimal _))))))

/-! ## Reading one line -/

variable {s : RuntimeSettings} {v : Bytes}

/-- The reader sees the line that was printed. -/
theorem read_line {l : Bytes} (h : LineText l) : trimLine (cstring (l ++ [10])) = l := by
  have hcs : cstring (l ++ [10]) = l ++ [10] := by
    refine cstring_plain fun c hc => ?_
    rcases List.mem_append.1 hc with hc | hc
    · exact (h c hc).1
    · obtain rfl := List.mem_singleton.1 hc
      decide
  rw [hcs]
  refine trimLine_line fun c hc => ?_
  obtain ⟨-, h10, h13⟩ := h c hc
  simp [isNewline, h10, h13]

/-- The keys that carry a value, in the order in which the reader tries them. -/
def settingsKeys : List String :=
  ["preset=", "intensity=", "favorites_lo=", "favorites_hi=", "motion=", "diagnostics=", "recent=",
    "adjust="]

theorem settingsKeys_text :
    ∀ key ∈ settingsKeys, LineText (ascii key) ∧ (ascii key).length ≤ 13 := by decide +kernel

/-- No key begins with another. -/
theorem settingsKeys_apart :
    ∀ key ∈ settingsKeys, ∀ key' ∈ settingsKeys,
      key ≠ key' → ¬ (ascii key).isPrefixOf (ascii key') = true := by decide +kernel

theorem afterKey_self (key : String) : afterKey key (ascii key ++ v) = some v := by
  have h : (ascii key).isPrefixOf (ascii key ++ v) = true :=
    List.isPrefixOf_iff_prefix.2 (List.prefix_append _ _)
  rw [afterKey, if_pos h, List.drop_left]

theorem afterKey_other {key key' : String} (hkey : key ∈ settingsKeys) (hkey' : key' ∈ settingsKeys)
    (hne : key ≠ key') : afterKey key (ascii key' ++ v) = none := by
  have hno : ¬ (ascii key).isPrefixOf (ascii key' ++ v) = true := fun hp => by
    rcases List.prefix_or_prefix_of_prefix (List.isPrefixOf_iff_prefix.1 hp)
      (List.prefix_append _ _) with hp | hp
    · exact settingsKeys_apart key hkey key' hkey' hne (List.isPrefixOf_iff_prefix.2 hp)
    · exact settingsKeys_apart key' hkey' key hkey hne.symm (List.isPrefixOf_iff_prefix.2 hp)
  rw [afterKey, if_neg hno]

theorem read_key {key : String} (hkey : key ∈ settingsKeys) (hv : LineText v) :
    trimLine (cstring ((ascii key ++ v) ++ [10])) = ascii key ++ v :=
  read_line (lineText_append (settingsKeys_text key hkey).1 hv)

/-- The lines that `loadLine` knows. -/
inductive SettingsKey where
  | preset
  | intensity
  | favoritesLo
  | favoritesHi
  | motion
  | diagnostics
  | recent
  | adjust

abbrev SettingsKey.text : SettingsKey → String
  | .preset => "preset="
  | .intensity => "intensity="
  | .favoritesLo => "favorites_lo="
  | .favoritesHi => "favorites_hi="
  | .motion => "motion="
  | .diagnostics => "diagnostics="
  | .recent => "recent="
  | .adjust => "adjust="

/-- What the value behind the key is for. -/
def SettingsKey.set (s : RuntimeSettings) (v : Bytes) : SettingsKey → RuntimeSettings
  | .preset => { s with selectedPreset := findPreset v }
  | .intensity => { s with intensity := atoi v }
  | .favoritesLo => { s with favoritesLo := strtoullHex v }
  | .favoritesHi => { s with favoritesHi := strtoullHex v }
  | .motion => { s with motion := atoi v }
  | .diagnostics => { s with diagnostics := atoi v != 0 }
  | .recent => { s with recent := recentIds v.length v s.recent }
  | .adjust =>
    match scanAdjust v with
    | none => s
    | some (id, contrast, grain, motionAdjust) =>
      { s with
        adjustments := Function.update s.adjustments (findPreset id)
          (clampedAdjustments contrast grain motionAdjust) }

/-- **A line is read by its key**, wherever it stands in the order of the tests. -/
theorem loadLine_key (key : SettingsKey) (hv : LineText v) :
    loadLine s ((ascii key.text ++ v) ++ [10]) = key.set s v := by
  have hkey : key.text ∈ settingsKeys := by cases key <;> decide
  rw [loadLine, read_key hkey hv]
  cases key
  case adjust =>
    rcases hscan : scanAdjust v with _ | ⟨id, contrast, grain, motionAdjust⟩
    all_goals simp (disch := decide) only [SettingsKey.set, afterKey_self, afterKey_other, hscan]
  all_goals simp (disch := decide) only [SettingsKey.set, afterKey_self, afterKey_other]

theorem loadLine_version : loadLine s (ascii "version=2" ++ [10]) = s := by
  have hr := read_line (l := ascii "version=2") (by decide +kernel)
  have hkey : ∀ key ∈ settingsKeys, afterKey key (ascii "version=2") = none := by decide +kernel
  simp only [settingsKeys, List.forall_mem_cons] at hkey
  obtain ⟨h1, h2, h3, h4, h5, h6, h7, h8, -⟩ := hkey
  simp only [loadLine, hr, h1, h2, h3, h4, h5, h6, h7, h8]

/-! ## Reading the values -/

theorem id_ne_nil (i : Int) : (presetAt i).id ≠ [] := by
  have h : ∀ id ∈ presets.map (·.id), id ≠ [] := by decide +kernel
  exact h _ (List.mem_map_of_mem (presetAt_mem i))

/-- The ids that were printed with commas between them are read back one by one. -/
theorem recentIds_intercalate {l held : List Int} (hl : ∀ i ∈ l, InCatalogue i)
    (hroom : held.length + l.length ≤ kRecentPresetCount) {n : Nat} (hn : l.length ≤ n) :
    recentIds n (List.intercalate (ascii ",") (l.map fun i => (presetAt i).id)) held =
      held ++ l := by
  induction l generalizing held n with
  | nil => cases n <;> simp [recentIds, List.intercalate]
  | cons i l ih =>
    obtain ⟨m, rfl⟩ : ∃ m, n = m + 1 := ⟨n - 1, by simp at hn; omega⟩
    have hi := hl i (by simp)
    have hne := id_ne_nil i
    simp only [List.length_cons] at hroom hn
    have hbar : 44 ∉ (presetAt i).id := fun h => ((presetAt_id i).1 _ h).2.1 rfl
    cases l with
    | nil =>
      have hone : List.intercalate (ascii ",") ([i].map fun i => (presetAt i).id) =
          (presetAt i).id := by simp [List.intercalate]
      have hcut : cut 44 (presetAt i).id = none := cut_none hbar
      have hgo : ¬ ((presetAt i).id = [] ∨ kRecentPresetCount ≤ held.length) := by
        rintro (h | h)
        · exact hne h
        · omega
      rw [hone, recentIds, if_neg hgo]
      simp only [hcut, findPreset_presetAt hi.1 hi.2]
    | cons j l =>
      rw [recentText_cons, recentIds]
      have hgo : ¬ ((presetAt i).id ++ 44 :: List.intercalate (ascii ",")
          ((j :: l).map fun i => (presetAt i).id) = [] ∨ kRecentPresetCount ≤ held.length) := by
        rintro (h | h)
        · simp at h
        · omega
      have hrest := @ih (held ++ [i]) (fun x hx => hl x (by simp [hx]))
        (by simp at hroom ⊢; omega) m (by simp at hn ⊢; omega)
      rw [if_neg hgo]
      simp only [cut_append hbar, findPreset_presetAt hi.1 hi.2, hrest, List.append_assoc,
        List.singleton_append]

/-- A list of ids is at least as long as it has ids. -/
theorem recent_count (l : List Int) :
    l.length ≤ (List.intercalate (ascii ",") (l.map fun i => (presetAt i).id)).length := by
  induction l with
  | nil => exact Nat.zero_le _
  | cons i l ih =>
    have hid := List.length_pos_of_ne_nil (id_ne_nil i)
    cases l with
    | nil =>
      simp only [List.intercalate, List.map_cons, List.map_nil, List.intersperse_singleton,
        List.flatten_cons, List.flatten_nil, List.append_nil, List.length_cons, List.length_nil]
      omega
    | cons j l =>
      rw [recentText_cons, List.length_append, List.length_cons]
      simp only [List.length_cons] at ih ⊢
      omega

theorem scanAdjust_text {i : Int} {a : Adjustments} (ha : a.InRange) :
    scanAdjust (adjustText i a) = some ((presetAt i).id, a.contrast, a.grain, a.motion) := by
  have hcomma : 44 ∉ (presetAt i).id := fun h => ((presetAt_id i).1 _ h).2.1 rfl
  have hlen : (presetAt i).id.length ≤ 63 := (presetAt_id i).2.trans (by decide)
  have hdigit : ∀ (l : Bytes), ∀ c ∈ (44 :: l).head?, isDigit c = false := fun l c hc => by
    obtain rfl := Option.mem_some_iff.1 hc
    decide
  obtain ⟨hc, hg, hm⟩ := ha
  have h1 := @scanUntil_append _ _ _ (decimal a.contrast ++ 44 :: (decimal a.grain ++
    44 :: decimal a.motion)) hcomma (id_ne_nil i) hlen
  have h2 := scanInt_decimal (z := a.contrast) (by omega) (by omega)
    (hdigit (decimal a.grain ++ 44 :: decimal a.motion))
  have h3 := scanInt_decimal (z := a.grain) (by omega) (by omega) (hdigit (decimal a.motion))
  have h4 := @scanInt_decimal a.motion (by omega) (by omega) [] (by simp)
  rw [List.append_nil] at h4
  simp [scanAdjust, adjustText, h1, h2, h3, h4, scanChar]

/-! ## The buffer is long enough -/

theorem hex_length (n : UInt64) : (hex n.toNat).length ≤ 16 := by
  have hn := n.toNat_lt
  unfold hex
  split
  · decide
  · rw [List.length_map, List.length_reverse, Nat.digits_length_le_iff (by decide)]
    omega

/-- What an id is longer than sixteen bytes. -/
def excess (i : Int) : Nat := (presetAt i).id.length - 16

theorem recent_excess {l : List Int} (hl : ∀ i ∈ l, InCatalogue i) (hd : l.Nodup) :
    (l.map excess).sum ≤ 35 := by
  have hsub : l.toFinset ⊆ Finset.Ico 0 presetCount := fun i hi => by
    rw [Finset.mem_Ico]
    exact hl i (List.mem_toFinset.1 hi)
  have hall : (Finset.Ico 0 presetCount).sum excess = 35 := by decide +kernel
  rw [← List.sum_toFinset excess hd, ← hall]
  exact Finset.sum_le_sum_of_subset hsub

theorem recent_length (l : List Int) :
    (List.intercalate (ascii ",") (l.map fun i => (presetAt i).id)).length ≤
      17 * l.length + (l.map excess).sum - 1 := by
  induction l with
  | nil => simp [List.intercalate]
  | cons i l ih =>
    have hid : (presetAt i).id.length ≤ 16 + excess i := by
      unfold excess
      omega
    cases l with
    | nil =>
      simp only [List.intercalate, List.map_cons, List.map_nil, List.intersperse_singleton,
        List.flatten_cons, List.flatten_nil, List.append_nil, List.length_cons, List.length_nil,
        List.sum_cons, List.sum_nil]
      omega
    | cons j l =>
      rw [recentText_cons, List.length_append, List.length_cons]
      simp only [List.map_cons, List.sum_cons, List.length_cons] at ih ⊢
      omega

/-- **Twelve different presets fit the reader's line.** -/
theorem recentText_length {l : List Int} (hl : ∀ i ∈ l, InCatalogue i) (hd : l.Nodup) :
    (recentText l).length ≤ 238 := by
  have htake : (l.take kRecentPresetCount).length ≤ 12 := List.length_take_le ..
  have hx := recent_excess (fun i hi => hl i (List.mem_of_mem_take hi))
    (hd.sublist (List.take_sublist kRecentPresetCount l))
  have h := recent_length (l.take kRecentPresetCount)
  unfold recentText
  omega

/-- Settings in the ranges of their fields. -/
structure RuntimeSettings.Valid (s : RuntimeSettings) : Prop where
  selectedPreset : InCatalogue s.selectedPreset
  intensity : 0 ≤ s.intensity ∧ s.intensity ≤ 100
  motion : 0 ≤ s.motion ∧ s.motion ≤ 2
  recent : ∀ i ∈ s.recent, InCatalogue i
  recentCount : s.recent.length ≤ kRecentPresetCount
  adjustments : ∀ i, InCatalogue i → (s.adjustments i).InRange

/-- Settings that come back: in their ranges, and the recent list fits the line that
`loadSettings` reads it with. -/
structure RuntimeSettings.Savable (s : RuntimeSettings) : Prop extends s.Valid where
  recentFits : (recentText s.recent).length ≤ 247

/-- A switch is one digit, and is read back as it was. -/
theorem flag_text (d : Bool) :
    LineText (if d then [49] else [48]) ∧ (if d then [49] else [48] : Bytes).length = 1 ∧
      (atoi (if d then [49] else [48]) != 0) = d := by
  cases d <;> decide +kernel

theorem natCast_inCatalogue {i : Nat} (h : i < presets.length) : InCatalogue i := by
  unfold InCatalogue presetCount
  omega

theorem adjustLines_fit {adjustments : Int → Adjustments} {n : Nat}
    (h : ∀ i : Nat, i < n → (adjustments (i : Int)).InRange) :
    ∀ l ∈ adjustLines adjustments n, 10 ∉ l ∧ l.length + 2 ≤ 256 := by
  intro l hl
  obtain ⟨i, hi, hl⟩ := List.mem_flatMap.1 hl
  split at hl
  · cases hl
  obtain rfl := List.mem_singleton.1 hl
  obtain ⟨hc, hg, hm⟩ := h i (List.mem_range.1 hi)
  have hkey := settingsKeys_text "adjust=" (by decide)
  refine ⟨fun h10 => (lineText_append hkey.1 (lineText_adjust _ _) _ h10).2.1 rfl, ?_⟩
  have h0 := (presetAt_id i).2
  have hnum : ∀ z : Int, -40 ≤ z ∧ z ≤ 40 → (decimal z).length ≤ 3 := fun z hz =>
    decimal_length_le (by decide) (by omega)
  have h1 := hnum (adjustments i).contrast hc
  have h2 := hnum (adjustments i).grain (by omega)
  have h3 := hnum (adjustments i).motion (by omega)
  simp only [adjustText, List.length_append, List.length_cons]
  omega

/-- Every line of the file fits the reader's buffer. -/
theorem settingsLines_fit {s : RuntimeSettings} (h : s.Savable) :
    ∀ l ∈ settingsLines s, 10 ∉ l ∧ l.length + 2 ≤ 256 := by
  have hfit : ∀ {key : String} {v : Bytes}, LineText (ascii key) ∧ (ascii key).length ≤ 13 →
      LineText v → v.length ≤ 241 →
      10 ∉ ascii key ++ v ∧ (ascii key ++ v).length + 2 ≤ 256 := fun hk hv hl => by
    refine ⟨fun h10 => (lineText_append hk.1 hv _ h10).2.1 rfl, ?_⟩
    rw [List.length_append]
    omega
  have hnum : ∀ {z : Int}, 0 ≤ z ∧ z ≤ 100 → (decimal z).length ≤ 4 := fun hz =>
    decimal_length_le (by decide) (by omega)
  have hkeys := settingsKeys_text
  simp only [settingsKeys, List.forall_mem_cons] at hkeys
  obtain ⟨hk1, hk2, hk3, hk4, hk5, hk6, hk7, -⟩ := hkeys
  have hrecent : (ascii "recent=").length = 7 := by decide +kernel
  have hversion : 10 ∉ ascii "version=2" ∧ (ascii "version=2").length + 2 ≤ 256 := by
    decide +kernel
  have hid := (presetAt_id s.selectedPreset).2
  have hint := hnum h.intensity
  have hmotion := hnum (z := s.motion) ⟨h.motion.1, by have := h.motion.2; omega⟩
  have hlo := hex_length s.favoritesLo
  have hhi := hex_length s.favoritesHi
  intro l hl
  rcases List.mem_append.1 hl with hl | hl
  · simp only [List.mem_cons, List.not_mem_nil, or_false] at hl
    rcases hl with rfl | rfl | rfl | rfl | rfl | rfl | rfl | rfl
    · exact hversion
    · exact hfit hk1 (lineText_id _) (by omega)
    · exact hfit hk2 (lineText_decimal _) (by omega)
    · exact hfit hk3 (lineText_digits hex_digits) (by omega)
    · exact hfit hk4 (lineText_digits hex_digits) (by omega)
    · exact hfit hk5 (lineText_decimal _) (by omega)
    · obtain ⟨htext, hlen, -⟩ := flag_text s.diagnostics
      exact hfit hk6 htext (by omega)
    · refine ⟨fun h10 => (lineText_append hk7.1 (lineText_recent _) _ h10).2.1 rfl, ?_⟩
      have := h.recentFits
      rw [List.length_append, hrecent]
      omega
  · exact adjustLines_fit (fun i hi => h.adjustments i (natCast_inCatalogue hi)) l hl

/-! ## The round trip -/

/-- The same settings, field by field; the arrays have one place for each preset. -/
structure RuntimeSettings.Same (a b : RuntimeSettings) : Prop where
  selectedPreset : a.selectedPreset = b.selectedPreset
  intensity : a.intensity = b.intensity
  favorites : a.favoritesLo = b.favoritesLo ∧ a.favoritesHi = b.favoritesHi
  recent : a.recent = b.recent
  adjustments : ∀ i, InCatalogue i → a.adjustments i = b.adjustments i
  motion : a.motion = b.motion
  diagnostics : a.diagnostics = b.diagnostics

/-- The adjustments of the first `n` presets, and zeros elsewhere. -/
def firstAdjustments (adjustments : Int → Adjustments) (n : Nat) (i : Int) : Adjustments :=
  if 0 ≤ i ∧ i < n then adjustments i else {}

theorem firstAdjustments_succ (adjustments : Int → Adjustments) (n : Nat) :
    Function.update (firstAdjustments adjustments n) n (adjustments n) =
      firstAdjustments adjustments (n + 1) := by
  funext i
  by_cases hi : i = n
  · subst hi
    rw [Function.update_self, firstAdjustments, if_pos (by omega)]
  · rw [Function.update_of_ne hi]
    unfold firstAdjustments
    by_cases hn : 0 ≤ i ∧ i < n
    · rw [if_pos hn, if_pos (by omega)]
    · rw [if_neg hn, if_neg (by omega)]

/-- Reading the `adjust=` lines of the first `n` presets over zeros. -/
theorem loadLines_adjust {adjustments : Int → Adjustments} {n : Nat} (hn : n ≤ presets.length)
    (h : ∀ i : Nat, i < n → (adjustments (i : Int)).InRange) (s : RuntimeSettings) :
    (((adjustLines adjustments n).map (· ++ [10])).foldl loadLine
      { s with adjustments := fun _ => {} }) =
      { s with adjustments := firstAdjustments adjustments n } := by
  induction n with
  | zero =>
    have h0 : firstAdjustments adjustments 0 = fun _ => {} := by
      funext i
      rw [firstAdjustments, if_neg (by omega)]
    rw [h0]
    rfl
  | succ n ih =>
    have hcat := natCast_inCatalogue (i := n) (by omega)
    have hlast : adjustLines adjustments (n + 1) = adjustLines adjustments n ++
        (if adjustments n = {} then [] else [ascii "adjust=" ++ adjustText n (adjustments n)]) := by
      rw [adjustLines, List.range_succ, List.flatMap_append]
      simp [adjustLines]
    rw [hlast, List.map_append, List.foldl_append, ih (by omega) fun i hi => h i (by omega)]
    rw [← firstAdjustments_succ]
    split
    · rename_i hzero
      have hsame : Function.update (firstAdjustments adjustments n) n (adjustments n) =
          firstAdjustments adjustments n := by
        rw [hzero]
        refine Function.update_eq_self_iff.2 ?_
        rw [firstAdjustments, if_neg (by omega)]
      rw [hsame]
      rfl
    · obtain ⟨hc, hg, hm⟩ := h n (by omega)
      have hclamp : clampedAdjustments (adjustments n).contrast (adjustments n).grain
          (adjustments n).motion = adjustments n := by
        rw [clampedAdjustments, clamp_of_mem hc.1 hc.2, clamp_of_mem hg.1 hg.2,
          clamp_of_mem hm.1 hm.2]
      rw [List.map_cons, List.map_nil, List.foldl_cons, List.foldl_nil,
        loadLine_key .adjust (lineText_adjust _ _), SettingsKey.set,
        scanAdjust_text (h n (by omega))]
      dsimp only
      rw [findPreset_presetAt hcat.1 hcat.2, hclamp]

/-- What the lines of the settings say, read over the defaults. -/
theorem loadLines_settings {s : RuntimeSettings} (h : s.Savable) :
    ((settingsLines s).map (· ++ [10])).foldl loadLine {} =
      { s with adjustments := firstAdjustments s.adjustments presets.length } := by
  have hpreset := findPreset_presetAt h.selectedPreset.1 h.selectedPreset.2
  have hintensity := atoi_decimal (z := s.intensity) (by have := h.intensity; omega)
    (by have := h.intensity; omega)
  have hmotion := atoi_decimal (z := s.motion) (by have := h.motion; omega)
    (by have := h.motion; omega)
  obtain ⟨htext, -, hflag⟩ := flag_text s.diagnostics
  have htake : s.recent.take kRecentPresetCount = s.recent := List.take_of_length_le h.recentCount
  have hrecent : recentIds (recentText s.recent).length (recentText s.recent) [] = s.recent := by
    have hlen := recent_count s.recent
    rw [recentText, htake, recentIds_intercalate h.recent (by simpa using h.recentCount) hlen,
      List.nil_append]
  rw [settingsLines, List.map_append, List.foldl_append]
  simp only [List.map_cons, List.map_nil, List.foldl_cons, List.foldl_nil, loadLine_version,
    loadLine_key .preset (lineText_id _), loadLine_key .intensity (lineText_decimal _),
    loadLine_key .favoritesLo (lineText_digits hex_digits),
    loadLine_key .favoritesHi (lineText_digits hex_digits),
    loadLine_key .motion (lineText_decimal _), loadLine_key .diagnostics htext,
    loadLine_key .recent (lineText_recent _), SettingsKey.set, hpreset, hintensity, hmotion,
    strtoullHex_hex, hflag, hrecent]
  exact loadLines_adjust le_rfl (fun i hi => h.adjustments i (natCast_inCatalogue hi)) s

/-- **Settings that fit their lines are read back as they were saved.** -/
theorem loadSettings_settingsText {card : Card Path} {s : RuntimeSettings} (h : s.Savable)
    (hc : card settingsPath = some (settingsText s)) :
    ∃ r, loadSettings card = some r ∧ r.Same s := by
  have hi : ¬ (s.intensity < 0 ∨ s.intensity > 100) := by
    have := h.intensity
    omega
  have hm : ¬ (s.motion < 0 ∨ s.motion > 2) := by
    have := h.motion
    omega
  have hlines : (fgets 256 (settingsText s)).foldl loadLine {} =
      { s with adjustments := firstAdjustments s.adjustments presets.length } := by
    rw [settingsText_lines, fgets_lines (settingsLines_fit h), loadLines_settings h]
  refine ⟨_, by rw [loadSettings, hc, Option.map_some, hlines], ?_⟩
  dsimp only
  rw [if_neg hi, if_neg hm]
  refine ⟨rfl, rfl, ⟨rfl, rfl⟩, rfl, fun i hcat => ?_, rfl, rfl⟩
  dsimp only
  rw [firstAdjustments, if_pos (show 0 ≤ i ∧ i < (presets.length : Int) from hcat)]

theorem saveSettings_card {f : FilePlan} {s : RuntimeSettings} {w : CardWorld}
    (h : (saveSettings f s w).1 = true) :
    (saveSettings f s w).2.card settingsPath = some (settingsText s) := by
  obtain ⟨hfst, -, hdone, -⟩ := replaceText_spec f settingsPath (settingsText s) w
  have hreplaced := hdone (hfst ▸ h)
  have hcard := hreplaced.card
  change (replaceText f settingsPath (settingsText s) w).2.card settingsPath = _
  rw [hcard, Function.update_self]

/-- **What `saveSettings` wrote, `loadSettings` reads back**, one whole line with each `fgets`. -/
theorem settings_reread {f : FilePlan} {s : RuntimeSettings} {w : CardWorld} (h : s.Valid)
    (hd : s.recent.Nodup) (hsaved : (saveSettings f s w).1 = true) :
    (∀ line ∈ fgets 256 (settingsText s), line.getLast? = some 10) ∧
      ∃ r, loadSettings (saveSettings f s w).2.card = some r ∧ r.Same s := by
  have hsavable : s.Savable := ⟨h, (recentText_length h.recent hd).trans (by decide)⟩
  refine ⟨fun line hline => ?_, loadSettings_settingsText hsavable (saveSettings_card hsaved)⟩
  rw [settingsText_lines, fgets_lines (settingsLines_fit hsavable)] at hline
  obtain ⟨l, -, rfl⟩ := List.mem_map.1 hline
  simp

/-- The twelve presets of the longest ids. -/
def longestRecent : List Int := [62, 38, 25, 67, 66, 40, 39, 18, 20, 4, 21, 60]

/-- The twelve longest ids in the recent list, and every preset adjusted. -/
def fullSettings : RuntimeSettings :=
  { selectedPreset := 69, intensity := 5, favoritesLo := 255, favoritesHi := 1
    recent := longestRecent, adjustments := fun _ => ⟨-40, 20, -30⟩ }

/-- The bound is met. -/
example : (recentText longestRecent).length = 238 := by decide +kernel

theorem fullSettings_valid : fullSettings.Valid where
  selectedPreset := by decide
  intensity := by decide
  motion := by decide
  recent := by decide +kernel
  recentCount := by decide
  adjustments _ _ := show Adjustments.InRange ⟨-40, 20, -30⟩ from
    ⟨by decide, by decide, by decide⟩

theorem settings_reread_full :
    ∃ r, loadSettings (saveSettings {} fullSettings { card := fun _ => none }).2.card = some r ∧
      r.Same fullSettings :=
  (settings_reread (f := {}) (w := { card := fun _ => none }) fullSettings_valid (by decide)
    ((replaceText_spec ..).1.trans rfl)).2

end RetroLens.Store
