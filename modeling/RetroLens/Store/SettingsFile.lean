import RetroLens.Store.Opened
import RetroLens.Store.SettingsText
import RetroLens.Store.Transaction

/-!
# The settings file among the photos

Opening the store, saving a photo and deleting one leave `settings.cfg` as it
is: it lies in a directory of its own, and its name is not that of a temporary
file or of the write probe.
-/

namespace RetroLens.Store

open Text Disk RetroLens.Core

variable {n : Bytes} {s : PhotoStore} {w w' : CardWorld} {card card' : Card Path}

/-! ## Its path -/

theorem lastByte_settings : settingsPath.lastByte = some 103 := by decide

theorem settings_not_temporary : settingsPath ∉ temporaryPaths := by
  rintro ⟨q, hq⟩
  exact ne_of_lastByte lastByte_settings (lastByte_temporary q) (by decide) hq

theorem settings_ne_index : settingsPath ≠ indexPath := by decide

theorem settings_not_start : settingsPath ∉ startPaths := by
  simp [startPaths, lastByte_settings]

theorem settings_not_owned (n : Bytes) : settingsPath ∉ ownedPaths n := by
  have hdir : ∀ p ∈ ownedPaths n, p.dir ≠ .config := by
    rintro p (rfl | rfl | rfl)
    · exact fun h => by cases h
    · exact fun h => by cases h
    · exact fun h => by cases h
  exact fun h => hdir _ h rfl

theorem settings_not_written (n : Bytes) : settingsPath ∉ writeSet n :=
  fun h => h.elim (settings_not_owned n) settings_not_temporary

theorem settings_not_evicted (e : Entries) : settingsPath ∉ evictedPaths e := by
  rintro ⟨old, -, h⟩
  exact settings_not_owned _ h

theorem loadSettings_congr (h : card' settingsPath = card settingsPath) :
    loadSettings card' = loadSettings card := by
  rw [loadSettings, loadSettings, h]

theorem loadSettings_none : loadSettings card = none ↔ card settingsPath = none := by
  rw [loadSettings, Option.map_eq_none_iff]

/-! ## The calls -/

theorem Replaced.settings {data : Bytes} (h : Replaced indexPath data w w') :
    w'.card settingsPath = w.card settingsPath :=
  h.card_of settings_ne_index fun he => settings_not_temporary (he ▸ temporary_mem indexPath)

theorem saveIndex_settings (f : FilePlan) (s : PhotoStore) (w : CardWorld) :
    (saveIndex f s w).2.card settingsPath = w.card settingsPath := by
  obtain ⟨-, -, hdone, hfail⟩ := replaceText_spec f indexPath (indexText s.entries.list) w
  change (replaceText f indexPath (indexText s.entries.list) w).2.card settingsPath = _
  cases hr : (f.fopen.ok && f.replaces) with
  | true => exact (hdone hr).settings
  | false =>
    refine (hfail hr).1.card _ fun he => settings_not_temporary ?_
    exact Set.mem_singleton_iff.1 he ▸ temporary_mem indexPath

theorem savePhoto_settings (plan : SavePlan) (photo : Photo) (encodedCapacity : Int)
    (s : PhotoStore) (w : CardWorld) :
    (savePhoto plan photo encodedCapacity s w).2.2.card settingsPath = w.card settingsPath := by
  have hspec := savePhoto_spec plan photo encodedCapacity s w
  cases he : encodePhoto plan photo encodedCapacity s with
  | none => rw [(hspec.refused he).2.2]
  | some encoded =>
    obtain ⟨-, hw⟩ := hspec.wrote encoded he
    cases hwrites : plan.writes with
    | false =>
      rw [hwrites] at hw
      exact (hw.failed rfl).2.card _ (settings_not_written _)
    | true =>
      rw [hwrites] at hw
      obtain ⟨-, v, hv, -, hc⟩ := hw.done rfl
      exact (hc.card_of settings_not_temporary settings_ne_index (settings_not_evicted _)).trans
        (hv.card _ (settings_not_written _))

theorem deletePhoto_settings (plan : DeletePlan) (newestIndex : Int) (s : PhotoStore)
    (w : CardWorld) :
    (deletePhoto plan newestIndex s w).2.2.card settingsPath = w.card settingsPath := by
  have hspec := deletePhoto_spec plan newestIndex s w
  cases hk : s.entries.storageIndex newestIndex with
  | none => rw [hspec.refused hk]
  | some k =>
    cases hp : plan.index.prints with
    | false =>
      refine (hspec.failed k hk hp).2.2.card _ fun he => settings_not_temporary ?_
      exact Set.mem_singleton_iff.1 he ▸ temporary_mem indexPath
    | true =>
      obtain ⟨-, v, entry, hv, -, hw, -⟩ := hspec.done k hk hp
      exact (hw.card _ (settings_not_owned _)).trans hv.settings

/-- **Opening a store that gets Ready leaves the settings file alone.** -/
theorem initializeStore_settings {plan : InitPlan}
    (h : (initializeStore plan s w).1.storageState = .ready) :
    (initializeStore plan s w).2.card settingsPath = w.card settingsPath := by
  have hrebuild (s : PhotoStore) (u : CardWorld) :
      (rebuildIndex plan s u).2.2.card settingsPath = u.card settingsPath := by
    unfold rebuildIndex
    split
    · rfl
    · exact saveIndex_settings ..
  cases initializeStore_step plan s w with
  | stopped state entries =>
    rw [h] at state
    simp at state
  | loaded u within whole eq =>
    rw [eq]
    exact within.card _ settings_not_start
  | rebuilt u within corrupt saved eq =>
    rw [eq]
    exact (hrebuild _ u).trans (within.card _ settings_not_start)
  | unsaved u within corrupt eq =>
    rw [eq]
    exact (hrebuild _ u).trans (within.card _ settings_not_start)

end RetroLens.Store
