import RetroLens.Store.Names

/-!
# Paths in their buffers

Every `snprintf` with which the photo store builds a path or a name, each from
what the buffers before it hold. With a root of at most 511 bytes all of them
fit, and the buffers hold the paths of `Path` in full.
-/

namespace RetroLens.Store

open Text RetroLens.Core

/-! ## The prints -/

/-- A directory's name in its format. -/
def Dir.text : Dir → Bytes
  | .config => ascii "/CONFIG"
  | .photos => ascii "/PHOTOS"
  | .thumbnails => ascii "/THUMBNAILS"

namespace PhotoStore

variable (s : PhotoStore)

/-- `base_`. -/
def basePrint : Print := ⟨576, s.root ++ ascii "/RETROLENS"⟩

/-- `config_`, `photos_` and `thumbnails_`. -/
def dirPrint (d : Dir) : Print := ⟨640, s.basePrint.held ++ d.text⟩

/-- `settingsPath_`. -/
def settingsPrint : Print := ⟨680, (s.dirPrint .config).held ++ ascii "/settings.cfg"⟩

/-- `indexPath_`. -/
def indexPrint : Print := ⟨680, (s.dirPrint .thumbnails).held ++ ascii "/index.txt"⟩

/-- `probeTemporary` of `initialize`. -/
def probeTemporaryPrint : Print :=
  ⟨704, (s.dirPrint .config).held ++ ascii "/storage_probe.tmp"⟩

/-- `probeCompleted` of `initialize`. -/
def probeCompletedPrint : Print :=
  ⟨704, (s.dirPrint .config).held ++ ascii "/storage_probe.ok"⟩

/-- `temporary` of `saveSettings`. -/
def settingsTemporaryPrint : Print := ⟨704, s.settingsPrint.held ++ ascii ".tmp"⟩

/-- `temporary` of `saveIndex`. -/
def indexTemporaryPrint : Print := ⟨704, s.indexPrint.held ++ ascii ".tmp"⟩

/-- `path` of `cleanTemporaryFiles`. -/
def cleanPrint (directory : Dir) (name : Bytes) : Print :=
  ⟨800, (s.dirPrint directory).held ++ ascii "/" ++ name⟩

def photoPrint (filename : Bytes) : Print :=
  ⟨800, (s.dirPrint .photos).held ++ ascii "/" ++ filename⟩

/-- The stem is a copy of at most 127 bytes. -/
def sidecarPrint (filename : Bytes) : Print :=
  ⟨800, (s.dirPrint .photos).held ++ ascii "/" ++ dropExtension (filename.take 127) ++
    ascii ".json"⟩

def thumbnailPrint (filename : Bytes) : Print :=
  ⟨800, (s.dirPrint .thumbnails).held ++ ascii "/" ++ dropExtension (filename.take 127) ++
    ascii ".rgb"⟩

/-- The three prints of an entry's files. -/
def filePrints (filename : Bytes) : List Print :=
  [s.photoPrint filename, s.sidecarPrint filename, s.thumbnailPrint filename]

/-- The prints that depend on the root alone. -/
def fixedPrints : List Print :=
  [s.basePrint, s.dirPrint .config, s.dirPrint .photos, s.dirPrint .thumbnails, s.settingsPrint,
    s.indexPrint, s.probeTemporaryPrint, s.probeCompletedPrint, s.settingsTemporaryPrint,
    s.indexTemporaryPrint]

end PhotoStore

/-- The temporary path of one of an entry's files. -/
def temporaryPrint (final : Print) : Print := ⟨824, final.held ++ ascii ".tmp"⟩

/-- `stem` of `savePhoto`. -/
def stemPrint (wall : Tm) (timestampMs : Int64) (presetIndex : Int) : Print :=
  ⟨112, padded 4 (wall.year + 1900) ++ padded 2 (wall.mon + 1) ++ padded 2 wall.mday ++
    ascii "_" ++ padded 2 wall.hour ++ padded 2 wall.min ++ padded 2 wall.sec ++ ascii "_" ++
    padded 3 (timestampMs.toInt.tmod 1000) ++ ascii "_" ++ (presetAt presetIndex).id ++
    ascii "_preview"⟩

/-- `entry.filename` of `savePhoto`. -/
def filenamePrint (wall : Tm) (timestampMs : Int64) (presetIndex : Int) : Print :=
  ⟨128, (stemPrint wall timestampMs presetIndex).held ++ ascii ".jpg"⟩

/-- The new entry's name is what these two buffers hold. -/
theorem filename_held (wall : Tm) (photo : Photo) :
    (filenamePrint wall photo.timestampMs photo.presetIndex).held = photo.filename wall := rfl

/-- What `localtime_r` gives, with a year of at most ten digits. -/
structure Tm.Calendar (t : Tm) : Prop where
  year : (t.year + 1900).natAbs < 10 ^ 10
  mon : 0 ≤ t.mon ∧ t.mon ≤ 11
  mday : 1 ≤ t.mday ∧ t.mday ≤ 31
  hour : 0 ≤ t.hour ∧ t.hour ≤ 23
  min : 0 ≤ t.min ∧ t.min ≤ 59
  sec : 0 ≤ t.sec ∧ t.sec ≤ 60

/-! ## They fit -/

variable {s : PhotoStore}

/-- The root that the constructor stores. -/
theorem create_root_le (storageRoot cameraModel versionName : Option Bytes) :
    (PhotoStore.create storageRoot cameraModel versionName).root.length ≤ 511 :=
  List.length_take_le ..

theorem base_within (hroot : s.root.length ≤ 511) : s.basePrint.Within 521 :=
  Print.within_append hroot (j := 10) (by decide) (by decide) (by decide)

theorem dir_within (hroot : s.root.length ≤ 511) (d : Dir) : (s.dirPrint d).Within 532 := by
  have htext : d.text.length ≤ 11 := by cases d <;> decide
  exact Print.within_append (base_within hroot).held_le htext (by omega) (by omega)

theorem settings_within (hroot : s.root.length ≤ 511) : s.settingsPrint.Within 545 :=
  Print.within_append (dir_within hroot _).held_le (j := 13) (by decide) (by decide) (by decide)

theorem index_within (hroot : s.root.length ≤ 511) : s.indexPrint.Within 542 :=
  Print.within_append (dir_within hroot _).held_le (j := 10) (by decide) (by decide) (by decide)

theorem fixed_fit (hroot : s.root.length ≤ 511) : ∀ p ∈ s.fixedPrints, p.Fits := by
  have hconfig := (dir_within hroot .config).held_le
  have hprobe : s.probeTemporaryPrint.Within 550 :=
    Print.within_append hconfig (j := 18) (by decide) (by decide) (by decide)
  have hcompleted : s.probeCompletedPrint.Within 549 :=
    Print.within_append hconfig (j := 17) (by decide) (by decide) (by decide)
  have hsettings : s.settingsTemporaryPrint.Within 549 :=
    Print.within_append (settings_within hroot).held_le (j := 4) (by decide) (by decide)
      (by omega)
  have hindex : s.indexTemporaryPrint.Within 546 :=
    Print.within_append (index_within hroot).held_le (j := 4) (by decide) (by decide) (by decide)
  intro p hp
  simp only [PhotoStore.fixedPrints, List.mem_cons, List.not_mem_nil, or_false] at hp
  rcases hp with rfl | rfl | rfl | rfl | rfl | rfl | rfl | rfl | rfl | rfl
  · exact (base_within hroot).fits
  · exact (dir_within hroot _).fits
  · exact (dir_within hroot _).fits
  · exact (dir_within hroot _).fits
  · exact (settings_within hroot).fits
  · exact (index_within hroot).fits
  · exact hprobe.fits
  · exact hcompleted.fits
  · exact hsettings.fits
  · exact hindex.fits

theorem slash_length (hroot : s.root.length ≤ 511) (d : Dir) :
    ((s.dirPrint d).held ++ ascii "/").length ≤ 533 := by
  rw [List.length_append]
  exact Nat.add_le_add (dir_within hroot d).held_le (show (ascii "/").length ≤ 1 by decide)

theorem clean_fits (hroot : s.root.length ≤ 511) (d : Dir) {name : Bytes}
    (h : name.length ≤ 255) : (s.cleanPrint d name).Fits :=
  (Print.within_append (slash_length hroot d) h (Nat.le_refl (533 + 255)) (by omega)).fits

theorem stem_length (filename : Bytes) : (dropExtension (filename.take 127)).length ≤ 127 :=
  (dropExtension_length_le _).trans (List.length_take_le ..)

/-- An entry's files have paths of at most 665 bytes. -/
theorem file_within (hroot : s.root.length ≤ 511) {n : Bytes} (h : n.length ≤ 127) :
    ∀ p ∈ s.filePrints n, p.Within 665 := by
  have hdir := slash_length hroot
  have hstem (d : Dir) :
      ((s.dirPrint d).held ++ ascii "/" ++ dropExtension (n.take 127)).length ≤ 660 := by
    rw [List.length_append]
    exact Nat.add_le_add (hdir d) (stem_length n)
  intro p hp
  simp only [PhotoStore.filePrints, List.mem_cons, List.not_mem_nil, or_false] at hp
  rcases hp with rfl | rfl | rfl
  · exact Print.within_append (hdir _) h (show 533 + 127 ≤ 665 by omega) (by omega)
  · exact Print.within_append (hstem _) (j := 5) (by decide) (by decide) (by decide)
  · exact Print.within_append (hstem _) (j := 4) (by decide) (by decide) (by decide)

theorem temporary_fits {final : Print} (h : final.Within 665) : (temporaryPrint final).Fits :=
  (Print.within_append h.held_le (j := 4) (n := 669) (by decide) (by decide) (by decide)).fits

/-- The text of a new entry's name without its extension has at most 74 bytes. -/
theorem stem_within {wall : Tm} (h : wall.Calendar) (timestampMs : Int64) (presetIndex : Int) :
    (stemPrint wall timestampMs presetIndex).Within 74 := by
  have htwo {z : Int} (h0 : 0 ≤ z) (h1 : z ≤ 99) : (padded 2 z).length ≤ 3 :=
    padded_length_le (k := 2) (by omega) (by omega)
  have hyear : (padded 4 (wall.year + 1900)).length ≤ 11 :=
    padded_length_le (k := 10) (by omega) h.year
  have hmon := htwo (z := wall.mon + 1) (by have := h.mon; omega) (by have := h.mon; omega)
  have hmday := htwo (z := wall.mday) (by have := h.mday; omega) (by have := h.mday; omega)
  have hhour := htwo h.hour.1 (by have := h.hour; omega)
  have hmin := htwo h.min.1 (by have := h.min; omega)
  have hsec := htwo h.sec.1 (by have := h.sec; omega)
  have hms : (padded 3 (timestampMs.toInt.tmod 1000)).length ≤ 4 :=
    padded_length_le (k := 3) (by omega) (by
      rw [Int.natAbs_tmod]
      exact Nat.mod_lt _ (by omega))
  have hid := (presetAt_id presetIndex).2
  have hbar : (ascii "_").length = 1 := by decide
  have hend : (ascii "_preview").length = 8 := by decide
  refine ⟨?_, show 74 < 112 by omega⟩
  simp only [stemPrint, List.length_append, hbar, hend]
  omega

theorem filename_fits {wall : Tm} (h : wall.Calendar) (timestampMs : Int64) (presetIndex : Int) :
    (filenamePrint wall timestampMs presetIndex).Fits :=
  (Print.within_append (stem_within h timestampMs presetIndex).held_le (j := 4)
    (by decide) (Nat.le_refl 78) (by decide)).fits

/-! ## They hold the paths -/

/-- A path of the card as the file system sees it. -/
def PhotoStore.pathText (s : PhotoStore) (p : Path) : Bytes :=
  s.root ++ ascii "/RETROLENS" ++ p.dir.text ++ ascii "/" ++ p.name

theorem dir_held (hroot : s.root.length ≤ 511) (d : Dir) :
    (s.dirPrint d).held = s.root ++ ascii "/RETROLENS" ++ d.text := by
  rw [(dir_within hroot d).fits.held, PhotoStore.dirPrint, (base_within hroot).fits.held]
  rfl

/-- The paths of one store's card are told apart by their texts. -/
theorem pathText_injective {p q : Path} (h : s.pathText p = s.pathText q) : p = q := by
  obtain ⟨d, a⟩ := p
  obtain ⟨d', b⟩ := q
  simp only [PhotoStore.pathText, List.append_assoc] at h
  have h := List.append_cancel_left (List.append_cancel_left h)
  -- The letters after the slash differ.
  have hlead (d : Dir) (x : Bytes) : (d.text ++ x)[1]? = d.text[1]? :=
    List.getElem?_append_left (by cases d <;> decide)
  have hdir : d = d' := by
    have := congrArg (fun l => l[1]?) h
    simp only [hlead] at this
    revert this
    cases d <;> cases d' <;> decide
  subst hdir
  rw [List.append_cancel_left (List.append_cancel_left h)]

theorem photo_held (hroot : s.root.length ≤ 511) {n : Bytes} (h : n.length ≤ 127) :
    (s.photoPrint n).held = s.pathText (photoPath n) := by
  rw [(file_within hroot h _ (by simp [PhotoStore.filePrints])).fits.held,
    PhotoStore.photoPrint, dir_held hroot]
  rfl

theorem sidecar_held (hroot : s.root.length ≤ 511) {n : Bytes} (h : n.length ≤ 127) :
    (s.sidecarPrint n).held = s.pathText (sidecarPath n) := by
  rw [(file_within hroot h _ (by simp [PhotoStore.filePrints])).fits.held,
    PhotoStore.sidecarPrint, dir_held hroot, List.append_assoc]
  rfl

theorem thumbnail_held (hroot : s.root.length ≤ 511) {n : Bytes} (h : n.length ≤ 127) :
    (s.thumbnailPrint n).held = s.pathText (thumbnailPath n) := by
  rw [(file_within hroot h _ (by simp [PhotoStore.filePrints])).fits.held,
    PhotoStore.thumbnailPrint, dir_held hroot, List.append_assoc]
  rfl

/-! ## The whole -/

/-- No print of the store is cut, and different names have different files. -/
structure PathsWhole (s : PhotoStore) : Prop where
  fixed : ∀ p ∈ s.fixedPrints, p.Fits
  clean : ∀ (d : Dir) (name : Bytes), name.length ≤ 255 → (s.cleanPrint d name).Fits
  files : ∀ n : Bytes, n.length ≤ 127 → ∀ p ∈ s.filePrints n, p.Fits ∧ (temporaryPrint p).Fits
  generated : ∀ (wall : Tm) (timestampMs : Int64) (presetIndex : Int), wall.Calendar →
    (stemPrint wall timestampMs presetIndex).Fits ∧
      (filenamePrint wall timestampMs presetIndex).Fits
  apart : ∀ n m : Bytes, JpgName n → JpgName m → n ≠ m →
    (s.photoPrint n).held ≠ (s.photoPrint m).held ∧
      (s.sidecarPrint n).held ≠ (s.sidecarPrint m).held ∧
      (s.thumbnailPrint n).held ≠ (s.thumbnailPrint m).held

/-- **With a root of at most 511 bytes no path and no new name is cut short.** -/
theorem paths_whole (hroot : s.root.length ≤ 511) : PathsWhole s where
  fixed := fixed_fit hroot
  clean d _ h := clean_fits hroot d h
  files _ h p hp := ⟨(file_within hroot h p hp).fits, temporary_fits (file_within hroot h p hp)⟩
  generated _ timestampMs presetIndex h :=
    ⟨(stem_within h timestampMs presetIndex).fits, filename_fits h timestampMs presetIndex⟩
  apart n m hn hm hne := by
    refine ⟨fun h => hne ?_, fun h => hne ?_, fun h => hne ?_⟩
    · rw [photo_held hroot hn.length, photo_held hroot hm.length] at h
      exact photo_injective (pathText_injective h)
    · rw [sidecar_held hroot hn.length, sidecar_held hroot hm.length] at h
      exact sidecar_injective hn hm (pathText_injective h)
    · rw [thumbnail_held hroot hn.length, thumbnail_held hroot hm.length] at h
      exact thumbnail_injective hn hm (pathText_injective h)

theorem paths_whole_longest :
    PathsWhole (PhotoStore.create (some (47 :: List.replicate 600 97)) none none) :=
  paths_whole (create_root_le _ _ _)

end RetroLens.Store
