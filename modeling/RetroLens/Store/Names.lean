import RetroLens.Store.PhotoStore

/-!
# Names and the files they own

A photo's name ends in `.jpg`, so its three files, the files of other names,
the index and the temporary files are all different: their names end in
different letters, and within one kind the name comes back from the path.
-/

namespace RetroLens.Store

open Text Disk RetroLens.Core

/-- A name that an entry may have. -/
structure JpgName (n : Bytes) : Prop where
  suffix : ∃ x, n = x ++ ascii ".jpg"
  length : n.length ≤ 127

/-- The photo, the sidecar and the thumbnail of a name. -/
def ownedPaths (n : Bytes) : Set Path := {photoPath n, sidecarPath n, thumbnailPath n}

theorem photo_mem_owned (n : Bytes) : photoPath n ∈ ownedPaths n := .inl rfl

theorem sidecar_mem_owned (n : Bytes) : sidecarPath n ∈ ownedPaths n := .inr (.inl rfl)

theorem thumbnail_mem_owned (n : Bytes) : thumbnailPath n ∈ ownedPaths n := .inr (.inr rfl)

def temporaryPaths : Set Path := {p | ∃ q : Path, p = q.temporary}

theorem temporary_mem (p : Path) : p.temporary ∈ temporaryPaths := ⟨p, rfl⟩

theorem dropExtension_jpg {x : Bytes} (h : (x ++ ascii ".jpg").length ≤ 127) :
    dropExtension ((x ++ ascii ".jpg").take 127) = x := by
  rw [List.take_of_length_le h]
  exact dropExtension_append (e := ascii "jpg") (by decide)

theorem sidecarPath_jpg {x : Bytes} (h : (x ++ ascii ".jpg").length ≤ 127) :
    sidecarPath (x ++ ascii ".jpg") = ⟨.photos, x ++ ascii ".json"⟩ := by
  rw [sidecarPath, dropExtension_jpg h]

theorem thumbnailPath_jpg {x : Bytes} (h : (x ++ ascii ".jpg").length ≤ 127) :
    thumbnailPath (x ++ ascii ".jpg") = ⟨.thumbnails, x ++ ascii ".rgb"⟩ := by
  rw [thumbnailPath, dropExtension_jpg h]

/-- The last letter of a path's name. -/
def Path.lastByte (p : Path) : Option UInt8 := p.name.getLast?

theorem getLast?_append_ascii {x s : Bytes} (h : s ≠ []) : (x ++ s).getLast? = s.getLast? := by
  rw [List.getLast?_append, List.getLast?_eq_some_getLast h]
  rfl

theorem lastByte_temporary (p : Path) : p.temporary.lastByte = some 112 :=
  getLast?_append_ascii (by decide)

theorem lastByte_index : indexPath.lastByte = some 116 := by decide

variable {n m : Bytes} {p : Path}

theorem lastByte_photo (h : JpgName n) : (photoPath n).lastByte = some 103 := by
  obtain ⟨⟨x, rfl⟩, -⟩ := h
  exact getLast?_append_ascii (by decide)

theorem lastByte_sidecar (h : JpgName n) : (sidecarPath n).lastByte = some 110 := by
  obtain ⟨⟨x, rfl⟩, hl⟩ := h
  rw [sidecarPath_jpg hl]
  exact getLast?_append_ascii (by decide)

theorem lastByte_thumbnail (h : JpgName n) : (thumbnailPath n).lastByte = some 98 := by
  obtain ⟨⟨x, rfl⟩, hl⟩ := h
  rw [thumbnailPath_jpg hl]
  exact getLast?_append_ascii (by decide)

/-- The last letter tells an owned file from any other kind. -/
theorem lastByte_owned (h : JpgName n) (hp : p ∈ ownedPaths n) :
    p.lastByte = some 103 ∨ p.lastByte = some 110 ∨ p.lastByte = some 98 := by
  rcases hp with rfl | rfl | rfl
  · exact .inl (lastByte_photo h)
  · exact .inr (.inl (lastByte_sidecar h))
  · exact .inr (.inr (lastByte_thumbnail h))

theorem ne_of_lastByte {p q : Path} {a b : UInt8} (hp : p.lastByte = some a)
    (hq : q.lastByte = some b) (hab : a ≠ b) : p ≠ q := by
  rintro rfl
  exact hab (Option.some.inj (hp.symm.trans hq))

theorem owned_not_temporary (h : JpgName n) (hp : p ∈ ownedPaths n) : p ∉ temporaryPaths := by
  rintro ⟨q, rfl⟩
  have := lastByte_owned h hp
  simp [lastByte_temporary] at this

theorem owned_ne_index (h : JpgName n) (hp : p ∈ ownedPaths n) : p ≠ indexPath := by
  rintro rfl
  have := lastByte_owned h hp
  simp [lastByte_index] at this

theorem index_not_temporary : indexPath ∉ temporaryPaths := by
  rintro ⟨q, hq⟩
  exact ne_of_lastByte lastByte_index (lastByte_temporary q) (by decide) hq

theorem photo_ne_sidecar (h : JpgName n) (h' : JpgName m) : photoPath n ≠ sidecarPath m :=
  ne_of_lastByte (lastByte_photo h) (lastByte_sidecar h') (by decide)

theorem photo_ne_thumbnail (h : JpgName n) (h' : JpgName m) : photoPath n ≠ thumbnailPath m :=
  ne_of_lastByte (lastByte_photo h) (lastByte_thumbnail h') (by decide)

theorem sidecar_ne_thumbnail (h : JpgName n) (h' : JpgName m) :
    sidecarPath n ≠ thumbnailPath m :=
  ne_of_lastByte (lastByte_sidecar h) (lastByte_thumbnail h') (by decide)

theorem photo_injective (h : photoPath n = photoPath m) : n = m := congrArg Path.name h

theorem sidecar_injective (hn : JpgName n) (hm : JpgName m) (h : sidecarPath n = sidecarPath m) :
    n = m := by
  obtain ⟨⟨x, rfl⟩, hx⟩ := hn
  obtain ⟨⟨y, rfl⟩, hy⟩ := hm
  rw [sidecarPath_jpg hx, sidecarPath_jpg hy] at h
  rw [List.append_cancel_right (congrArg Path.name h)]

theorem thumbnail_injective (hn : JpgName n) (hm : JpgName m)
    (h : thumbnailPath n = thumbnailPath m) : n = m := by
  obtain ⟨⟨x, rfl⟩, hx⟩ := hn
  obtain ⟨⟨y, rfl⟩, hy⟩ := hm
  rw [thumbnailPath_jpg hx, thumbnailPath_jpg hy] at h
  rw [List.append_cancel_right (congrArg Path.name h)]

/-- **Different names own different files.** -/
theorem owned_disjoint (hn : JpgName n) (hm : JpgName m) (hne : n ≠ m) (hp : p ∈ ownedPaths n) :
    p ∉ ownedPaths m := by
  intro hq
  rcases hp with rfl | rfl | rfl <;> rcases hq with hq | hq | hq
  · exact hne (photo_injective hq)
  · exact photo_ne_sidecar hn hm hq
  · exact photo_ne_thumbnail hn hm hq
  · exact photo_ne_sidecar hm hn hq.symm
  · exact hne (sidecar_injective hn hm hq)
  · exact sidecar_ne_thumbnail hn hm hq
  · exact photo_ne_thumbnail hm hn hq.symm
  · exact sidecar_ne_thumbnail hm hn hq.symm
  · exact hne (thumbnail_injective hn hm hq)

theorem filename_eq (wall : Tm) (photo : Photo) :
    photo.filename wall = stem wall photo.timestampMs photo.presetIndex ++ ascii ".jpg" := by
  have h1 : (stem wall photo.timestampMs photo.presetIndex).length ≤ 111 := by
    rw [stem, List.length_take]
    exact Nat.min_le_left _ _
  have h2 : (ascii ".jpg").length = 4 := by decide
  exact List.take_of_length_le (by rw [List.length_append, h2]; omega)

/-- The name that a save generates. -/
theorem jpgName_filename (wall : Tm) (photo : Photo) : JpgName (photo.filename wall) :=
  ⟨⟨_, filename_eq wall photo⟩, List.length_take_le ..⟩

@[simp] theorem entry_filename (wall : Tm) (photo : Photo) :
    (photo.entry wall).filename = photo.filename wall := by simp only [Photo.entry]

/-- A name that passes the check of `validateEntry` and fits the entry. -/
theorem jpgName_of_valid (h : validName n = true) (hl : n.length ≤ 127) : JpgName n := by
  simp only [validName, Bool.and_eq_true, endsWith, List.isSuffixOf_iff_suffix] at h
  obtain ⟨x, hx⟩ := h.2
  exact ⟨⟨x, hx.symm⟩, hl⟩

end RetroLens.Store
