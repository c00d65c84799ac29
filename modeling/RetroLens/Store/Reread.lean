import RetroLens.Store.Opened

/-!
# Which names the index can hold

`validateEntry` accepts a name with a `|` or a line break in it, and
`rebuildIndex` takes such a name into the index. `saveIndex` prints it as it
is, and `loadIndex` cuts the line there. The index comes back as it was saved
exactly when no name holds either.
-/

namespace RetroLens.Store

open Text Disk RetroLens.Core

/-- No `|` and no line break: a name that its line in the index keeps whole. -/
def Unbroken (n : Bytes) : Prop := ∀ c ∈ n, c ≠ 124 ∧ c ≠ 10

instance (n : Bytes) : Decidable (Unbroken n) := inferInstanceAs (Decidable (∀ c ∈ n, _))

variable {card : Card Path} {e : PhotoEntry} {s : PhotoStore} {w : CardWorld} {f : FilePlan}

/-! ## The names that come out of an index -/

theorem parseIndexLine_unbroken {line : Bytes} (hline : 10 ∉ trimLine (cstring line))
    (h : parseIndexLine card line = some e) : Unbroken e.filename := by
  unfold parseIndexLine at h
  split at h
  · cases h
  rename_i stamp rest h1
  split at h
  · cases h
  rename_i name rest' h2
  split at h
  · cases h
  dsimp only at h
  split at h
  · cases h
    intro c hc
    have hname : c ∈ name := List.mem_of_mem_take hc
    refine ⟨?_, ?_⟩
    · rintro rfl
      exact cut_not_mem h2 hname
    · rintro rfl
      exact hline (cut_mem h1 (.inr (cut_mem h2 (.inl hname))))
  · cases h

theorem loadLines_unbroken {lines : List Bytes} {held : Entries} {flag : Bool}
    (hlines : ∀ line ∈ lines, 10 ∉ trimLine (cstring line))
    (hheld : ∀ e ∈ held.list, Unbroken e.filename) :
    ∀ e ∈ (loadLines card lines held flag).1.list, Unbroken e.filename := by
  induction lines generalizing held flag with
  | nil => exact hheld
  | cons line lines ih =>
    have hrest : ∀ line ∈ lines, 10 ∉ trimLine (cstring line) := fun l hl => hlines l (by simp [hl])
    unfold loadLines
    split
    · split
      · exact ih hrest hheld
      · rename_i entry hentry
        refine ih hrest fun e he => ?_
        rcases List.mem_append.1 he with he | he
        · exact hheld e he
        · obtain rfl := List.mem_singleton.1 he
          exact parseIndexLine_unbroken (hlines line (by simp)) hentry
    · exact hheld

/-- Whatever the index holds, no name that is read from it holds a `|` or a line break. -/
theorem loadIndex_unbroken (h : e ∈ (loadIndex card).1.list) : Unbroken e.filename := by
  unfold loadIndex at h
  split at h
  · cases h
  · exact loadLines_unbroken (fun line hline => fgets_trimLine hline) (fun e he => by cases he) e h

/-! ## The index that was saved -/

theorem Checked.indexName (h : Checked card e) (hn : Unbroken e.filename) :
    IndexName e.filename where
  valid := h.valid
  length := h.length
  plain c hc := ⟨(hn c hc).1, (hn c hc).2, h.cstring c hc⟩

/-- **The index comes back as it was saved exactly when no name holds a `|` or a line break.** -/
theorem index_reread_iff (hchecked : ∀ e ∈ s.entries.list, Checked w.card e)
    (hsaved : (saveIndex f s w).1 = true) :
    loadIndex (saveIndex f s w).2.card = (s.entries, false) ↔
      ∀ e ∈ s.entries.list, Unbroken e.filename := by
  have hr := saveIndex_saved hsaved
  constructor
  · intro h e he
    refine @loadIndex_unbroken (saveIndex f s w).2.card e ?_
    rw [h]
    exact he
  · intro hn
    have hc : ∀ e ∈ s.entries.list, Checked (saveIndex f s w).2.card e :=
      fun e he => hr.checked (hchecked e he)
    have hcard : (saveIndex f s w).2.card indexPath = some (indexText s.entries.list) := by
      rw [hr.card, Function.update_self]
    obtain ⟨hlist, hflag⟩ := loadIndex_indexText hcard
      (fun e he => (hc e he).indexName (hn e he)) fun e he => (hc e he).complete
    have hreread : s.entries.list.map PhotoEntry.reread = s.entries.list := by
      refine (List.map_congr_left fun e he => ?_).trans (List.map_id _)
      exact reread_eq (hc e he).preset.1 (hc e he).preset.2
    rw [hreread] at hlist
    refine Prod.ext ?_ hflag
    cases hl : (loadIndex (saveIndex f s w).2.card).1
    cases hs : s.entries
    simp only [hl, hs] at hlist
    simpa using hlist

/-! ## A name with a bar -/

/-- A card with the three files of one photo and nothing else. -/
def onePhoto (n : Bytes) : Card Path := fun p =>
  if p = thumbnailPath n then some (List.replicate thumbnailSize 0)
  else if p = photoPath n ∨ p = sidecarPath n then some [1] else none

theorem onePhoto_complete {n : Bytes} (h : JpgName n) : completeFiles (onePhoto n) n = true := by
  have hp := photo_ne_thumbnail h h
  have hs := sidecar_ne_thumbnail h h
  simp [completeFiles, regularFileWithSize, onePhoto, hp, hs]

def entryOf (n : Bytes) : PhotoEntry :=
  { timestampMs := 1000, presetIndex := 0, favorite := false, filename := n }

theorem onePhoto_checked {n : Bytes} (hv : validName n = true) (hl : n.length ≤ 127)
    (h0 : ∀ c ∈ n, c ≠ 0) : Checked (onePhoto n) (entryOf n) where
  valid := hv
  length := hl
  cstring := h0
  preset := show 0 ≤ (0 : Int) ∧ 0 < presetCount by decide
  complete := onePhoto_complete (jpgName_of_valid hv hl)

def storeOf (n : Bytes) : PhotoStore :=
  { PhotoStore.create none none none with
    storageState := .ready, entries := ⟨[entryOf n], by simp [kMaxPhotoEntries]⟩ }

theorem storeOf_checked {n : Bytes} (hv : validName n = true) (hl : n.length ≤ 127)
    (h0 : ∀ c ∈ n, c ≠ 0) : ∀ e ∈ (storeOf n).entries.list, Checked (onePhoto n) e := fun e he => by
  obtain rfl := List.mem_singleton.1 he
  exact onePhoto_checked hv hl h0

def plainName : Bytes := ascii "holiday_olive_pocket_preview.jpg"

theorem index_reread_plain :
    loadIndex (saveIndex {} (storeOf plainName) { card := onePhoto plainName }).2.card =
        ((storeOf plainName).entries, false) ↔
      ∀ e ∈ (storeOf plainName).entries.list, Unbroken e.filename :=
  index_reread_iff (s := storeOf plainName) (w := { card := onePhoto plainName }) (f := {})
    (storeOf_checked (by decide +kernel) (by decide +kernel) (by decide +kernel))
    ((replaceText_spec ..).1.trans rfl)

def barName : Bytes := ascii "a|b_olive_pocket_preview.jpg"

/-- `rebuildIndex` finds the photo with a bar in its name and saves it, and `loadIndex` does not
read it back. -/
theorem bar_not_reread :
    photoOfName (onePhoto barName) (fun _ => 1) barName = some (entryOf barName) ∧
      (∀ e ∈ (storeOf barName).entries.list, Checked (onePhoto barName) e) ∧
      (saveIndex {} (storeOf barName) { card := onePhoto barName }).1 = true ∧
      loadIndex (saveIndex {} (storeOf barName) { card := onePhoto barName }).2.card ≠
        ((storeOf barName).entries, false) := by
  have hchecked := storeOf_checked (n := barName) (by decide +kernel) (by decide +kernel)
    (by decide +kernel)
  have hbar := hchecked (entryOf barName) (by simp [storeOf])
  refine ⟨?_, hchecked, (replaceText_spec ..).1.trans rfl, fun h => ?_⟩
  · have hvalid : validateEntry (onePhoto barName) (entryOf barName) = true := by
      rw [validateEntry, Bool.and_eq_true]
      exact ⟨hbar.valid, hbar.complete⟩
    have hname : cstring barName = barName ∧ barName.take 127 = barName ∧
        (!endsWith barName (ascii "_preview.jpg") || barName.contains 47 ||
          hasInfix barName (ascii "..")) = false ∧ presetOfName barName = some 0 := by
      decide +kernel
    have hfile : (onePhoto barName (photoPath barName)).isSome = true := by
      have hj : JpgName barName := hbar.jpg
      simp [onePhoto, photo_ne_thumbnail hj hj]
    obtain ⟨h1, h2, h3, h4⟩ := hname
    unfold photoOfName
    dsimp only
    rw [h1, h3, h2, h4]
    simp only [Bool.false_eq_true, if_false, hfile, if_true]
    exact if_pos hvalid
  · have hloaded := @loadIndex_unbroken
      (saveIndex {} (storeOf barName) { card := onePhoto barName }).2.card (entryOf barName)
      (by rw [h]; simp [storeOf])
    exact absurd hloaded (by decide +kernel)

end RetroLens.Store
