import RetroLens.Store.IndexText
import RetroLens.Store.Newest

/-!
# A store that has been opened

What `initialize` leaves when it returns Ready (`Opened`): the entries' names
pass the check, their files are complete, and the index file either reads as
the entries or has just been printed from them. And what it does on a card
whose index reads without complaint: it loads that index and leaves it alone.
-/

namespace RetroLens.Store

open Text Disk RetroLens.Core

structure Opened (s : PhotoStore) (w : CardWorld) : Prop where
  ready : s.storageState = .ready
  checked : ∀ e ∈ s.entries.list, Checked w.card e
  index : loadIndex w.card = (s.entries, false) ∨
    w.card indexPath = some (indexText s.entries.list)

variable {plan : InitPlan} {s : PhotoStore} {w w' : CardWorld} {p : Path} {n : Bytes}
  {card : Card Path} {e entry : PhotoEntry}

/-! ## Complete files -/

theorem regularFileWithSize_congr {c c' : Card Path} {size : Option Nat} (h : c' p = c p) :
    regularFileWithSize c' p size = regularFileWithSize c p size := by
  unfold regularFileWithSize
  rw [h]

/-- Complete files stay complete where they are left alone. -/
theorem completeFiles_congr {c c' : Card Path} (h : ∀ p ∈ ownedPaths n, c' p = c p) :
    completeFiles c' n = completeFiles c n := by
  unfold completeFiles
  rw [regularFileWithSize_congr (h _ (photo_mem_owned n)),
    regularFileWithSize_congr (h _ (sidecar_mem_owned n)),
    regularFileWithSize_congr (h _ (thumbnail_mem_owned n))]

theorem photo_of_complete (h : completeFiles card n = true) : card (photoPath n) ≠ none := by
  intro hn
  simp [completeFiles, regularFileWithSize, hn] at h

/-! ## What the start touches -/

/-- The probe and temporary files, by the last letter. -/
def startPaths : Set Path := {p | p.lastByte = some 107 ∨ p.lastByte = some 112}

theorem owned_not_start (h : JpgName n) (hp : p ∈ ownedPaths n) : p ∉ startPaths := by
  rintro (hs | hs) <;> have := lastByte_owned h hp <;> simp [hs] at this

theorem index_not_start : indexPath ∉ startPaths := by
  rintro (hs | hs) <;> rw [lastByte_index] at hs <;> cases hs

theorem probeTemporary_mem : probeTemporary ∈ startPaths := .inr (by decide)

theorem probeCompleted_mem : probeCompleted ∈ startPaths := .inl (by decide)

theorem makeDirectories_within {S : Set Path} (os : List Outcome) :
    Within S w (makeDirectories os w).2 := by
  induction os generalizing w with
  | nil => exact .refl _ _
  | cons o os ih =>
    unfold makeDirectories
    split
    · exact (note_within o w).trans ih
    · exact note_within o w

theorem cleanTemporaryFiles_within (dir : Dir) (names : List (Bytes × Outcome)) :
    Within startPaths w (cleanTemporaryFiles dir names w) := by
  unfold cleanTemporaryFiles
  generalize names.take 256 = names
  induction names generalizing w with
  | nil => exact .refl _ _
  | cons item names ih =>
    rw [List.foldl_cons]
    refine Within.trans ?_ ih
    split
    · rename_i h
      obtain ⟨x, hx⟩ := List.isSuffixOf_iff_suffix.1 h
      refine unlink_within _ (.inr ?_)
      rw [Path.lastByte, ← hx]
      exact getLast?_append_ascii (by decide)
    · exact .refl _ _

theorem atomicReplace_within {S : Set Path} {f : FilePlan} {temporary final : Path}
    (ht : temporary ∈ S) (hf : final ∈ S) : Within S w (atomicReplace f temporary final w).2 := by
  have hr := rename_within (w := w) f.rename ht hf
  unfold atomicReplace
  dsimp only
  split
  · exact hr.trans (note_within _ _)
  · exact hr.trans (unlink_within _ ht)

theorem writeProbe_within (plan : InitPlan) (w : CardWorld) :
    Within startPaths w (writeProbe plan w).2 := by
  have ho := fopen_within (w := w) plan.probe.fopen probeTemporary_mem
  unfold writeProbe
  dsimp only
  split
  · exact ho
  · generalize (if plan.probe.fwrite.ok then probeValue else plan.probe.torn) = data
    have hc := ho.trans ((flushAndClose_spec plan.probe probeTemporary data _).2.2.1.mono fun q hq =>
      hq ▸ probeTemporary_mem)
    split
    · exact hc
    · exact hc.trans (atomicReplace_within probeTemporary_mem probeCompleted_mem)

/-- `initialize` stops at a check, or goes on to the index with the rest of the card as it was. -/
theorem initializeStore_cases (plan : InitPlan) (s : PhotoStore) (w : CardWorld) :
    ((initializeStore plan s w).1.storageState ∈
        [.invalidRoot, .directoryFailed, .insufficientSpace, .writeProbeFailed] ∧
      (initializeStore plan s w).1.entries = s.entries) ∨
      ∃ w', Within startPaths w w' ∧ initializeStore plan s w = openIndex plan s w' := by
  unfold initializeStore
  split
  · exact .inl (by simp)
  have hd := makeDirectories_within (S := startPaths) (w := w)
    [plan.base, plan.config, plan.photos, plan.thumbnails]
  generalize makeDirectories [plan.base, plan.config, plan.photos, plan.thumbnails] w = d at hd
  dsimp only
  split
  · exact .inl (by simp)
  split
  · exact .inl (by simp)
  have hs := (hd.trans (unlink_within plan.staleTemporary probeTemporary_mem)).trans
    (unlink_within plan.staleCompleted probeCompleted_mem)
  have hw := hs.trans (writeProbe_within plan _)
  split
  · exact .inl (by simp)
  split
  · exact .inl (by simp)
  · exact .inr ⟨_, (hw.trans (note_within plan.readBack _)).trans
      (unlink_within plan.probeCompleted probeCompleted_mem), rfl⟩

/-! ## The index -/

theorem photoOfName_checked {mtime : Bytes → Int} {name : Bytes}
    (h : photoOfName card mtime name = some e) : Checked card e := by
  unfold photoOfName at h
  dsimp only at h
  split at h
  · cases h
  split at h
  · cases h
  rename_i preset hp
  have hpreset : preset < presets.length := (List.findIdx?_eq_some_iff_getElem.1 hp).1
  generalize (if (card (photoPath ((Text.cstring name).take 127))).isSome then _ else _) = stamp at h
  split at h
  · rename_i hv
    cases h
    simp only [validateEntry, Bool.and_eq_true] at hv
    exact ⟨hv.1, List.length_take_le .., fun c hc => cstring_ne_zero (List.mem_of_mem_take hc),
      ⟨Int.natCast_nonneg _, by simpa [presetCount] using hpreset⟩, hv.2⟩
  · cases h

theorem scanPhotos_checked {mtime : Bytes → Int} {names : List Bytes}
    (h : e ∈ (scanPhotos card mtime names).list) : Checked card e := by
  obtain ⟨name, -, hp⟩ := mem_scanPhotos h
  exact photoOfName_checked hp

/-- A checked entry stays one where its files are left alone. -/
theorem Checked.congr {c c' : Card Path} (h : Checked c e)
    (hc : ∀ p ∈ ownedPaths e.filename, c' p = c p) : Checked c' e :=
  ⟨h.valid, h.length, h.cstring, h.preset, by rw [completeFiles_congr hc, h.complete]⟩

theorem Checked.within_start (h : Checked w.card e) (hw : Within startPaths w w') :
    Checked w'.card e :=
  h.congr fun _ hp => hw.card _ (owned_not_start h.jpg hp)

theorem cleaned_within (plan : InitPlan) (w : CardWorld) : Within startPaths w
    (cleanTemporaryFiles .thumbnails plan.thumbnailNames (cleanTemporaryFiles .photos
      plan.photoNames (cleanTemporaryFiles .config plan.configNames w))) :=
  ((cleanTemporaryFiles_within _ _).trans (cleanTemporaryFiles_within _ _)).trans
    (cleanTemporaryFiles_within _ _)

/-! ## A rebuilt index -/

theorem saveIndex_saved {f : FilePlan} (hsaved : (saveIndex f s w).1 = true) :
    Replaced indexPath (indexText s.entries.list) w (saveIndex f s w).2 := by
  obtain ⟨hfst, -, hdone, -⟩ := replaceText_spec f indexPath (indexText s.entries.list) w
  exact hdone (hfst ▸ hsaved)

/-- Replacing the index leaves the files of the photos alone. -/
theorem Replaced.checked {e : PhotoEntry} {text : Bytes} {v : CardWorld}
    (h : Replaced indexPath text w v) (he : Checked w.card e) : Checked v.card e := by
  refine he.congr fun p hp => h.within.card p ?_
  rintro (rfl | rfl)
  · exact owned_not_temporary he.jpg hp (temporary_mem _)
  · exact owned_ne_index he.jpg hp rfl

theorem rebuildIndex_opened (h : (rebuildIndex plan s w).1 = true) :
    let r := rebuildIndex plan s w
    (∀ e ∈ r.2.1.entries.list, Checked r.2.2.card e) ∧
      r.2.2.card indexPath = some (indexText r.2.1.entries.list) := by
  unfold rebuildIndex at h ⊢
  split at h
  · cases h
  rename_i hdir
  rw [if_neg hdir]
  have hr := saveIndex_saved h
  exact ⟨fun e he => hr.checked (scanPhotos_checked he), by rw [hr.card, Function.update_self]⟩

theorem rebuildIndex_checked :
    ∀ e ∈ (rebuildIndex plan s w).2.1.entries.list, Checked w.card e := by
  unfold rebuildIndex
  split
  · exact fun e h => by simp [Entries.empty] at h
  · exact fun e h => scanPhotos_checked h

/-! ## What `initialize` can do -/

/-- The four ways in which `initialize` can end. -/
inductive Initialized (plan : InitPlan) (s : PhotoStore) (w : CardWorld)
    (r : PhotoStore × CardWorld) : Prop where
  /-- It stops at a check, before the index. -/
  | stopped (state : r.1.storageState ∈
        [.invalidRoot, .directoryFailed, .insufficientSpace, .writeProbeFailed])
      (entries : r.1.entries = s.entries)
  /-- The index of the cleaned card `u` reads without complaint. -/
  | loaded (u : CardWorld) (within : Within startPaths w u) (whole : (loadIndex u.card).2 = false)
      (eq : r = ({ s with entries := (loadIndex u.card).1, storageState := .ready }, u))
  | rebuilt (u : CardWorld) (within : Within startPaths w u) (corrupt : (loadIndex u.card).2 = true)
      (saved : (rebuildIndex plan { s with entries := (loadIndex u.card).1 } u).1 = true)
      (eq : r =
        ({ (rebuildIndex plan { s with entries := (loadIndex u.card).1 } u).2.1 with
            storageState := .ready },
          (rebuildIndex plan { s with entries := (loadIndex u.card).1 } u).2.2))
  | unsaved (u : CardWorld) (within : Within startPaths w u) (corrupt : (loadIndex u.card).2 = true)
      (eq : r =
        ({ (rebuildIndex plan { s with entries := (loadIndex u.card).1 } u).2.1 with
            storageState := .indexFailed },
          (rebuildIndex plan { s with entries := (loadIndex u.card).1 } u).2.2))

theorem initializeStore_step (plan : InitPlan) (s : PhotoStore) (w : CardWorld) :
    Initialized plan s w (initializeStore plan s w) := by
  rcases initializeStore_cases plan s w with ⟨hstate, hentries⟩ | ⟨v, hv, heq⟩
  · exact .stopped hstate hentries
  rw [heq]
  have hu := hv.trans (cleaned_within plan v)
  unfold openIndex
  dsimp only
  generalize cleanTemporaryFiles .thumbnails plan.thumbnailNames (cleanTemporaryFiles .photos
    plan.photoNames (cleanTemporaryFiles .config plan.configNames v)) = u at hu ⊢
  split
  · rename_i hcorrupt
    split
    · rename_i hsaved
      exact .rebuilt u hu hcorrupt hsaved rfl
    · exact .unsaved u hu hcorrupt rfl
  · rename_i hwhole
    exact .loaded u hu (Bool.eq_false_iff.2 hwhole) rfl

/-- `initialize` keeps the entries, or lists what is complete on a card that it has cleaned. -/
theorem initializeStore_entries (plan : InitPlan) (s : PhotoStore) (w : CardWorld) :
    (initializeStore plan s w).1.entries = s.entries ∨
      ∃ v, Within startPaths w v ∧
        ∀ e ∈ (initializeStore plan s w).1.entries.list, Checked v.card e := by
  cases initializeStore_step plan s w with
  | stopped state entries => exact .inl entries
  | loaded u within whole eq => exact .inr ⟨u, within, eq ▸ fun e h => loadIndex_checked h⟩
  | rebuilt u within corrupt saved eq => exact .inr ⟨u, within, eq ▸ rebuildIndex_checked⟩
  | unsaved u within corrupt eq => exact .inr ⟨u, within, eq ▸ rebuildIndex_checked⟩

/-- **A store that `initialize` calls Ready is open.** -/
theorem initializeStore_opened (h : (initializeStore plan s w).1.storageState = .ready) :
    Opened (initializeStore plan s w).1 (initializeStore plan s w).2 := by
  cases initializeStore_step plan s w with
  | stopped state entries =>
    rw [h] at state
    simp at state
  | loaded u within whole eq =>
    rw [eq]
    exact ⟨rfl, fun e he => loadIndex_checked he, .inl (Prod.ext rfl whole)⟩
  | rebuilt u within corrupt saved eq =>
    obtain ⟨hchecked, hindex⟩ := rebuildIndex_opened saved
    rw [eq]
    exact ⟨rfl, hchecked, .inr hindex⟩
  | unsaved u within corrupt eq =>
    rw [eq] at h
    cases h

/-- **An index that reads without complaint is loaded and left alone** by every
`initialize` that gets as far as the index. -/
theorem initializeStore_reload {entries : Entries} (h : loadIndex w.card = (entries, false)) :
    (initializeStore plan s w).1.storageState ∈
        [.invalidRoot, .directoryFailed, .insufficientSpace, .writeProbeFailed] ∨
      ((initializeStore plan s w).1.storageState = .ready ∧
        (initializeStore plan s w).1.entries = entries ∧
        (initializeStore plan s w).2.card indexPath = w.card indexPath) := by
  have hload : ∀ {u}, Within startPaths w u → loadIndex u.card = (entries, false) := fun hu => by
    refine loadIndex_congr h (hu.card _ index_not_start) fun e he => ?_
    rw [show entries = (loadIndex w.card).1 by rw [h]] at he
    exact ((loadIndex_checked he).within_start hu).complete
  cases initializeStore_step plan s w with
  | stopped state _ => exact .inl state
  | loaded u within whole eq =>
    rw [eq]
    exact .inr ⟨rfl, congrArg Prod.fst (hload within), within.card _ index_not_start⟩
  | rebuilt u within corrupt saved eq =>
    rw [hload within] at corrupt
    cases corrupt
  | unsaved u within corrupt eq =>
    rw [hload within] at corrupt
    cases corrupt

end RetroLens.Store
