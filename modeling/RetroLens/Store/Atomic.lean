import RetroLens.Store.Transaction

/-!
# All or nothing

`savePhoto` either leaves entries, index and files as they were, with no
temporary file and no open stream of its own, or it puts the photo, the
sidecar, the thumbnail and the new index in place and removes the evicted
entry's files and no others. A short `fwrite` of the photo or the thumbnail is
the exception: it skips `flushAndClose`, and the stream stays open.
-/

namespace RetroLens.Store

open Text Disk RetroLens.Core

/-- A name that no entry bears and no file of the card uses. -/
structure Unused (n : Bytes) (s : PhotoStore) (w : CardWorld) : Prop where
  listed : ∀ e ∈ s.entries.list, e.filename ≠ n
  absent : Absent n w.card
  temporaries : ∀ p ∈ ownedPaths n, w.card p.temporary = none

/-- As before the call. -/
structure Unchanged (n : Bytes) (s s' : PhotoStore) (w w' : CardWorld) : Prop where
  entries : s'.entries = s.entries
  files : ∀ p ∉ temporaryPaths, w'.card p = w.card p
  temporaries : ∀ p ∈ ownedPaths n, w'.card p.temporary = none
  indexTemporary : w'.card indexPath.temporary = none ∨
    w'.card indexPath.temporary = w.card indexPath.temporary
  streams : w'.streams = w.streams

/-- All of the new photo, and one entry fewer where there was no place. -/
structure Stored (plan : SavePlan) (photo : Photo) (encodedCapacity : Int) (s s' : PhotoStore)
    (w w' : CardWorld) : Prop where
  entries : s'.entries = s.entries.addEntry (photo.entry plan.wall)
  jpeg : w'.card (photoPath (photo.filename plan.wall)) = encodePhoto plan photo encodedCapacity s ∧
    encodePhoto plan photo encodedCapacity s ≠ none
  sidecar : w'.card (sidecarPath (photo.filename plan.wall)) = some
    (photo.manifest s)
  thumbnail : w'.card (thumbnailPath (photo.filename plan.wall)) = some photo.frame.bytes
  index : w'.card indexPath = some (indexText s'.entries.list)
  kept : ∀ p ∉ temporaryPaths, p ∉ ownedPaths (photo.filename plan.wall) → p ≠ indexPath →
    p ∉ evictedPaths s.entries → w'.card p = w.card p
  removed : plan.evict.ok = true → ∀ p ∈ evictedPaths s.entries, w'.card p = none

def AllOrNothing (plan : SavePlan) (photo : Photo) (encodedCapacity : Int) (s : PhotoStore)
    (w : CardWorld) : Prop :=
  let r := savePhoto plan photo encodedCapacity s w
  (r.1 = none → Unchanged (photo.filename plan.wall) s r.2.1 w r.2.2) ∧
    (r.1 ≠ none → Stored plan photo encodedCapacity s r.2.1 w r.2.2)

/-- The call writes, and a short `fwrite` of the photo or the thumbnail ends it. -/
def shortWrite (plan : SavePlan) (photo : Photo) (encodedCapacity : Int) (s : PhotoStore) : Bool :=
  (encodePhoto plan photo encodedCapacity s).isSome && plan.leaks

/-! ## Both ways -/

variable {plan : SavePlan} {photo : Photo} {encodedCapacity : Int} {s : PhotoStore}
  {w w' : CardWorld} {n : Bytes} {p : Path}

theorem not_writes_of_leaks (h : plan.leaks = true) : plan.writes = false := by
  simp only [SavePlan.leaks, FilePlan.leaks, Bool.or_eq_true, Bool.and_eq_true,
    Bool.not_eq_true'] at h
  rcases h with h | h <;> simp [SavePlan.writes, FilePlan.puts, h]

theorem unchanged_of_restores (hu : Unused n s w) {s' : PhotoStore} (he : s'.entries = s.entries)
    (hr : Restores temporaryPaths w.card w'.card) (hst : w'.streams = w.streams) :
    Unchanged n s s' w w' := by
  refine ⟨he, fun p hp => hr.eq hp, fun p hp => ?_, ?_, hst⟩
  · rcases hr p.temporary with h | h
    · rw [h, hu.temporaries p hp]
    · exact h.2
  · exact (hr indexPath.temporary).symm.imp_left And.right

theorem WriteSpec.stored {encoded : Bytes} {r : Bool × PhotoStore × CardWorld} (hs : Named s)
    (hu : Unused (photo.filename plan.wall) s w)
    (henc : encodePhoto plan photo encodedCapacity s = some encoded)
    (h : WriteSpec plan (photo.entry plan.wall) encoded
      (photo.manifest s) photo.frame.bytes s w r) (hr : r.1 = true) :
    Stored plan photo encodedCapacity s r.2.1 w r.2.2 := by
  obtain ⟨hentries, v, hv, hplaced, hcommit⟩ := h.done hr
  rw [entry_filename] at hv hplaced
  have hn := jpgName_filename plan.wall photo
  have hown : ∀ p ∈ ownedPaths (photo.filename plan.wall), r.2.2.card p = v.card p ∧
      v.card p = placed (photo.filename plan.wall) encoded
        (photo.manifest s) photo.frame.bytes w.card p := by
    intro p hp
    have ht := owned_not_temporary hn hp
    exact ⟨hcommit.card_of ht (owned_ne_index hn hp) (owned_not_evicted hs hn hu.listed hp),
      hplaced.eq ht⟩
  refine ⟨hentries, ⟨?_, by simp [henc]⟩, ?_, ?_, ?_, ?_, ?_⟩
  · obtain ⟨h1, h2⟩ := hown _ (photo_mem_owned _)
    rw [h1, h2, placed_photo hn, henc]
  · obtain ⟨h1, h2⟩ := hown _ (sidecar_mem_owned _)
    rw [h1, h2, placed_sidecar hn]
  · obtain ⟨h1, h2⟩ := hown _ (thumbnail_mem_owned _)
    rw [h1, h2, placed_thumbnail]
  · rw [hcommit.card_index fun hp => evicted_ne_index hs hp rfl, hentries]
  · intro p ht hp hi he
    rw [hcommit.card_of ht hi he]
    exact hv.card p (by simp [writeSet, hp, ht])
  · intro ho p hp
    obtain ⟨_, -, -, hgone⟩ := hcommit.index
    exact hgone ho p hp

/-- **A save is all or nothing exactly if no short `fwrite` ends it.** -/
theorem allOrNothing_iff (hs : Named s) (hu : Unused (photo.filename plan.wall) s w)
    (hundo : plan.undoes = true) :
    AllOrNothing plan photo encodedCapacity s w ↔
      shortWrite plan photo encodedCapacity s = false := by
  have hspec := savePhoto_spec plan photo encodedCapacity s w
  unfold AllOrNothing shortWrite
  generalize savePhoto plan photo encodedCapacity s w = r at hspec
  dsimp only
  cases henc : encodePhoto plan photo encodedCapacity s with
  | none =>
    obtain ⟨h1, h2, h3⟩ := hspec.refused henc
    refine iff_of_true ⟨fun _ => ?_, fun h => absurd h1 h⟩ rfl
    rw [h3]
    exact unchanged_of_restores hu h2 (.refl _ _) rfl
  | some encoded =>
    obtain ⟨hfst, hwrite⟩ := hspec.wrote encoded henc
    simp only [Option.isSome_some, Bool.true_and]
    constructor
    · -- a stream that is lost is still open
      rintro ⟨hnone, -⟩
      by_contra hleak
      rw [Bool.not_eq_false] at hleak
      have hw := hnone (by rw [hfst, not_writes_of_leaks hleak]; rfl)
      have := hwrite.streams
      rw [hleak, hw.streams] at this
      simp at this
    · intro hleak
      cases hwr : plan.writes with
      | true =>
        rw [hwr] at hfst hwrite
        exact ⟨fun h => by simp [hfst] at h, fun _ => hwrite.stored hs hu henc rfl⟩
      | false =>
        rw [hwr] at hfst hwrite
        refine ⟨fun _ => ?_, fun h => absurd hfst h⟩
        refine unchanged_of_restores hu (hwrite.failed rfl).1 (hwrite.undone rfl hundo ?_) ?_
        · rw [entry_filename]
          exact hu.absent
        · simpa [hleak] using hwrite.streams

/-! ## A store with one photo -/

def sampleWall : Tm := ⟨126, 5, 1, 12, 30, 45⟩

def samplePhoto : Photo :=
  { frame := Frame.filled ⟨1, 2, 3⟩, presetIndex := 3, intensity := 100, adjustments := {}
    favorite := false, timestampMs := 61007 }

def samplePlan : SavePlan := { encoder := fun _ => ⟨[ascii "JPEG"], true⟩, wall := sampleWall }

/-- The photo's `fwrite` comes back short. -/
def shortPlan : SavePlan := { samplePlan with jpeg := { fwrite := .fails 28 } }

def sampleEntry : PhotoEntry :=
  { timestampMs := 1, presetIndex := 0, favorite := true, filename := ascii "old_preview.jpg" }

def sampleStore : PhotoStore :=
  { PhotoStore.create (some (ascii "/mnt/sdcard")) none none with
    storageState := .ready, entries := ⟨[sampleEntry], by decide⟩ }

def sampleCard : Card Path :=
  placed sampleEntry.filename [1] [2] (List.replicate thumbnailSize 0) fun _ => none

theorem sample_named : Named sampleStore := by
  intro e he
  obtain rfl := List.mem_singleton.1 he
  exact ⟨⟨ascii "old_preview", by decide⟩, by decide⟩

theorem sample_unused (plan : SavePlan) (h : plan.wall = sampleWall) :
    Unused (samplePhoto.filename plan.wall) sampleStore { card := sampleCard } := by
  rw [h]
  refine ⟨?_, ?_, ?_⟩
  · intro e he
    obtain rfl := List.mem_singleton.1 he
    decide +kernel
  all_goals
    rintro p (rfl | rfl | rfl) <;> decide +kernel

theorem allOrNothing_iff_sample :
    AllOrNothing samplePlan samplePhoto 4096 sampleStore { card := sampleCard } ↔
      shortWrite samplePlan samplePhoto 4096 sampleStore = false :=
  allOrNothing_iff sample_named (sample_unused _ rfl) (by decide)

/-- The call fails and its stream stays open. -/
theorem short_write_leaks :
    Named sampleStore ∧ Unused (samplePhoto.filename shortPlan.wall) sampleStore { card := sampleCard } ∧
      shortPlan.undoes = true ∧
      ¬ AllOrNothing shortPlan samplePhoto 4096 sampleStore { card := sampleCard } := by
  refine ⟨sample_named, sample_unused _ rfl, by decide, fun h => ?_⟩
  have hnone : (savePhoto shortPlan samplePhoto 4096 sampleStore { card := sampleCard }).1 = none := by
    decide +kernel
  have hopen : (savePhoto shortPlan samplePhoto 4096 sampleStore
      { card := sampleCard }).2.2.streams = 1 := by decide +kernel
  have := (h.1 hnone).streams
  rw [hopen] at this
  exact absurd this (by decide)

end RetroLens.Store
