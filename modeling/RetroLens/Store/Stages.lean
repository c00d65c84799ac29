import RetroLens.Store.Names

/-!
# The steps of a save

For each of the four steps of `writePhoto`: what it changes on the card at any
moment, when it succeeds, what it leaves when it does, and what its clean-up
leaves when it does not. `Restores temporaryPaths c c'` reads: `c'` is `c`
again, up to temporary files that are gone.
-/

namespace RetroLens.Store

open Text Disk RetroLens.Core

/-- The paths that a save of the name `n` writes before it touches the index. -/
def writeSet (n : Bytes) : Set Path := ownedPaths n ∪ temporaryPaths

variable {f : FilePlan} {n : Bytes} {final : Path} {data : Bytes} {w v : CardWorld}
  {s : PhotoStore}

theorem photo_mem (n : Bytes) : photoPath n ∈ writeSet n := .inl (photo_mem_owned n)

theorem sidecar_mem (n : Bytes) : sidecarPath n ∈ writeSet n := .inl (sidecar_mem_owned n)

theorem thumbnail_mem (n : Bytes) : thumbnailPath n ∈ writeSet n := .inl (thumbnail_mem_owned n)

theorem temporary_subset (p : Path) : {p.temporary} ⊆ writeSet n := by
  rintro q rfl
  exact .inr (temporary_mem p)

/-- A file put in place is, up to its temporary file, one file more. -/
theorem Replaced.restores (hv : Untouched final w v) {w' : CardWorld}
    (h : Replaced final data v w') :
    Restores temporaryPaths (Function.update w.card final (some data)) w'.card := by
  rw [h.card, update_eq_of_within hv]
  exact (restores_none (temporary_mem final)).update _ _

/-- The temporary file of a failed step, unlinked. -/
theorem untouched_restores (h : Untouched final w v) (hc : f.cleanup.ok = true) :
    Restores temporaryPaths w.card (v.unlink f.cleanup final.temporary).2.card := by
  rw [unlink_card hc, update_eq_of_within h]
  exact restores_none (temporary_mem final)

/-- Open, write and put in place. -/
theorem writeAndReplace_spec (f : FilePlan) (data : Bytes) (hv : Untouched final w v) :
    (writeAndReplace f final data v).1 = (f.fwrite.ok && f.replaces) ∧
      (writeAndReplace f final data v).2.streams =
        v.streams - (if f.fwrite.ok then 1 else 0) ∧
      Within {final.temporary, final} w (writeAndReplace f final data v).2 ∧
      ((writeAndReplace f final data v).1 = true → Restores temporaryPaths
        (Function.update w.card final (some data)) (writeAndReplace f final data v).2.card) ∧
      ((writeAndReplace f final data v).1 = false →
        Untouched final w (writeAndReplace f final data v).2) := by
  have hsub : ({final.temporary} : Set Path) ⊆ {final.temporary, final} := by simp
  unfold writeAndReplace
  cases hw : f.fwrite.ok with
  | false =>
    have hn : Untouched final w (v.note f.fwrite) := hv.congr rfl rfl
    simp only [Bool.not_false, if_true, Bool.false_and, Bool.false_eq_true, if_false]
    exact ⟨trivial, by simp, hn.mono hsub, by simp, fun _ => hn⟩
  | true =>
    obtain ⟨hfst, hs, hdone, hfail⟩ := closeAndReplace_spec f final data v
    simp only [Bool.not_true, Bool.false_eq_true, if_false, Bool.true_and, if_true, hfst]
    refine ⟨trivial, hs, ?_, fun hr => (hdone hr).restores hv, fun hr => hv.trans (hfail hr)⟩
    cases hr : f.replaces with
    | true => exact (hv.mono hsub).trans (hdone hr).within
    | false => exact (hv.trans (hfail hr)).mono hsub

/-- A step changes how the store stands, not what it holds. -/
structure SameStore (s s' : PhotoStore) : Prop where
  entries : s'.entries = s.entries
  storageState : s'.storageState = s.storageState
  root : s'.root = s.root
  model : s'.model = s.model
  version : s'.version = s.version

theorem SameStore.trans {s s' s'' : PhotoStore} (h : SameStore s s') (h' : SameStore s' s'') :
    SameStore s s'' :=
  ⟨h'.entries.trans h.entries, h'.storageState.trans h.storageState, h'.root.trans h.root,
    h'.model.trans h.model, h'.version.trans h.version⟩

/-- A stream that a step opens and loses. -/
def FilePlan.leaks (f : FilePlan) : Bool := f.fopen.ok && !f.fwrite.ok

structure JpegSpec (f : FilePlan) (n encoded : Bytes) (s : PhotoStore) (w : CardWorld)
    (r : Bool × PhotoStore × CardWorld) : Prop where
  result : r.1 = (f.fopen.ok && f.fwrite.ok && f.replaces)
  same : SameStore s r.2.1
  within : Within (writeSet n) w r.2.2
  streams : r.2.2.streams = w.streams + if f.leaks then 1 else 0
  done : r.1 = true →
    Restores temporaryPaths (Function.update w.card (photoPath n) (some encoded)) r.2.2.card
  undone : r.1 = false → f.cleanup.ok = true → Restores temporaryPaths w.card r.2.2.card

theorem writeJpeg_spec (encoded : Bytes) :
    JpegSpec f n encoded s w (writeJpeg f n encoded s w) := by
  unfold writeJpeg
  cases ho : f.fopen.ok with
  | false =>
    have hw : w.fopen f.fopen (photoPath n).temporary = (false, w.note f.fopen) := by
      simp [World.fopen, ho]
    simp only [hw, Bool.not_false, if_true]
    exact ⟨by simp [ho], ⟨rfl, rfl, rfl, rfl, rfl⟩, .of_eq rfl rfl, by simp [FilePlan.leaks, ho],
      by simp, fun _ _ => .refl _ _⟩
  | true =>
    obtain ⟨v, hv, hopen, hstreams⟩ := fopen_spec (o := f.fopen) (p := (photoPath n).temporary)
      (w := w) ho
    obtain ⟨hfst, hs, hwithin, hdone, hfail⟩ := writeAndReplace_spec f encoded hopen
    have hset : ({(photoPath n).temporary, photoPath n} : Set Path) ⊆ writeSet n := by
      rintro p (rfl | rfl)
      · exact .inr (temporary_mem _)
      · exact photo_mem n
    simp only [hv, Bool.not_true, Bool.false_eq_true, if_false]
    cases hr : (writeAndReplace f (photoPath n) encoded v).1 with
    | false =>
      simp only [Bool.not_false, if_true]
      refine ⟨by simpa [hr, ho] using hfst.symm, ⟨rfl, rfl, rfl, rfl, rfl⟩, ?_, ?_, by simp,
        fun _ hc => untouched_restores (hfail hr) hc⟩
      · exact (hwithin.mono hset).trans (unlink_within _ (temporary_subset _ rfl))
      · simp only [unlink_streams, hs, hstreams, FilePlan.leaks, ho, Bool.true_and]
        cases f.fwrite.ok <;> simp
    | true =>
      simp only [Bool.not_true, Bool.false_eq_true, if_false]
      rw [hr] at hfst
      have hwr : f.fwrite.ok = true := by
        cases h : f.fwrite.ok
        · simp [h] at hfst
        · rfl
      refine ⟨by simpa [ho] using hfst, ⟨rfl, rfl, rfl, rfl, rfl⟩, hwithin.mono hset, ?_,
        fun _ => hdone hr, by simp⟩
      simp [hs, hstreams, FilePlan.leaks, hwr]

structure SidecarSpec (f : FilePlan) (undo : UnlinkPlan) (n text : Bytes) (s : PhotoStore)
    (w : CardWorld) (r : Bool × PhotoStore × CardWorld) : Prop where
  result : r.1 = (f.fopen.ok && f.replaces)
  same : SameStore s r.2.1
  within : Within (writeSet n) w r.2.2
  streams : r.2.2.streams = w.streams
  done : r.1 = true →
    Restores temporaryPaths (Function.update w.card (sidecarPath n) (some text)) r.2.2.card
  undone : r.1 = false → f.cleanup.ok = true → undo.photo.ok = true →
    Restores temporaryPaths (Function.update w.card (photoPath n) none) r.2.2.card

theorem writeSidecar_spec (undo : UnlinkPlan) (text : Bytes) :
    SidecarSpec f undo n text s w (writeSidecar f undo n text s w) := by
  unfold writeSidecar
  cases ho : f.fopen.ok with
  | false =>
    have hw : w.fopen f.fopen (sidecarPath n).temporary = (false, w.note f.fopen) := by
      simp [World.fopen, ho]
    simp only [hw, Bool.not_false, if_true]
    refine ⟨by simp [ho], ⟨rfl, rfl, rfl, rfl, rfl⟩, ?_, by simp, by simp, fun _ _ hu => ?_⟩
    · exact (note_within f.fopen w).trans (unlink_within _ (photo_mem n))
    · rw [unlink_card hu]
      exact .refl _ _
  | true =>
    obtain ⟨v, hv, hopen, hstreams⟩ := fopen_spec (o := f.fopen) (p := (sidecarPath n).temporary)
      (w := w) ho
    obtain ⟨hfst, hs, hdone, hfail⟩ := closeAndReplace_spec f (sidecarPath n) text v
    have hopen' : Within (writeSet n) w v := hopen.mono (temporary_subset _)
    simp only [hv, Bool.not_true, Bool.false_eq_true, if_false, hfst]
    cases hr : f.replaces with
    | false =>
      have hfail := hopen.trans (hfail hr)
      simp only [Bool.not_false, if_true]
      refine ⟨by simp [hr], ⟨rfl, rfl, rfl, rfl, rfl⟩, ?_, ?_, by simp, fun _ hc hu => ?_⟩
      · exact ((hfail.mono (temporary_subset _)).trans
          (unlink_within _ (temporary_subset _ rfl))).trans (unlink_within _ (photo_mem n))
      · simp only [unlink_streams, hs, hstreams]
        omega
      · rw [unlink_card hu]
        exact (untouched_restores hfail hc).update _ _
    | true =>
      have hdone := hdone hr
      simp only [Bool.not_true, Bool.false_eq_true, if_false]
      refine ⟨by simp [hr, ho], ⟨rfl, rfl, rfl, rfl, rfl⟩, ?_, ?_, fun _ => hdone.restores hopen,
        by simp⟩
      · refine hopen'.trans (hdone.within.mono ?_)
        rintro p (rfl | rfl)
        · exact .inr (temporary_mem _)
        · exact sidecar_mem n
      · simp only [hs, hstreams]
        omega

structure ThumbnailSpec (f : FilePlan) (undo : UnlinkPlan) (n : Bytes) (frame : Frame)
    (s : PhotoStore) (w : CardWorld) (r : Bool × PhotoStore × CardWorld) : Prop where
  result : r.1 = (f.fopen.ok && f.fwrite.ok && f.replaces)
  same : SameStore s r.2.1
  within : Within (writeSet n) w r.2.2
  streams : r.2.2.streams = w.streams + if f.leaks then 1 else 0
  done : r.1 = true → Restores temporaryPaths
    (Function.update w.card (thumbnailPath n) (some frame.bytes)) r.2.2.card
  undone : r.1 = false → f.cleanup.ok = true → undo.sidecar.ok = true → undo.photo.ok = true →
    Restores temporaryPaths
      (Function.update (Function.update w.card (sidecarPath n) none) (photoPath n) none)
      r.2.2.card

theorem writeThumbnail_spec (undo : UnlinkPlan) (frame : Frame) :
    ThumbnailSpec f undo n frame s w (writeThumbnail f undo n frame s w) := by
  unfold writeThumbnail
  cases ho : f.fopen.ok with
  | false =>
    have hw : w.fopen f.fopen (thumbnailPath n).temporary = (false, w.note f.fopen) := by
      simp [World.fopen, ho]
    simp only [hw, Bool.not_false, if_true]
    refine ⟨by simp [ho], ⟨rfl, rfl, rfl, rfl, rfl⟩, ?_, by simp [FilePlan.leaks, ho], by simp,
      fun _ _ hs hp => ?_⟩
    · exact ((note_within f.fopen w).trans (unlink_within _ (sidecar_mem n))).trans
        (unlink_within _ (photo_mem n))
    · rw [unlink_card hp, unlink_card hs]
      exact .refl _ _
  | true =>
    obtain ⟨v, hv, hopen, hstreams⟩ := fopen_spec (o := f.fopen)
      (p := (thumbnailPath n).temporary) (w := w) ho
    obtain ⟨hfst, hs, hwithin, hdone, hfail⟩ := writeAndReplace_spec f frame.bytes hopen
    have hset : ({(thumbnailPath n).temporary, thumbnailPath n} : Set Path) ⊆ writeSet n := by
      rintro p (rfl | rfl)
      · exact .inr (temporary_mem _)
      · exact thumbnail_mem n
    simp only [hv, Bool.not_true, Bool.false_eq_true, if_false]
    cases hr : (writeAndReplace f (thumbnailPath n) frame.bytes v).1 with
    | false =>
      simp only [Bool.not_false, if_true]
      refine ⟨by simpa [hr, ho] using hfst.symm, ⟨rfl, rfl, rfl, rfl, rfl⟩, ?_, ?_, by simp,
        fun _ hc hu hp => ?_⟩
      · exact (((hwithin.mono hset).trans (unlink_within _ (temporary_subset _ rfl))).trans
          (unlink_within _ (sidecar_mem n))).trans (unlink_within _ (photo_mem n))
      · simp only [unlink_streams, hs, hstreams, FilePlan.leaks, ho, Bool.true_and]
        cases f.fwrite.ok <;> simp
      · rw [unlink_card hp, unlink_card hu]
        exact ((untouched_restores (hfail hr) hc).update _ _).update _ _
    | true =>
      simp only [Bool.not_true, Bool.false_eq_true, if_false]
      rw [hr] at hfst
      have hwr : f.fwrite.ok = true := by
        cases h : f.fwrite.ok
        · simp [h] at hfst
        · rfl
      refine ⟨by simpa [ho] using hfst, ⟨rfl, rfl, rfl, rfl, rfl⟩, hwithin.mono hset, ?_,
        fun _ => hdone hr, by simp⟩
      simp [hs, hstreams, FilePlan.leaks, hwr]

end RetroLens.Store
