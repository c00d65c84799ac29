import RetroLens.Store.Session

/-!
# Removing a photo

`deletePhoto` puts an index without the entry in place before it unlinks the
files. An unlink of the JPEG that fails comes after the point of no return: the
entry is out of the store and the index, and the call reports that it is not.
`deletes_whole_iff` says when a deletion is all or nothing.
-/

namespace RetroLens.Store

open Text Disk RetroLens.Core Runs

/-- No entry bears the name. -/
def Unlisted (n : Bytes) (e : Entries) : Prop := ∀ x ∈ e.list, x.filename ≠ n

/-- The photo has left the entries, the index and the card, and no later start lists it. -/
structure Removed (n : Bytes) (s : PhotoStore) (w : CardWorld) : Prop where
  entries : Unlisted n s.entries
  index : w.card indexPath = some (indexText s.entries.list)
  jpeg : w.card (photoPath n) = none
  later : ∀ plan s', Unlisted n s'.entries → Unlisted n (initializeStore plan s' w).1.entries

/-- The entries, the index and the files of the photo are as before. -/
structure Retained (newestIndex : Int) (s s' : PhotoStore) (w w' : CardWorld) : Prop where
  entries : s'.entries = s.entries
  index : w'.card indexPath = w.card indexPath
  files : ∀ e, getPhoto newestIndex s = some e → ∀ p ∈ ownedPaths e.filename, w'.card p = w.card p

def DeletesWhole (plan : DeletePlan) (newestIndex : Int) (s : PhotoStore) (w : CardWorld) : Prop :=
  let r := deletePhoto plan newestIndex s w
  (r.1 = true → ∃ e, getPhoto newestIndex s = some e ∧ Removed e.filename r.2.1 r.2.2) ∧
    (r.1 = false → Retained newestIndex s r.2.1 w r.2.2)

/-- If the new index is put in place, the entry is the only one of its name, and its JPEG can be
unlinked or is not there. -/
def Removable (plan : DeletePlan) (newestIndex : Int) (s : PhotoStore) (w : CardWorld) : Prop :=
  ∀ k e, s.entries.storageIndex newestIndex = some k → s.entries.list[k]? = some e →
    plan.index.prints = true → Unlisted e.filename (s.entries.erase k) ∧
      (plan.files.photo.ok = true ∨ w.card (photoPath e.filename) = none)

variable {plan : DeletePlan} {newestIndex : Int} {s : PhotoStore} {w : CardWorld} {n : Bytes}
  {u : UnlinkPlan} {x₀ x : Session} {calls : List Call} {l : List Answer}

/-- What is not on the card is not listed by a later start. -/
theorem initializeStore_unlisted {plan : InitPlan} (hn : JpgName n)
    (hjpeg : w.card (photoPath n) = none) (hs : Unlisted n s.entries) :
    Unlisted n (initializeStore plan s w).1.entries := by
  rcases initializeStore_entries plan s w with he | ⟨v, hv, hchecked⟩
  · rwa [he]
  · rintro e he rfl
    have hgone : v.card (photoPath e.filename) = none := by
      rw [hv.card _ (owned_not_start hn (photo_mem_owned _)), hjpeg]
    exact photo_of_complete (hchecked e he).complete hgone

theorem removeFiles_photo (hn : JpgName n) :
    (removeFiles u n w).2.card (photoPath n) =
      if u.photo.ok then none else w.card (photoPath n) := by
  have hsidecar : photoPath n ≠ sidecarPath n := photo_ne_sidecar hn hn
  have hthumbnail : photoPath n ≠ thumbnailPath n := photo_ne_thumbnail hn hn
  have hlater : (removeFiles u n w).2.card (photoPath n) =
      (w.unlink u.photo (photoPath n)).2.card (photoPath n) := by
    unfold removeFiles
    rw [(unlink_within (S := {thumbnailPath n}) u.thumbnail rfl).card _ hthumbnail,
      (unlink_within (S := {sidecarPath n}) u.sidecar rfl).card _ hsidecar]
  rw [hlater, unlink_card_eq]
  split
  · exact Function.update_self ..
  · rfl

/-- A deletion that gets past the index. -/
theorem deletePhoto_done {k : Nat} {e : PhotoEntry}
    (hk : s.entries.storageIndex newestIndex = some k) (he : s.entries.list[k]? = some e)
    (hp : plan.index.prints = true) :
    ∃ v, Replaced indexPath (indexText (s.entries.erase k).list) w v ∧
      deletePhoto plan newestIndex s w = ((removeFiles plan.files e.filename v).1,
        { s with entries := s.entries.erase k }, (removeFiles plan.files e.filename v).2) := by
  obtain ⟨hfst, -, hdone, -⟩ := replaceText_spec plan.index indexPath
    (indexText (s.entries.erase k).list) w
  refine ⟨_, hdone hp, ?_⟩
  unfold FilePlan.prints at hp
  unfold deletePhoto saveIndex
  simp only [hk, he, hfst, hp, Bool.not_true, Bool.false_eq_true, if_false]

theorem deletes_whole (hs : Named s) (w : CardWorld) (plan : DeletePlan) (newestIndex : Int) :
    DeletesWhole plan newestIndex s w ↔ Removable plan newestIndex s w := by
  have hspec := deletePhoto_spec plan newestIndex s w
  unfold DeletesWhole
  cases hk : s.entries.storageIndex newestIndex with
  | none =>
    rw [hspec.refused hk]
    refine iff_of_true ⟨nofun, fun _ => ⟨rfl, rfl, fun _ _ _ _ => rfl⟩⟩ fun k e hk' => ?_
    cases hk.symm.trans hk'
  | some k =>
    obtain ⟨e, he⟩ := storageIndex_get hk
    have hphoto : getPhoto newestIndex s = some e := by rw [getPhoto, hk, Option.bind_some, he]
    have hn : JpgName e.filename := hs e (List.mem_of_getElem? he)
    cases hp : plan.index.prints with
    | false =>
      obtain ⟨hr, hstore, hw⟩ := hspec.failed k hk hp
      refine iff_of_true ⟨fun h => absurd h (by simp [hr]), fun _ => ⟨by rw [hstore], ?_, ?_⟩⟩ ?_
      · exact hw.card _ fun h => index_not_temporary (h ▸ temporary_mem indexPath)
      · intro e' he' p hp'
        obtain rfl := Option.some.inj (hphoto.symm.trans he')
        exact hw.card _ fun h => owned_not_temporary hn hp' (h ▸ temporary_mem indexPath)
      · exact fun _ _ _ _ h => absurd h (by simp [hp])
    | true =>
      obtain ⟨v, hv, hr⟩ := deletePhoto_done (w := w) hk he hp
      have hjpeg := removeFiles_photo (u := plan.files) (w := v) hn
      rw [hv.card_of (owned_ne_index hn (photo_mem_owned _)) fun h =>
        owned_not_temporary hn (photo_mem_owned _) (h ▸ temporary_mem indexPath)] at hjpeg
      have hindex : (removeFiles plan.files e.filename v).2.card indexPath =
          some (indexText (s.entries.erase k).list) := by
        rw [removeFiles_within.card _ fun h => owned_ne_index hn h rfl, hv.card,
          Function.update_self]
      rw [hr]
      constructor
      · rintro ⟨hdone, hfail⟩ k' e' hk' he' -
        obtain rfl := Option.some.inj (hk.symm.trans hk')
        obtain rfl := Option.some.inj (he.symm.trans he')
        cases hres : (removeFiles plan.files e.filename v).1 with
        | true =>
          obtain ⟨e', he', hgone⟩ := hdone hres
          obtain rfl := Option.some.inj (hphoto.symm.trans he')
          refine ⟨hgone.entries, ?_⟩
          by_contra hor
          rw [not_or, Bool.not_eq_true] at hor
          rw [hgone.jpeg, hor.1, if_neg (by simp)] at hjpeg
          exact hor.2 hjpeg.symm
        | false =>
          -- the entry has left a store that is said to be as before
          exact absurd (hfail hres).entries (erase_ne he)
      · intro hremovable
        obtain ⟨hunlisted, hor⟩ := hremovable k e hk he hp
        have hnone : (removeFiles plan.files e.filename v).2.card (photoPath e.filename) = none := by
          rw [hjpeg]
          rcases hor with hok | hgone
          · exact if_pos hok
          · rw [hgone, ite_self]
        have hres : (removeFiles plan.files e.filename v).1 = true := by
          refine removeFiles_fst (hor.imp_right fun hgone => ?_)
          rwa [hv.card_of (owned_ne_index hn (photo_mem_owned _)) fun h =>
            owned_not_temporary hn (photo_mem_owned _) (h ▸ temporary_mem indexPath)]
        refine ⟨fun _ => ⟨e, hphoto, hunlisted, hindex, hnone, fun plan' s' hs' => ?_⟩,
          fun h => absurd h (by simp [hres])⟩
        exact initializeStore_unlisted hn hnone hs'

/-- **A deletion is all or nothing exactly if the photo is removable**, in a store after any
calls. -/
theorem deletes_whole_iff (hb : Begun x₀) (h : Run store x₀ calls l x) (w : CardWorld)
    (plan : DeletePlan) (newestIndex : Int) :
    DeletesWhole plan newestIndex x.1 w ↔ Removable plan newestIndex x.1 w :=
  deletes_whole (run_named hb h) w plan newestIndex

theorem deletes_whole_sample :
    DeletesWhole {} 0 (sampleSession (indexText [sampleEntry])).1
      (sampleSession (indexText [sampleEntry])).2 := by
  have hfacts : (sampleSession (indexText [sampleEntry])).1.storageState = .ready ∧
      (sampleSession (indexText [sampleEntry])).1.entries.list = [sampleEntry] := by
    decide +kernel
  obtain ⟨hready, hlist⟩ := hfacts
  have hb := sampleSession_begun _ hready
  generalize sampleSession (indexText [sampleEntry]) = x at hb hlist
  refine (deletes_whole_iff hb .init x.2 {} 0).2 ?_
  intro k e hk he _
  have hzero : k = 0 := by
    obtain ⟨-, -, rfl⟩ := storageIndex_eq hk
    rw [Entries.count, hlist]
    rfl
  subst hzero
  refine ⟨fun y hy => ?_, .inl rfl⟩
  have hnil : (x.1.entries.erase 0).list = [] := congrArg (List.eraseIdx · 0) hlist
  rw [hnil] at hy
  cases hy

/-- The JPEG's unlink fails: the call says that it has failed, and the entry is gone. -/
theorem unlink_fails_halfway :
    Begun (sampleSession (indexText [sampleEntry])) ∧
      ¬ DeletesWhole { files := { photo := .fails 5 } } 0
        (sampleSession (indexText [sampleEntry])).1 (sampleSession (indexText [sampleEntry])).2 := by
  have hfacts : (sampleSession (indexText [sampleEntry])).1.storageState = .ready ∧
      let r := deletePhoto { files := { photo := .fails 5 } } 0
        (sampleSession (indexText [sampleEntry])).1 (sampleSession (indexText [sampleEntry])).2
      r.1 = false ∧ r.2.1.entries ≠ (sampleSession (indexText [sampleEntry])).1.entries := by
    decide +kernel
  obtain ⟨hready, hfailed, hchanged⟩ := hfacts
  exact ⟨sampleSession_begun _ hready, fun h => hchanged (h.2 hfailed).entries⟩

end RetroLens.Store
