import RetroLens.Store.Stages

/-!
# Saves and deletions as transactions

What a whole call does, in phases. Until the new index is in place only the
call's own files and temporary files change; the index changes by one rename;
after it only the files of the entry that left the index do. `SaveSpec` and
`DeleteSpec` are all that later modules know about the two calls.
-/

namespace RetroLens.Store

open Text Disk RetroLens.Core

/-! ## Lists of entries -/

theorem addEntry_list (e : Entries) (x : PhotoEntry) :
    (e.addEntry x).list = (if e.count = kMaxPhotoEntries then e.list.drop 1 else e.list) ++ [x] := by
  unfold Entries.addEntry Entries.count
  split <;> rfl

theorem mem_addEntry {e : Entries} {x y : PhotoEntry} (h : y ∈ (e.addEntry x).list) :
    y ∈ e.list ∨ y = x := by
  rw [addEntry_list, List.mem_append, List.mem_singleton] at h
  refine h.imp_left fun hy => ?_
  split at hy
  · exact List.mem_of_mem_drop hy
  · exact hy

theorem evicted_mem {e : Entries} {old : PhotoEntry} (h : e.evicted = some old) : old ∈ e.list := by
  unfold Entries.evicted at h
  split at h
  · exact List.mem_of_mem_head? h
  · cases h

/-- The oldest entry leaves, or none does. -/
theorem evicted_spec (e : Entries) (x : PhotoEntry) :
    (e.evicted = none ∧ (e.addEntry x).list = e.list ++ [x]) ∨
      ∃ old rest, e.evicted = some old ∧ e.list = old :: rest ∧
        (e.addEntry x).list = rest ++ [x] := by
  rw [addEntry_list]
  unfold Entries.evicted
  by_cases h : e.count = kMaxPhotoEntries
  · right
    obtain ⟨old, rest, hl⟩ : ∃ old rest, e.list = old :: rest :=
      List.exists_cons_of_length_pos (by rw [← Entries.count, h]; decide)
    exact ⟨old, rest, by simp [h, hl], hl, by simp [h, hl]⟩
  · exact .inl ⟨by simp [h], by simp [h]⟩

/-- The files of the entry that a save evicts. -/
def evictedPaths (e : Entries) : Set Path :=
  {p | ∃ old, e.evicted = some old ∧ p ∈ ownedPaths old.filename}

/-! ## Files placed and cleared -/

/-- The card with an entry's three files on it. -/
def placed (n encoded text thumbnail : Bytes) (c : Card Path) : Card Path :=
  Function.update (Function.update (Function.update c (photoPath n) (some encoded))
    (sidecarPath n) (some text)) (thumbnailPath n) (some thumbnail)

structure Cleared (n : Bytes) (c c' : Card Path) : Prop where
  gone : ∀ p ∈ ownedPaths n, c' p = none
  kept : ∀ p ∉ ownedPaths n, c' p = c p

def UnlinkPlan.ok (u : UnlinkPlan) : Bool := u.photo.ok && u.sidecar.ok && u.thumbnail.ok

/-- No file of the name is on the card. -/
def Absent (n : Bytes) (c : Card Path) : Prop := ∀ p ∈ ownedPaths n, c p = none

variable {plan : SavePlan} {n encoded text thumbnail : Bytes} {c : Card Path} {w : CardWorld}
  {s : PhotoStore} {u : UnlinkPlan} {p : Path}

theorem placed_photo (hn : JpgName n) :
    placed n encoded text thumbnail c (photoPath n) = some encoded := by
  rw [placed, Function.update_of_ne (photo_ne_thumbnail hn hn),
    Function.update_of_ne (photo_ne_sidecar hn hn), Function.update_self]

theorem placed_sidecar (hn : JpgName n) :
    placed n encoded text thumbnail c (sidecarPath n) = some text := by
  rw [placed, Function.update_of_ne (sidecar_ne_thumbnail hn hn), Function.update_self]

theorem placed_thumbnail :
    placed n encoded text thumbnail c (thumbnailPath n) = some thumbnail := by
  rw [placed, Function.update_self]

theorem placed_other (hp : p ∉ ownedPaths n) : placed n encoded text thumbnail c p = c p := by
  simp only [ownedPaths, Set.mem_insert_iff, Set.mem_singleton_iff, not_or] at hp
  rw [placed, Function.update_of_ne hp.2.2, Function.update_of_ne hp.2.1,
    Function.update_of_ne hp.1]

/-- Placed files taken away again leave the card as it was before. -/
theorem Cleared.restores {c₁ c₂ : Card Path} (ha : Absent n c)
    (h : Restores temporaryPaths (placed n encoded text thumbnail c) c₁) (hc : Cleared n c₁ c₂) :
    Restores temporaryPaths c c₂ := by
  intro p
  by_cases hp : p ∈ ownedPaths n
  · exact .inl ((hc.gone p hp).trans (ha p hp).symm)
  · rw [hc.kept p hp]
    simpa [placed_other hp] using h p

theorem update₃_cleared {a b d : Path} (h : ∀ q, q ∈ ownedPaths n ↔ q = a ∨ q = b ∨ q = d) :
    Cleared n c (Function.update (Function.update (Function.update c a none) b none) d none) := by
  constructor <;> intro q hq <;> rw [h] at hq
  · by_cases hd : q = d
    · rw [hd, Function.update_self]
    rw [Function.update_of_ne hd]
    by_cases hb : q = b
    · rw [hb, Function.update_self]
    rw [Function.update_of_ne hb]
    rcases hq with rfl | hq | hq
    · exact Function.update_self ..
    · exact absurd hq hb
    · exact absurd hq hd
  · rw [not_or, not_or] at hq
    rw [Function.update_of_ne hq.2.2, Function.update_of_ne hq.2.1, Function.update_of_ne hq.1]

theorem UnlinkPlan.ok_iff :
    u.ok = true ↔ u.photo.ok = true ∧ u.sidecar.ok = true ∧ u.thumbnail.ok = true := by
  simp [UnlinkPlan.ok, and_assoc]

theorem rollBack_cleared (hu : u.ok = true) : Cleared n w.card (rollBack u n w).card := by
  obtain ⟨h1, h2, h3⟩ := UnlinkPlan.ok_iff.1 hu
  simp only [rollBack, unlink_card h1, unlink_card h2, unlink_card h3]
  refine update₃_cleared fun q => ?_
  simp only [ownedPaths, Set.mem_insert_iff, Set.mem_singleton_iff]
  tauto

theorem removeFiles_cleared (hu : u.ok = true) :
    Cleared n w.card (removeFiles u n w).2.card := by
  obtain ⟨h1, h2, h3⟩ := UnlinkPlan.ok_iff.1 hu
  simp only [removeFiles, unlink_card h1, unlink_card h2, unlink_card h3]
  exact update₃_cleared fun q => .rfl

theorem rollBack_within : Within (ownedPaths n) w (rollBack u n w) :=
  ((unlink_within _ (thumbnail_mem_owned n)).trans (unlink_within _ (sidecar_mem_owned n))).trans
    (unlink_within _ (photo_mem_owned n))

theorem removeFiles_within : Within (ownedPaths n) w (removeFiles u n w).2 :=
  ((unlink_within _ (photo_mem_owned n)).trans (unlink_within _ (sidecar_mem_owned n))).trans
    (unlink_within _ (thumbnail_mem_owned n))

@[simp] theorem rollBack_streams : (rollBack u n w).streams = w.streams := by
  simp [rollBack]

@[simp] theorem removeFiles_streams : (removeFiles u n w).2.streams = w.streams := by
  simp [removeFiles]

/-- A photo that is there, or already gone, counts as removed. -/
theorem removeFiles_fst (hu : u.photo.ok = true ∨ w.card (photoPath n) = none) :
    (removeFiles u n w).1 = true := by
  unfold removeFiles World.unlink
  cases h : w.card (photoPath n) with
  | none => simp
  | some data => simp [hu.resolve_right (by simp [h])]

/-! ## savePhoto -/

/-- The file is written and put in place. -/
def FilePlan.puts (f : FilePlan) : Bool := f.fopen.ok && f.fwrite.ok && f.replaces

/-- The text is printed and put in place. -/
def FilePlan.prints (f : FilePlan) : Bool := f.fopen.ok && f.replaces

/-- The unlinks of the temporary file succeed. -/
def FilePlan.cleans (f : FilePlan) : Bool := f.discard.ok && f.cleanup.ok

namespace SavePlan

/-- All four files are put in place. -/
def writes (plan : SavePlan) : Bool :=
  plan.jpeg.puts && plan.sidecar.prints && plan.thumbnail.puts && plan.index.prints

/-- Every unlink of a clean-up or a rollback succeeds. -/
def undoes (plan : SavePlan) : Bool :=
  plan.jpeg.cleans && plan.sidecar.cleans && plan.thumbnail.cleans && plan.index.cleans &&
    plan.undo.ok

/-- A step that is reached loses its stream: its `fwrite` comes back short. -/
def leaks (plan : SavePlan) : Bool :=
  plan.jpeg.leaks || (plan.jpeg.puts && plan.sidecar.prints && plan.thumbnail.leaks)

end SavePlan

/-- The new index is put in place at once, then the evicted entry's files go. -/
structure Committed (plan : SavePlan) (e e' : Entries) (w w' : CardWorld) : Prop where
  index : ∃ v, Replaced indexPath (indexText e'.list) w v ∧ Within (evictedPaths e) v w' ∧
    (plan.evict.ok = true → ∀ p ∈ evictedPaths e, w'.card p = none)

structure CommitSpec (plan : SavePlan) (entry : PhotoEntry) (s : PhotoStore) (w : CardWorld)
    (r : Bool × PhotoStore × CardWorld) : Prop where
  result : r.1 = plan.index.prints
  state : r.2.1.storageState = s.storageState
  streams : r.2.2.streams = w.streams
  failed : r.1 = false → r.2.1.entries = s.entries ∧ Within (writeSet entry.filename) w r.2.2
  undone : r.1 = false → plan.index.cleans = true → plan.undo.ok = true →
    ∃ c, Restores temporaryPaths w.card c ∧ Cleared entry.filename c r.2.2.card
  done : r.1 = true → r.2.1.entries = s.entries.addEntry entry ∧
    Committed plan s.entries (s.entries.addEntry entry) w r.2.2

theorem commitIndex_spec (plan : SavePlan) (entry : PhotoEntry) (s : PhotoStore)
    (w : CardWorld) :
    CommitSpec plan entry s w (commitIndex plan entry s w) := by
  unfold commitIndex commitIndexWith saveIndex
  dsimp only
  generalize he' : s.entries.addEntry entry = e'
  obtain ⟨hfst, hs, hdone, hfail⟩ := replaceText_spec plan.index indexPath
    (indexText e'.list) w
  simp only [hfst]
  cases hr : (plan.index.fopen.ok && plan.index.replaces) with
  | false =>
    obtain ⟨hu, hres⟩ := hfail hr
    simp only [Bool.not_false, if_true]
    refine ⟨hr.symm, rfl, by simp [hs], fun _ => ⟨rfl, ?_⟩, fun _ hc ho => ?_, by simp⟩
    · exact (hu.mono (temporary_subset _)).trans (rollBack_within.mono Set.subset_union_left)
    · simp only [FilePlan.cleans, Bool.and_eq_true] at hc
      refine ⟨_, (hres hc.2 hc.1).mono ?_, rollBack_cleared ho⟩
      rintro q rfl
      exact temporary_mem _
  | true =>
    simp only [Bool.not_true, Bool.false_eq_true, if_false]
    subst he'
    refine ⟨hr.symm, rfl, ?_, by simp, by simp, fun _ => ⟨rfl, ⟨_, hdone hr, ?_, ?_⟩⟩⟩
    · cases s.entries.evicted <;> simp [hs]
    · cases he : s.entries.evicted with
      | none => exact .refl _ _
      | some old => exact removeFiles_within.mono fun q hq => ⟨old, he, hq⟩
    · rintro ho q ⟨old, he, hq⟩
      simp only [he]
      exact (removeFiles_cleared ho).gone q hq

/-! ### What a commit leaves -/

/-- The entries' names are names of photos. -/
def Named (s : PhotoStore) : Prop := ∀ e ∈ s.entries.list, JpgName e.filename

theorem evicted_ne_index (hs : Named s) (hp : p ∈ evictedPaths s.entries) : p ≠ indexPath := by
  obtain ⟨old, he, hp⟩ := hp
  exact owned_ne_index (hs old (evicted_mem he)) hp

theorem owned_not_evicted (hs : Named s) (hn : JpgName n) (hl : ∀ e ∈ s.entries.list, e.filename ≠ n)
    (hp : p ∈ ownedPaths n) : p ∉ evictedPaths s.entries := by
  rintro ⟨old, he, hq⟩
  have hold := evicted_mem he
  exact owned_disjoint (hs old hold) hn (hl old hold) hq hp

/-- A committed index, and nothing else changed but the evicted files. -/
theorem Committed.card_index {e e' : Entries} {w' : CardWorld} (h : Committed plan e e' w w')
    (hi : indexPath ∉ evictedPaths e) : w'.card indexPath = some (indexText e'.list) := by
  obtain ⟨v, hv, hw, -⟩ := h.index
  rw [hw.card _ hi, hv.card, Function.update_self]

theorem Committed.card_of {e e' : Entries} {w' : CardWorld} (h : Committed plan e e' w w')
    (ht : p ∉ temporaryPaths)
    (hi : p ≠ indexPath) (he : p ∉ evictedPaths e) : w'.card p = w.card p := by
  obtain ⟨v, hv, hw, -⟩ := h.index
  rw [hw.card _ he]
  exact hv.card_of hi fun h => ht (h ▸ temporary_mem indexPath)

/-! ### The four steps -/

structure WriteSpec (plan : SavePlan) (entry : PhotoEntry) (encoded text thumbnail : Bytes)
    (s : PhotoStore) (w : CardWorld) (r : Bool × PhotoStore × CardWorld) : Prop where
  result : r.1 = plan.writes
  state : r.2.1.storageState = s.storageState
  streams : r.2.2.streams = w.streams + if plan.leaks then 1 else 0
  failed : r.1 = false → r.2.1.entries = s.entries ∧ Within (writeSet entry.filename) w r.2.2
  undone : r.1 = false → plan.undoes = true → Absent entry.filename w.card →
    Restores temporaryPaths w.card r.2.2.card
  done : r.1 = true → r.2.1.entries = s.entries.addEntry entry ∧
    ∃ v, Within (writeSet entry.filename) w v ∧
      Restores temporaryPaths (placed entry.filename encoded text thumbnail w.card) v.card ∧
      Committed plan s.entries (s.entries.addEntry entry) v r.2.2

/-- The first step that fails has put back what the steps before it wrote. -/
theorem writePhoto_spec (plan : SavePlan) (photo : Photo) (encoded : Bytes) (s : PhotoStore)
    (w : CardWorld) :
    WriteSpec plan (photo.entry plan.wall) encoded
      (photo.manifest s) photo.frame.bytes s w
      (writePhoto plan photo encoded s w) := by
  have hname := jpgName_filename plan.wall photo
  rw [← entry_filename] at hname
  unfold writePhoto writePhotoWith
  generalize photo.manifest s = text
  generalize photo.entry plan.wall = entry at hname
  have hj := writeJpeg_spec (f := plan.jpeg) (n := entry.filename) (s := s) (w := w) encoded
  dsimp only
  generalize writeJpeg plan.jpeg entry.filename encoded s w = rj at hj
  have hjr : rj.1 = plan.jpeg.puts := hj.result
  cases hj1 : rj.1 with
  | false =>
    rw [hj1] at hjr
    simp only [Bool.not_false, if_true]
    refine ⟨by simp [SavePlan.writes, ← hjr, hj1], hj.same.storageState, ?_,
      fun _ => ⟨hj.same.entries, hj.within⟩, fun _ hu _ => ?_, by simp [hj1]⟩
    · simp [hj.streams, SavePlan.leaks, ← hjr]
    · simp only [SavePlan.undoes, FilePlan.cleans, Bool.and_eq_true] at hu
      exact hj.undone hj1 hu.1.1.1.1.2
  | true =>
    rw [hj1] at hjr
    simp only [Bool.not_true, Bool.false_eq_true, if_false]
    have hs := writeSidecar_spec (f := plan.sidecar) (n := entry.filename) (s := rj.2.1)
      (w := rj.2.2) plan.undo text
    generalize writeSidecar plan.sidecar plan.undo entry.filename text rj.2.1 rj.2.2 = rs at hs
    have hsr : rs.1 = plan.sidecar.prints := hs.result
    have hjl : plan.jpeg.leaks = false := by
      simp only [FilePlan.puts] at hjr
      simp [FilePlan.leaks]
      intro
      cases h : plan.jpeg.fwrite.ok <;> simp [h] at hjr ⊢
    have hjd := hj.done hj1
    cases hs1 : rs.1 with
    | false =>
      rw [hs1] at hsr
      simp only [Bool.not_false, if_true]
      refine ⟨by simp [SavePlan.writes, ← hsr, hs1], (hj.same.trans hs.same).storageState, ?_,
        fun _ => ⟨(hj.same.trans hs.same).entries, hj.within.trans hs.within⟩,
        fun _ hu ha => ?_, by simp [hs1]⟩
      · simp [hs.streams, hj.streams, SavePlan.leaks, ← hsr, hjl]
      · simp only [SavePlan.undoes, FilePlan.cleans, UnlinkPlan.ok, Bool.and_eq_true] at hu
        exact (hjd.undo (ha _ (photo_mem_owned _))).trans (hs.undone hs1 hu.1.1.1.2.2 hu.2.1.1)
    | true =>
      rw [hs1] at hsr
      simp only [Bool.not_true, Bool.false_eq_true, if_false]
      have ht := writeThumbnail_spec (f := plan.thumbnail) (n := entry.filename) (s := rs.2.1)
        (w := rs.2.2) plan.undo photo.frame
      generalize writeThumbnail plan.thumbnail plan.undo entry.filename photo.frame rs.2.1 rs.2.2
        = rt at ht
      have htr : rt.1 = plan.thumbnail.puts := ht.result
      have hsd := (hjd.update _ _).trans (hs.done hs1)
      have hsame := (hj.same.trans hs.same).trans ht.same
      have hwithin := (hj.within.trans hs.within).trans ht.within
      have hstreams : rt.2.2.streams = w.streams + if plan.leaks then 1 else 0 := by
        simp [ht.streams, hs.streams, hj.streams, SavePlan.leaks, ← hsr, ← hjr, hjl]
      cases ht1 : rt.1 with
      | false =>
        rw [ht1] at htr
        simp only [Bool.not_false, if_true]
        refine ⟨by simp [SavePlan.writes, ← htr, ht1], hsame.storageState, hstreams,
          fun _ => ⟨hsame.entries, hwithin⟩, fun _ hu ha => ?_, by simp [ht1]⟩
        simp only [SavePlan.undoes, FilePlan.cleans, UnlinkPlan.ok, Bool.and_eq_true] at hu
        have hside : Function.update w.card (photoPath entry.filename) (some encoded)
            (sidecarPath entry.filename) = none := by
          rw [Function.update_of_ne (photo_ne_sidecar hname hname).symm]
          exact ha _ (sidecar_mem_owned _)
        exact ((hsd.undo hside).undo (ha _ (photo_mem_owned _))).trans
          (ht.undone ht1 hu.1.1.2.2 hu.2.1.2 hu.2.1.1)
      | true =>
        rw [ht1] at htr
        simp only [Bool.not_true, Bool.false_eq_true, if_false]
        have hc := commitIndex_spec plan entry rt.2.1 rt.2.2
        have htd := (hsd.update _ _).trans (ht.done ht1)
        refine ⟨by simp [hc.result, SavePlan.writes, ← htr, ← hsr, ← hjr],
          hc.state.trans hsame.storageState, hc.streams.trans hstreams, fun h => ?_,
          fun h hu ha => ?_, fun h => ?_⟩
        · exact ⟨(hc.failed h).1.trans hsame.entries, hwithin.trans (hc.failed h).2⟩
        · simp only [SavePlan.undoes, Bool.and_eq_true] at hu
          obtain ⟨c, hrest, hcl⟩ := hc.undone h hu.1.2 hu.2
          exact Cleared.restores ha (htd.trans hrest) hcl
        · have hd := hc.done h
          rw [hsame.entries] at hd
          exact ⟨hd.1, rt.2.2, hwithin, htd, hd.2⟩

structure SaveSpec (plan : SavePlan) (photo : Photo) (encodedCapacity : Int) (s : PhotoStore)
    (w : CardWorld) (r : Option Nat × PhotoStore × CardWorld) : Prop where
  refused : encodePhoto plan photo encodedCapacity s = none →
    r.1 = none ∧ r.2.1.entries = s.entries ∧ r.2.2 = w
  wrote : ∀ encoded, encodePhoto plan photo encodedCapacity s = some encoded →
    (r.1 = if plan.writes then some encoded.length else none) ∧
      WriteSpec plan (photo.entry plan.wall) encoded
        (photo.manifest s) photo.frame.bytes s w (plan.writes, r.2)

/-- **What `savePhoto` does**: nothing, or its four steps. -/
theorem savePhoto_spec (plan : SavePlan) (photo : Photo) (encodedCapacity : Int) (s : PhotoStore)
    (w : CardWorld) : SaveSpec plan photo encodedCapacity s w
      (savePhoto plan photo encodedCapacity s w) := by
  have hcongr : encodePhoto plan photo encodedCapacity
      { s with writeStage := .encode, lastError := 0 } =
        encodePhoto plan photo encodedCapacity s := rfl
  unfold savePhoto savePhotoWith
  simp only [hcongr]
  cases h : encodePhoto plan photo encodedCapacity s with
  | none =>
    refine ⟨fun _ => ?_, fun encoded he => by simp [h] at he⟩
    dsimp only
    split <;> exact ⟨rfl, rfl, rfl⟩
  | some encoded =>
    refine ⟨fun he => by simp [h] at he, fun encoded' he => ?_⟩
    obtain rfl : encoded = encoded' := Option.some.inj (h.symm.trans he)
    have hw := writePhoto_spec plan photo encoded
      { s with writeStage := .encode, lastError := 0 } w
    dsimp only at hw ⊢
    generalize writePhoto plan photo encoded { s with writeStage := .encode, lastError := 0 } w = r
      at hw
    have hr : (plan.writes, r.2) = r := by rw [← hw.result]
    refine ⟨by simp only [hw.result], ?_⟩
    simp only [hr]
    exact ⟨hw.result, hw.state, hw.streams, hw.failed, hw.undone, hw.done⟩

/-! ## deletePhoto -/

structure DeleteSpec (plan : DeletePlan) (newestIndex : Int) (s : PhotoStore) (w : CardWorld)
    (r : Bool × PhotoStore × CardWorld) : Prop where
  refused : s.entries.storageIndex newestIndex = none → r = (false, s, w)
  failed : ∀ k, s.entries.storageIndex newestIndex = some k → plan.index.prints = false →
    r.1 = false ∧ r.2.1 = s ∧ Untouched indexPath w r.2.2
  done : ∀ k, s.entries.storageIndex newestIndex = some k → plan.index.prints = true →
    r.2.1 = { s with entries := s.entries.erase k } ∧
      ∃ v entry, Replaced indexPath (indexText (s.entries.erase k).list) w v ∧
        s.entries.list[k]? = some entry ∧
        Within (ownedPaths entry.filename) v r.2.2 ∧
        (plan.files.ok = true → r.1 = true ∧ Cleared entry.filename v.card r.2.2.card)

theorem storageIndex_eq {e : Entries} {newestIndex : Int} {k : Nat}
    (h : e.storageIndex newestIndex = some k) :
    0 ≤ newestIndex ∧ newestIndex < e.count ∧ k = e.count - 1 - newestIndex.toNat := by
  unfold Entries.storageIndex at h
  split at h
  · cases h
  · exact ⟨by omega, by omega, (Option.some.inj h).symm⟩

theorem storageIndex_get {e : Entries} {newestIndex : Int} {k : Nat}
    (h : e.storageIndex newestIndex = some k) : ∃ entry, e.list[k]? = some entry := by
  obtain ⟨h0, h1, rfl⟩ := storageIndex_eq h
  unfold Entries.count at *
  exact ⟨_, List.getElem?_eq_getElem (by omega)⟩

/-- **What `deletePhoto` does**: nothing, or the new index and then the unlinks. -/
theorem deletePhoto_spec (plan : DeletePlan) (newestIndex : Int) (s : PhotoStore) (w : CardWorld) :
    DeleteSpec plan newestIndex s w (deletePhoto plan newestIndex s w) := by
  unfold deletePhoto
  cases h : s.entries.storageIndex newestIndex with
  | none => exact ⟨fun _ => rfl, by simp [h], by simp [h]⟩
  | some k =>
    obtain ⟨entry, hentry⟩ := storageIndex_get h
    simp only [hentry, saveIndex]
    obtain ⟨hfst, -, hdone, hfail⟩ := replaceText_spec plan.index indexPath
      (indexText (s.entries.erase k).list) w
    simp only [hfst]
    cases hp : (plan.index.fopen.ok && plan.index.replaces) with
    | false =>
      refine ⟨by simp [h], fun _ _ _ => ⟨rfl, rfl, (hfail hp).1⟩, fun _ _ hd => ?_⟩
      exact absurd (hp.symm.trans hd) (by decide)
    | true =>
      refine ⟨by simp [h], fun _ _ hd => absurd (hp.symm.trans hd) (by decide), fun k' hk' _ => ?_⟩
      obtain rfl : k = k' := Option.some.inj (h.symm.trans hk')
      refine ⟨rfl, _, entry, hdone hp, hentry, removeFiles_within, fun hu => ⟨?_, ?_⟩⟩
      · exact removeFiles_fst (.inl (UnlinkPlan.ok_iff.1 hu).1)
      · exact removeFiles_cleared hu

end RetroLens.Store
