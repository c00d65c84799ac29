import RetroLens.Store.Opened
import RetroLens.Store.Transaction

/-!
# The cards a call goes through

`Phases` describes every card on the way of a save or a deletion, for an
observer who looks only at the index and at the files of its entries: first
nothing of these has changed, and from one rename on the new index stands, the
files of the entries that stay are as they were, and those of a new entry are
complete. `Sound` entries, with different names and complete files, stay sound
on all of these cards.
-/

namespace RetroLens.Store

open Text Disk RetroLens.Core

/-- Different names of photos, with complete files. -/
structure Sound (c : Card Path) (e : Entries) : Prop where
  names : ∀ x ∈ e.list, JpgName x.filename
  distinct : (e.list.map (·.filename)).Nodup
  complete : ∀ x ∈ e.list, completeFiles c x.filename = true

/-- The new index stands, and `New` holds of the entries that it has gained. -/
structure After (New : Card Path → PhotoEntry → Prop) (e e' : Entries) (w : CardWorld)
    (c : Card Path) : Prop where
  index : c indexPath = some (indexText e'.list)
  kept : ∀ x ∈ e.list, x ∈ e'.list → ∀ p ∈ ownedPaths x.filename, c p = w.card p
  gained : ∀ x ∈ e'.list, x ∉ e.list → New c x

/-- The index and the files of the entries are as they were. -/
structure Before (e : Entries) (w : CardWorld) (c : Card Path) : Prop where
  index : c indexPath = w.card indexPath
  kept : ∀ x ∈ e.list, ∀ p ∈ ownedPaths x.filename, c p = w.card p

structure Phases (New : Card Path → PhotoEntry → Prop) (e e' : Entries) (w w' : CardWorld) :
    Prop where
  passed : ∀ c ∈ passed w w', Before e w c ∨ After New e e' w c
  final : e' = e ∧ Before e w w'.card ∨ e' ≠ e ∧ After New e e' w w'.card

variable {New : Card Path → PhotoEntry → Prop} {e e' : Entries} {w w' : CardWorld}
  {c : Card Path} {s : PhotoStore} {n : Bytes} {p : Path}

theorem Before.sound (h : Before e w c) (hs : Sound w.card e) : Sound c e :=
  ⟨hs.names, hs.distinct, fun x hx => by
    rw [completeFiles_congr (h.kept x hx), hs.complete x hx]⟩

/-! ## From the specs of the calls -/

theorem not_listed_of_absent (hs : Sound w.card e) (ha : Absent n w.card) :
    ∀ x ∈ e.list, x.filename ≠ n := by
  rintro x hx rfl
  exact photo_of_complete (hs.complete x hx) (ha _ (photo_mem_owned _))

theorem owned_not_writeSet {x : PhotoEntry} (hx : JpgName x.filename) (hn : JpgName n)
    (hne : x.filename ≠ n) (hp : p ∈ ownedPaths x.filename) : p ∉ writeSet n := by
  rintro (hq | hq)
  · exact owned_disjoint hx hn hne hp hq
  · exact owned_not_temporary hx hp hq

theorem index_not_writeSet (hn : JpgName n) : indexPath ∉ writeSet n := by
  rintro (hq | hq)
  · exact owned_ne_index hn hq rfl
  · exact index_not_temporary hq

/-- Distinct names: what stays is not what the removed entry's name owns. -/
theorem owned_not_owned (hs : Sound c e) {x y : PhotoEntry} (hx : x ∈ e.list) (hy : y ∈ e.list)
    (hne : x.filename ≠ y.filename) (hp : p ∈ ownedPaths x.filename) :
    p ∉ ownedPaths y.filename :=
  owned_disjoint (hs.names x hx) (hs.names y hy) hne hp

/-- A card on which only files of the call have changed. -/
theorem before_of_writeSet (hs : Sound w.card e) (hn : JpgName n)
    (hl : ∀ x ∈ e.list, x.filename ≠ n) (hc : ∀ p ∉ writeSet n, c p = w.card p) : Before e w c :=
  ⟨hc _ (index_not_writeSet hn), fun x hx p hp =>
    hc p (owned_not_writeSet (hs.names x hx) hn (hl x hx) hp)⟩

/-- What a save adds: the entry's files are complete, the thumbnail is the frame. -/
def Added (frame : Frame) (c : Card Path) (x : PhotoEntry) : Prop :=
  completeFiles c x.filename = true ∧ c (thumbnailPath x.filename) = some frame.bytes

theorem completeFiles_placed {encoded text : Bytes} {frame : Frame} (he : encoded ≠ [])
    (ht : text ≠ []) (h1 : c (photoPath n) = some encoded) (h2 : c (sidecarPath n) = some text)
    (h3 : c (thumbnailPath n) = some frame.bytes) : completeFiles c n = true := by
  simp [completeFiles, regularFileWithSize, h1, h2, h3, List.length_pos_iff, he, ht,
    frame.bytes_length, thumbnailSize]

theorem encodePhoto_ne_nil {plan : SavePlan} {photo : Photo} {encodedCapacity : Int}
    {encoded : Bytes} (h : encodePhoto plan photo encodedCapacity s = some encoded) :
    encoded ≠ [] := by
  unfold encodePhoto at h
  split at h
  · cases h
  · have := encodeJpeg_length h
    rintro rfl
    simp at this

theorem erase_ne {k : Nat} {entry : PhotoEntry} (hk : e.list[k]? = some entry) : e.erase k ≠ e := by
  obtain ⟨hlt, -⟩ := List.getElem?_eq_some_iff.1 hk
  intro h
  have := congrArg (fun e : Entries => e.list.length) h
  simp only [Entries.erase, List.length_eraseIdx_of_lt hlt] at this
  omega

theorem addEntry_ne {entry : PhotoEntry} (h : entry ∉ e.list) : e.addEntry entry ≠ e := by
  intro he
  apply h
  rw [← he, addEntry_list]
  simp

theorem stays_not_evicted (hs : Sound c s.entries) {x entry : PhotoEntry}
    (hl : ∀ y ∈ s.entries.list, y.filename ≠ entry.filename) (hx : x ∈ s.entries.list)
    (hx' : x ∈ (s.entries.addEntry entry).list) (hp : p ∈ ownedPaths x.filename) :
    p ∉ evictedPaths s.entries := by
  rintro ⟨old, he, hq⟩
  rcases evicted_spec s.entries entry with ⟨hnone, -⟩ | ⟨old', rest, he', hlist, hadd⟩
  · rw [hnone] at he
    cases he
  · obtain rfl : old' = old := Option.some.inj (he'.symm.trans he)
    have hrest : x ∈ rest := by
      rw [hadd, List.mem_append, List.mem_singleton] at hx'
      exact hx'.resolve_right fun h => hl x hx (by rw [h])
    have hd := hs.distinct
    rw [hlist, List.map_cons, List.nodup_cons] at hd
    refine owned_not_owned hs hx (evicted_mem he) (fun h => hd.1 ?_) hp hq
    exact List.mem_map.2 ⟨x, hrest, h⟩

/-- Once the index is committed, the kept entries' files are as they were and the new
entry's are complete. -/
theorem after_commit {entry : PhotoEntry} {encoded text : Bytes} {frame : Frame} {v u : CardWorld}
    (hs : Sound w.card s.entries) (hn : JpgName entry.filename)
    (hl : ∀ x ∈ s.entries.list, x.filename ≠ entry.filename) (he : encoded ≠ []) (ht : text ≠ [])
    (hv : Within (writeSet entry.filename) w v)
    (hplaced : Restores temporaryPaths (placed entry.filename encoded text frame.bytes w.card) v.card)
    (hu : Replaced indexPath (indexText (s.entries.addEntry entry).list) v u)
    (hc : ∀ p ∉ evictedPaths s.entries, c p = u.card p) :
    After (Added frame) s.entries (s.entries.addEntry entry) w c := by
  have hnamed : Named s := hs.names
  have hview : ∀ {m}, JpgName m → ∀ p ∈ ownedPaths m, p ∉ evictedPaths s.entries →
      c p = v.card p := fun hm p hp hev => by
    rw [hc p hev]
    exact hu.card_of (owned_ne_index hm hp)
      fun h => owned_not_temporary hm hp (h ▸ temporary_mem indexPath)
  refine ⟨?_, fun x hx hx' p hp => ?_, fun x hx hx' => ?_⟩
  · rw [hc _ fun h => evicted_ne_index hnamed h rfl, hu.card, Function.update_self]
  · rw [hview (hs.names x hx) p hp (stays_not_evicted hs hl hx hx' hp)]
    exact hv.card p (owned_not_writeSet (hs.names x hx) hn (hl x hx) hp)
  · obtain rfl := (mem_addEntry hx).resolve_left hx'
    have hfile : ∀ p ∈ ownedPaths x.filename,
        c p = placed x.filename encoded text frame.bytes w.card p := fun p hp => by
      rw [hview hn p hp (owned_not_evicted hnamed hn hl hp)]
      exact hplaced.eq (owned_not_temporary hn hp)
    have h3 := (hfile _ (thumbnail_mem_owned _)).trans placed_thumbnail
    refine ⟨completeFiles_placed he ht ?_ ?_ h3, h3⟩
    · exact (hfile _ (photo_mem_owned _)).trans (placed_photo hn)
    · exact (hfile _ (sidecar_mem_owned _)).trans (placed_sidecar hn)

theorem manifest_ne_nil (s : PhotoStore) (photo : Photo) : photo.manifest s ≠ [] :=
  sidecarText_ne_nil _ _ _ _ _ _ _

/-- **The cards of a save.** -/
theorem savePhoto_phases (plan : SavePlan) (photo : Photo) (encodedCapacity : Int)
    (hs : Sound w.card s.entries)
    (hl : encodePhoto plan photo encodedCapacity s ≠ none →
      ∀ x ∈ s.entries.list, x.filename ≠ photo.filename plan.wall) :
    let r := savePhoto plan photo encodedCapacity s w
    Phases (Added photo.frame) s.entries r.2.1.entries w r.2.2 := by
  have hspec := savePhoto_spec plan photo encodedCapacity s w
  generalize savePhoto plan photo encodedCapacity s w = r at hspec
  dsimp only
  have hsame : Before s.entries w w.card := ⟨rfl, fun _ _ _ _ => rfl⟩
  cases henc : encodePhoto plan photo encodedCapacity s with
  | none =>
    obtain ⟨-, hentries, hw⟩ := hspec.refused henc
    rw [hw, hentries]
    refine ⟨fun c hc => .inl ?_, .inl ⟨rfl, hsame⟩⟩
    have hc := (Within.refl ∅ w).passed hc
    exact ⟨hc _ (by simp), fun x _ p _ => hc p (by simp)⟩
  | some encoded =>
    have hl := hl (by simp [henc])
    obtain ⟨-, hwrite⟩ := hspec.wrote encoded henc
    have hn := jpgName_filename plan.wall photo
    cases hr : plan.writes with
    | false =>
      obtain ⟨hentries, hwithin⟩ := hwrite.failed hr
      rw [entry_filename] at hwithin
      rw [hentries]
      exact ⟨fun c hc => .inl (before_of_writeSet hs hn hl (hwithin.passed hc)),
        .inl ⟨rfl, before_of_writeSet hs hn hl hwithin.card⟩⟩
    | true =>
      obtain ⟨hentries, v, hv, hplaced, ⟨u, hu, hw, -⟩⟩ := hwrite.done hr
      rw [entry_filename] at hv hplaced
      dsimp only at hentries hw
      rw [hentries]
      have hafter : ∀ c : Card Path, (∀ p ∉ evictedPaths s.entries, c p = u.card p) →
          After (Added photo.frame) s.entries (s.entries.addEntry (photo.entry plan.wall)) w c :=
        fun c hc => after_commit hs (by rwa [entry_filename]) (by rwa [entry_filename])
          (encodePhoto_ne_nil henc) (manifest_ne_nil s photo) (by rwa [entry_filename])
          (by rwa [entry_filename]) hu hc
      have hne : s.entries.addEntry (photo.entry plan.wall) ≠ s.entries :=
        addEntry_ne fun h => hl _ h (entry_filename ..)
      refine ⟨fun c hc => ?_, .inr ⟨hne, hafter _ hw.card⟩⟩
      refine (hu.passed hv hw hc).imp (fun h => ?_) (hafter c)
      refine before_of_writeSet hs hn hl fun p hp => h p hp ?_
      rintro rfl
      exact hp (.inr (temporary_mem _))

theorem mem_erase {k : Nat} {x : PhotoEntry} (h : x ∈ (e.erase k).list) : x ∈ e.list :=
  List.mem_of_mem_eraseIdx h

/-- With distinct names, what a deletion keeps has another name than what it removes. -/
theorem erased_name_ne (hs : Sound c e) {k : Nat} {x entry : PhotoEntry}
    (hk : e.list[k]? = some entry) (hx : x ∈ (e.erase k).list) : x.filename ≠ entry.filename := by
  obtain ⟨hlt, rfl⟩ := List.getElem?_eq_some_iff.1 hk
  obtain ⟨i, hi, hne, rfl⟩ := List.mem_eraseIdx_iff_getElem.1 hx
  intro h
  have hd := List.nodup_iff_injective_getElem.1 hs.distinct
  have := @hd ⟨i, by simpa using hi⟩ ⟨k, by simpa using hlt⟩ (by simpa using h)
  exact hne (by simpa using this)

/-- **The cards of a deletion.** -/
theorem deletePhoto_phases (plan : DeletePlan) (newestIndex : Int) (hs : Sound w.card s.entries) :
    let r := deletePhoto plan newestIndex s w
    Phases (fun _ _ => False) s.entries r.2.1.entries w r.2.2 := by
  have hspec := deletePhoto_spec plan newestIndex s w
  generalize deletePhoto plan newestIndex s w = r at hspec
  dsimp only
  have htemp : ∀ c : Card Path, (∀ p ∉ ({indexPath.temporary} : Set Path), c p = w.card p) →
      Before s.entries w c := fun c hc => by
    refine ⟨hc _ fun h => index_not_temporary ⟨_, h⟩, fun x hx p hp => hc p ?_⟩
    rintro rfl
    exact owned_not_temporary (hs.names x hx) hp (temporary_mem _)
  cases hk : s.entries.storageIndex newestIndex with
  | none =>
    rw [hspec.refused hk]
    exact ⟨fun c hc => .inl (htemp c ((Within.refl _ w).passed hc)),
      .inl ⟨rfl, htemp _ fun _ _ => rfl⟩⟩
  | some k =>
    cases hp : plan.index.prints with
    | false =>
      obtain ⟨-, hstore, hwithin⟩ := hspec.failed k hk hp
      rw [hstore]
      exact ⟨fun c hc => .inl (htemp c (hwithin.passed hc)), .inl ⟨rfl, htemp _ hwithin.card⟩⟩
    | true =>
      obtain ⟨hstore, u, entry, hu, hentry, hw, -⟩ := hspec.done k hk hp
      rw [hstore]
      have hmem : entry ∈ s.entries.list := List.mem_of_getElem? hentry
      have hafter : ∀ c : Card Path, (∀ p ∉ ownedPaths entry.filename, c p = u.card p) →
          After (fun _ _ => False) s.entries (s.entries.erase k) w c := fun c hc => by
        refine ⟨?_, fun x hx hx' p hp => ?_, fun x hx hx' => hx' (mem_erase hx)⟩
        · rw [hc _ fun h => owned_ne_index (hs.names _ hmem) h rfl, hu.card, Function.update_self]
        · rw [hc p (owned_not_owned hs hx hmem (erased_name_ne hs hentry hx') hp)]
          exact hu.card_of (owned_ne_index (hs.names x hx) hp)
            fun h => owned_not_temporary (hs.names x hx) hp (h ▸ temporary_mem indexPath)
      refine ⟨fun c hc => ?_, .inr ⟨erase_ne hentry, hafter _ hw.card⟩⟩
      exact (hu.passed (Within.refl {indexPath.temporary} w) hw hc).imp
        (fun h => htemp c fun p hp => h p hp hp) (hafter c)

/-! ## Sound entries -/

/-- A new entry, or one that stays. -/
theorem After.sound (h : After New e e' w c) (hs : Sound w.card e)
    (hnew : ∀ x, New c x → completeFiles c x.filename = true)
    (hnames : ∀ x ∈ e'.list, JpgName x.filename) (hd : (e'.list.map (·.filename)).Nodup) :
    Sound c e' := by
  refine ⟨hnames, hd, fun x hx => ?_⟩
  by_cases hx' : x ∈ e.list
  · rw [completeFiles_congr (h.kept x hx' hx), hs.complete x hx']
  · exact hnew x (h.gained x hx hx')

theorem addEntry_distinct {entry : PhotoEntry} (hs : Sound c e)
    (hl : ∀ x ∈ e.list, x.filename ≠ entry.filename) :
    ((e.addEntry entry).list.map (·.filename)).Nodup := by
  have happ : ∀ l : List PhotoEntry, (l.map (·.filename)).Nodup → l ⊆ e.list →
      ((l ++ [entry]).map (·.filename)).Nodup := fun l hd hsub => by
    rw [List.map_append, List.nodup_append]
    refine ⟨hd, by simp, ?_⟩
    intro a ha b hb
    obtain ⟨x, hx, rfl⟩ := List.mem_map.1 ha
    rw [List.map_singleton, List.mem_singleton] at hb
    rw [hb]
    exact hl x (hsub hx)
  have hd := hs.distinct
  rcases evicted_spec e entry with ⟨-, hadd⟩ | ⟨old, rest, -, hlist, hadd⟩
  · rw [hadd]
    exact happ _ hd fun _ h => h
  · rw [hadd]
    rw [hlist, List.map_cons, List.nodup_cons] at hd
    exact happ _ hd.2 fun _ h => by rw [hlist]; exact List.mem_cons_of_mem _ h

theorem erase_distinct (hs : Sound c e) (k : Nat) : ((e.erase k).list.map (·.filename)).Nodup := by
  rw [Entries.erase]
  exact hs.distinct.sublist ((List.eraseIdx_sublist _ _).map _)

end RetroLens.Store
