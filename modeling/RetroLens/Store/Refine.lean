import RetroLens.Lib.BoundedQueue
import RetroLens.Store.Session

/-!
# The store as a bounded queue

What the photo store is for: a queue of the last photos with their frames,
newest first. A successful save pushes, a successful deletion removes, nothing
else changes the queue. `View` relates a session to its queue; through it
count, lookup and thumbnails are those of the queue.
-/

namespace RetroLens.Store

open Text Disk RetroLens.Core Runs BoundedQueue

abbrev Shots := Queue (PhotoEntry × Frame) kMaxPhotoEntries

/-- What a call with its result does to the queue. -/
def Call.apply (result : Bool) (q : Shots) : Call → Shots
  | .save plan photo _ => if result then q.push (photo.entry plan.wall, photo.frame) else q
  | .delete _ newestIndex => if result then q.remove newestIndex.toNat else q

def replay (q : Shots) (l : List Answer) : Shots := l.foldl (fun q a => a.1.apply a.2 q) q

/-- Every unlink of the call succeeds where the file is there. -/
def Call.unlinks : Call → Bool
  | .save plan _ _ => plan.undoes && plan.evict.ok
  | .delete plan _ => plan.index.cleans && plan.files.ok

def freshUnlinking : Guard Session Call Answer := fun l x call =>
  freshStems l x call ∧ call.unlinks = true

/-- What an observer of the store sees is the queue. -/
structure Shows (early : Prop) (x : Session) (q : Shots) : Prop where
  count : photoCount x.1 = q.size
  photo : ∀ i : Int, getPhoto i x.1 =
    if 0 ≤ i then (q.newest i.toNat).map Prod.fst else none
  thumbnail : ∀ i : Int, loadThumbnail i x.1 x.2 =
    if 0 ≤ i then (q.newest i.toNat).map Prod.snd else none
  index : x.2.card indexPath = some (indexText x.1.entries.list) ∨
    early ∧ loadIndex x.2.card = (x.1.entries, false)

/-- The abstraction relation. -/
structure View (x : Session) (q : Shots) : Prop where
  entries : q.map Prod.fst = ofOldest x.1.entries.list x.1.entries.bound
  frames : ∀ a ∈ q.items,
    (x.2.card (thumbnailPath a.1.filename)).bind readFrame = some a.2

variable {x₀ x : Session} {q q₀ : Shots} {calls : List Call} {l : List Answer} {call : Call}
  {e : Entries} {early : Prop}

/-! ## What the view shows -/

theorem View.mem (h : View x q) {a : PhotoEntry × Frame} (ha : a ∈ q.items) :
    a.1 ∈ x.1.entries.list := by
  have := congrArg Queue.items h.entries
  have hmem : a.1 ∈ (q.map Prod.fst).items := List.mem_map_of_mem ha
  rw [h.entries] at hmem
  exact mem_ofOldest.1 hmem

theorem View.getPhoto (h : View x q) (i : Int) :
    getPhoto i x.1 = if 0 ≤ i then (q.newest i.toNat).map Prod.fst else none := by
  unfold Store.getPhoto Entries.storageIndex Entries.count
  rw [← Queue.map_newest, h.entries]
  by_cases h0 : 0 ≤ i
  · rw [if_pos h0]
    by_cases h1 : i.toNat < x.1.entries.list.length
    · rw [if_neg (by omega), newest_ofOldest _ h1]
      rfl
    · rw [if_pos (by omega)]
      exact (List.getElem?_eq_none (by simpa [ofOldest] using h1)).symm
  · rw [if_pos (by omega), if_neg h0]
    rfl

theorem View.loadThumbnail (h : View x q) (i : Int) :
    loadThumbnail i x.1 x.2 = if 0 ≤ i then (q.newest i.toNat).map Prod.snd else none := by
  unfold Store.loadThumbnail
  rw [h.getPhoto]
  split
  · cases ha : q.newest i.toNat with
    | none => rfl
    | some a => exact h.frames a (Queue.newest_mem ha)
  · rfl

theorem View.shows (h : View x q)
    (hi : x.2.card indexPath = some (indexText x.1.entries.list) ∨
      early ∧ loadIndex x.2.card = (x.1.entries, false)) : Shows early x q := by
  refine ⟨?_, h.getPhoto, h.loadThumbnail, hi⟩
  rw [← Queue.map_size Prod.fst, h.entries, size_ofOldest]
  rfl

/-! ## The operations -/

/-- `addEntry` is the queue's push. -/
theorem push_entries (e : Entries) (entry : PhotoEntry) :
    (ofOldest e.list e.bound).push entry =
      ofOldest (e.addEntry entry).list (e.addEntry entry).bound := by
  ext1
  have hb := e.bound
  have hlist := addEntry_list e entry
  by_cases h : e.count = kMaxPhotoEntries
  · obtain ⟨old, rest, hl⟩ : ∃ old rest, e.list = old :: rest :=
      List.exists_cons_of_length_pos (by rw [← Entries.count, h]; decide)
    rw [if_pos h, hl, List.drop_one, List.tail_cons] at hlist
    have hcap : (old :: rest).length = kMaxPhotoEntries := by rw [← hl]; exact h
    have hpush := push_ofOldest_full entry old hcap (by simpa using hcap.le)
    simp only [hl, hlist]
    exact congrArg Queue.items hpush
  · rw [if_neg h] at hlist
    have hlt : e.list.length < kMaxPhotoEntries := Nat.lt_of_le_of_ne hb h
    simp only [hlist]
    exact congrArg Queue.items (push_ofOldest entry (by simpa using hlt))

/-- `deletePhoto`'s shift is the queue's removal. -/
theorem remove_entries {newestIndex : Int} {k : Nat} (h : e.storageIndex newestIndex = some k) :
    (ofOldest e.list e.bound).remove newestIndex.toNat =
      ofOldest (e.erase k).list (e.erase k).bound := by
  obtain ⟨h0, h1, rfl⟩ := storageIndex_eq h
  exact remove_ofOldest e.bound (by rw [Entries.count] at h1; omega) _

/-- A call that leaves the entries as they are leaves the view. -/
theorem View.before {x' : Session} (h : View x q) (he : x'.1.entries = x.1.entries)
    (hb : Before x.1.entries x.2 x'.2.card) : View x' q := by
  refine ⟨?_, fun a ha => ?_⟩
  · rw [h.entries]
    simp only [he]
  · rw [hb.kept a.1 (h.mem ha) _ (thumbnail_mem_owned _)]
    exact h.frames a ha

/-- A save that stores pushes the photo with its frame; one that fails changes nothing. -/
theorem save_view {plan : SavePlan} {photo : Photo} {encodedCapacity : Int}
    (hs : Sound x.2.card x.1.entries) (hv : View x q)
    (hl : encodePhoto plan photo encodedCapacity x.1 ≠ none →
      ∀ e ∈ x.1.entries.list, e.filename ≠ photo.filename plan.wall) :
    let r := (Call.save plan photo encodedCapacity).run x.1 x.2
    View r.2 ((Call.save plan photo encodedCapacity).apply r.1 q) := by
  have hph := savePhoto_phases plan photo encodedCapacity hs hl
  have hspec := savePhoto_spec plan photo encodedCapacity x.1 x.2
  dsimp only [Call.run, Call.apply] at hph ⊢
  generalize savePhoto plan photo encodedCapacity x.1 x.2 = r at hph hspec ⊢
  obtain ⟨r1, s', w'⟩ := r
  have hsame : r1 = none → s'.entries = x.1.entries →
      View (s', w') (if r1.isSome then q.push (photo.entry plan.wall, photo.frame) else q) := by
    rintro rfl he
    rcases hph.final with ⟨-, hb⟩ | ⟨hne, -⟩
    · exact hv.before he hb
    · exact absurd he hne
  cases henc : encodePhoto plan photo encodedCapacity x.1 with
  | none => exact hsame (hspec.refused henc).1 (hspec.refused henc).2.1
  | some encoded =>
    obtain ⟨hfst, hwrite⟩ := hspec.wrote encoded henc
    cases hr : plan.writes with
    | false => exact hsame (by simpa [hr] using hfst) (hwrite.failed hr).1
    | true =>
      have hentries : s'.entries = x.1.entries.addEntry (photo.entry plan.wall) :=
        (hwrite.done hr).1
      have hnew : photo.entry plan.wall ∉ x.1.entries.list := fun h =>
        hl (by simp [henc]) _ h (entry_filename ..)
      have ha : After (Added photo.frame) x.1.entries s'.entries x.2 w'.card := by
        rcases hph.final with ⟨he, -⟩ | ⟨-, ha⟩
        · exact absurd (hentries.symm.trans he) (addEntry_ne hnew)
        · exact ha
      rw [hr, if_pos rfl] at hfst
      rw [show r1 = some encoded.length from hfst, Option.isSome_some, if_pos rfl]
      have hmap : (q.push (photo.entry plan.wall, photo.frame)).map Prod.fst =
          ofOldest s'.entries.list s'.entries.bound := by
        rw [Queue.map_push, hv.entries, push_entries]
        simp only [hentries]
      refine ⟨hmap, fun a hmem => ?_⟩
      have hstay : a.1 ∈ s'.entries.list := by
        have : a.1 ∈ ((q.push (photo.entry plan.wall, photo.frame)).map Prod.fst).items :=
          List.mem_map_of_mem hmem
        rw [hmap] at this
        exact mem_ofOldest.1 this
      rcases Queue.mem_push hmem with rfl | hold
      · rw [(ha.gained _ hstay hnew).2]
        exact readFrame_bytes _
      · rw [ha.kept a.1 (hv.mem hold) hstay _ (thumbnail_mem_owned _)]
        exact hv.frames a hold

/-- A deletion that succeeds removes one photo; with working unlinks, one that fails changes
nothing. -/
theorem delete_view {plan : DeletePlan} {newestIndex : Int} (hs : Sound x.2.card x.1.entries)
    (hv : View x q) (hu : plan.files.ok = true) :
    let r := (Call.delete plan newestIndex).run x.1 x.2
    View r.2 ((Call.delete plan newestIndex).apply r.1 q) := by
  have hph := deletePhoto_phases plan newestIndex hs
  have hspec := deletePhoto_spec plan newestIndex x.1 x.2
  dsimp only [Call.run, Call.apply] at hph ⊢
  generalize deletePhoto plan newestIndex x.1 x.2 = r at hph hspec ⊢
  obtain ⟨r1, s', w'⟩ := r
  have hsame : r1 = false → s'.entries = x.1.entries →
      View (s', w') (if r1 then q.remove newestIndex.toNat else q) := by
    rintro rfl he
    rcases hph.final with ⟨-, hb⟩ | ⟨hne, -⟩
    · exact hv.before he hb
    · exact absurd he hne
  cases hk : x.1.entries.storageIndex newestIndex with
  | none =>
    have := hspec.refused hk
    exact hsame (congrArg Prod.fst this) (by rw [show s' = x.1 from congrArg (·.2.1) this])
  | some k =>
    cases hp : plan.index.prints with
    | false =>
      obtain ⟨hr, hstore, -⟩ := hspec.failed k hk hp
      exact hsame hr (by rw [show s' = x.1 from hstore])
    | true =>
      obtain ⟨hstore, u, entry, -, hentry, -, hdone⟩ := hspec.done k hk hp
      have hentries : s'.entries = x.1.entries.erase k := congrArg PhotoStore.entries hstore
      have ha : After (fun _ _ => False) x.1.entries s'.entries x.2 w'.card := by
        rcases hph.final with ⟨he, -⟩ | ⟨-, ha⟩
        · exact absurd (hentries.symm.trans he) (erase_ne hentry)
        · exact ha
      rw [show r1 = true from (hdone hu).1, if_pos rfl]
      have hmap : (q.remove newestIndex.toNat).map Prod.fst =
          ofOldest s'.entries.list s'.entries.bound := by
        rw [Queue.map_remove, hv.entries, remove_entries hk]
        simp only [hentries]
      refine ⟨hmap, fun a hmem => ?_⟩
      have hstay : a.1 ∈ s'.entries.list := by
        have : a.1 ∈ ((q.remove newestIndex.toNat).map Prod.fst).items :=
          List.mem_map_of_mem hmem
        rw [hmap] at this
        exact mem_ofOldest.1 this
      have hold := Queue.mem_remove hmem
      rw [ha.kept a.1 (hv.mem hold) hstay _ (thumbnail_mem_owned _)]
      exact hv.frames a hold

/-! ## Runs -/

structure Refines (l : List Answer) (x : Session) (q : Shots) : Prop where
  sound : Sound x.2.card x.1.entries
  view : View x q
  index : x.2.card indexPath = some (indexText x.1.entries.list) ∨
    Quiet l ∧ loadIndex x.2.card = (x.1.entries, false)

theorem thumbnail_of_complete {card : Card Path} {n : Bytes} (h : completeFiles card n = true) :
    ∃ f, (card (thumbnailPath n)).bind readFrame = some f := by
  simp only [completeFiles, Bool.and_eq_true] at h
  have h3 := h.2
  unfold regularFileWithSize at h3
  cases hd : card (thumbnailPath n) with
  | none => simp [hd] at h3
  | some data =>
    simp only [hd, beq_iff_eq] at h3
    exact readFrame_of_length h3

/-- The queue of a store with complete files. -/
theorem exists_view (h : ∀ e ∈ x.1.entries.list, completeFiles x.2.card e.filename = true) :
    ∃ q, View x q := by
  have hframes : ∀ l : List PhotoEntry, (∀ e ∈ l, completeFiles x.2.card e.filename = true) →
      ∃ items : List (PhotoEntry × Frame), items.map Prod.fst = l ∧
        ∀ a ∈ items, (x.2.card (thumbnailPath a.1.filename)).bind readFrame = some a.2 := by
    intro l
    induction l with
    | nil => exact fun _ => ⟨[], rfl, by simp⟩
    | cons e l ih =>
      intro hl
      obtain ⟨items, hmap, hitems⟩ := ih fun e he => hl e (by simp [he])
      obtain ⟨f, hf⟩ := thumbnail_of_complete (hl e (by simp))
      refine ⟨(e, f) :: items, by simp [hmap], fun a ha => ?_⟩
      rcases List.mem_cons.1 ha with rfl | ha
      · exact hf
      · exact hitems a ha
  obtain ⟨items, hmap, hitems⟩ := hframes x.1.entries.list.reverse
    fun e he => h e (List.mem_reverse.1 he)
  have hlen : items.length ≤ kMaxPhotoEntries := by
    have := congrArg List.length hmap
    simp only [List.length_map, List.length_reverse] at this
    rw [this]
    exact x.1.entries.bound
  exact ⟨⟨items, hlen⟩, Queue.ext hmap, hitems⟩

theorem refines_step (h : Refines l x q) (hg : freshUnlinking l x call) :
    Refines (l ++ [(call, (call.run x.1 x.2).1)]) (call.run x.1 x.2).2
      (call.apply (call.run x.1 x.2).1 q) := by
  have hl := unlisted_of_fresh h.sound hg.1
  have hspec := call_spec h.sound hl
  refine ⟨(hspec.sound h.sound).2, ?_, ?_⟩
  · cases call with
    | save plan photo encodedCapacity =>
      refine save_view h.sound h.view fun henc => ?_
      obtain ⟨encoded, he⟩ := Option.ne_none_iff_exists'.1 henc
      exact hl _ (by simp [Call.name, he])
    | delete plan newestIndex =>
      have hu := hg.2
      simp only [Call.unlinks, Bool.and_eq_true] at hu
      exact delete_view h.sound h.view hu.2
  · generalize call.run x.1 x.2 = r at hspec ⊢
    obtain ⟨New, -, hph⟩ := hspec.phases
    rcases hph.final with ⟨he, hb⟩ | ⟨-, ha⟩
    · have hr : r.1 = false := Bool.eq_false_iff.2 fun hr => hspec.success hr he
      rw [hb.index, he]
      exact h.index.imp_right fun hi => ⟨hi.1.append hr,
        loadIndex_congr hi.2 hb.index (hb.sound h.sound).complete⟩
    · exact .inl ha.index

theorem replay_append (q : Shots) (l : List Answer) (call : Call) (result : Bool) :
    replay q (l ++ [(call, result)]) = call.apply result (replay q l) := by
  simp [replay]

/-- **The store is a bounded newest-first queue** of its photos and their frames. -/
theorem store_refines (hb : Begun x₀) (hd : (x₀.1.entries.list.map (·.filename)).Nodup) :
    ∃ q₀ : Shots, Shows True x₀ q₀ ∧ ∀ calls l x, Reach store freshUnlinking x₀ calls l x →
      Shows (Quiet l) x (replay q₀ l) := by
  have ho := hb.opened
  obtain ⟨q₀, hv⟩ := exists_view (ho.sound hd).complete
  have hi : ∀ early : Prop, early → x₀.2.card indexPath = some (indexText x₀.1.entries.list) ∨
      early ∧ loadIndex x₀.2.card = (x₀.1.entries, false) := fun early he =>
    ho.index.elim (fun h => .inr ⟨he, h⟩) .inl
  refine ⟨q₀, hv.shows (hi _ trivial), fun calls l x h => ?_⟩
  have hr := h.inv (I := fun l x => Refines l x (replay q₀ l))
    ⟨ho.sound hd, hv, hi _ quiet_nil⟩ ?_
  · exact hr.view.shows hr.index
  · intro l x call x' o hx hg hstep
    cases hstep
    rw [replay_append]
    exact refines_step hx hg

/-- The session with one photo, and one save. -/
theorem store_refines_sample :
    ∃ q₀ : Shots, Shows True (sampleSession (indexText [sampleEntry])) q₀ ∧
      ∀ calls l x, Reach store freshUnlinking (sampleSession (indexText [sampleEntry])) calls l x →
        Shows (Quiet l) x (replay q₀ l) := by
  have hfacts : (sampleSession (indexText [sampleEntry])).1.storageState = .ready ∧
      ((sampleSession (indexText [sampleEntry])).1.entries.list.map (·.filename)).Nodup := by
    decide +kernel
  exact store_refines (sampleSession_begun _ hfacts.1) hfacts.2

/-- An index with a leading zero is not the printed one, and of two entries with one name the
second loses its thumbnail when the first is deleted. -/
theorem queue_unrestricted :
    (¬ ∀ x₀, Begun x₀ → ∃ q₀, Shows False x₀ q₀) ∧
    (¬ ∀ x₀, Begun x₀ → ∃ q₀ : Shots, Shows True x₀ q₀ ∧
      ∀ calls l x, Reach store freshUnlinking x₀ calls l x → Shows (Quiet l) x (replay q₀ l)) := by
  constructor
  · intro hall
    have hfacts : (sampleSession (48 :: indexText [sampleEntry])).1.storageState = .ready ∧
        (sampleSession (48 :: indexText [sampleEntry])).2.card indexPath ≠
          some (indexText (sampleSession (48 :: indexText [sampleEntry])).1.entries.list) := by
      decide +kernel
    obtain ⟨q₀, h⟩ := hall _ (sampleSession_begun _ hfacts.1)
    exact (h.index.resolve_right fun h => h.1) |> hfacts.2
  · intro hall
    have hfacts : (sampleSession (indexText [sampleEntry, sampleEntry])).1.storageState = .ready ∧
        photoCount (sampleSession (indexText [sampleEntry, sampleEntry])).1 = 2 ∧
        ((Call.delete {} 0).run (sampleSession (indexText [sampleEntry, sampleEntry])).1
          (sampleSession (indexText [sampleEntry, sampleEntry])).2).1 = true ∧
        loadThumbnail 0 ((Call.delete {} 0).run
          (sampleSession (indexText [sampleEntry, sampleEntry])).1
          (sampleSession (indexText [sampleEntry, sampleEntry])).2).2.1 ((Call.delete {} 0).run
          (sampleSession (indexText [sampleEntry, sampleEntry])).1
          (sampleSession (indexText [sampleEntry, sampleEntry])).2).2.2 = none := by
      decide +kernel
    obtain ⟨hready, hcount, hdone, hnone⟩ := hfacts
    obtain ⟨q₀, h0, hrun⟩ := hall _ (sampleSession_begun _ hready)
    have hfresh : freshUnlinking [] (sampleSession (indexText [sampleEntry, sampleEntry]))
        (.delete {} 0) := ⟨fun n hn => by (cases hn), rfl⟩
    have h1 := (hrun _ _ _ (Reach.init.step hfresh rfl)).thumbnail 0
    rw [hnone, List.nil_append, hdone] at h1
    have hsize : q₀.items.length = 2 := h0.count.symm.trans hcount
    simp [replay, Call.apply, Queue.remove, Queue.newest, hsize] at h1

end RetroLens.Store
