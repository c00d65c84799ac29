import RetroLens.Lib.Runs
import RetroLens.Store.Atomic
import RetroLens.Store.Phases

/-!
# Sessions

A session is an opened store and its card under any sequence of saves and
deletions, as a machine whose events are the calls. What one call does to a
session with sound entries is `Call.Spec`; what a run keeps follows by the run
rule.
-/

namespace RetroLens.Store

open Text Disk RetroLens.Core Runs

inductive Call where
  | save (plan : SavePlan) (photo : Photo) (encodedCapacity : Int)
  | delete (plan : DeletePlan) (newestIndex : Int)

namespace Call

/-- The call, with whether it succeeds. -/
def run : Call → Step
  | save plan photo encodedCapacity => fun s w =>
    let r := savePhoto plan photo encodedCapacity s w
    (r.1.isSome, r.2)
  | delete plan newestIndex => deletePhoto plan newestIndex

/-- The name that a call generates. -/
def name (s : PhotoStore) : Call → Option Bytes
  | save plan photo encodedCapacity =>
    (encodePhoto plan photo encodedCapacity s).map fun _ => photo.filename plan.wall
  | delete .. => none

end Call

abbrev Session := PhotoStore × CardWorld

/-- A call and whether it succeeded. -/
abbrev Answer := Call × Bool

/-- A call is a step; its action is the call with its result. -/
def store : Machine Session Call Answer where
  step x call := let r := call.run x.1 x.2; some (r.2, [(call, r.1)])

/-- No call has succeeded. -/
def Quiet (l : List Answer) : Prop := ∀ a ∈ l, a.2 = false

/-- No generated stem is in use on the card. -/
def freshStems : Guard Session Call Answer := fun _ x call =>
  ∀ n ∈ call.name x.1, Absent n x.2.card

/-- No generated name is that of an entry. -/
def unlistedNames : Guard Session Call Answer := fun _ x call =>
  ∀ n ∈ call.name x.1, ∀ e ∈ x.1.entries.list, e.filename ≠ n

/-- A session that `initialize` has begun. -/
structure Begun (x : Session) : Prop where
  start : ∃ plan s w, initializeStore plan s w = x
  ready : x.1.storageState = .ready

theorem Begun.opened {x : Session} (h : Begun x) : Opened x.1 x.2 := by
  obtain ⟨plan, s, w, rfl⟩ := h.start
  exact initializeStore_opened h.ready

/-- What a call does, seen by an observer of the index and the entries' files. -/
structure Call.Spec (call : Call) (s : PhotoStore) (w : CardWorld)
    (r : Bool × PhotoStore × CardWorld) : Prop where
  phases : ∃ New : Card Path → PhotoEntry → Prop,
    (∀ c x, New c x → completeFiles c x.filename = true) ∧
      Phases New s.entries r.2.1.entries w r.2.2
  names : ∀ x ∈ r.2.1.entries.list, x ∈ s.entries.list ∨ x.filename ∈ call.name s
  distinct : (r.2.1.entries.list.map (·.filename)).Nodup
  success : r.1 = true → r.2.1.entries ≠ s.entries

variable {x x' x₀ : Session} {call : Call} {calls : List Call} {l o : List Answer}

theorem quiet_nil : Quiet [] := fun _ h => by cases h

theorem Quiet.append {result : Bool} (h : Quiet l) (hr : result = false) :
    Quiet (l ++ [(call, result)]) := by
  intro a ha
  rcases List.mem_append.1 ha with ha | ha
  · exact h a ha
  · rw [List.mem_singleton.1 ha]
    exact hr

theorem name_save {plan : SavePlan} {photo : Photo} {encodedCapacity : Int} {s : PhotoStore}
    {n : Bytes} (h : n ∈ (Call.save plan photo encodedCapacity).name s) :
    n = photo.filename plan.wall := by
  obtain ⟨_, -, h⟩ := Option.map_eq_some_iff.1 h
  exact h.symm

theorem name_jpg {s : PhotoStore} {n : Bytes} (h : n ∈ call.name s) : IndexName n := by
  cases call with
  | delete => cases h
  | save plan photo encodedCapacity =>
    rw [name_save h]
    exact indexName_filename _ _

theorem call_spec (hs : Sound x.2.card x.1.entries)
    (hl : ∀ n ∈ call.name x.1, ∀ e ∈ x.1.entries.list, e.filename ≠ n) :
    call.Spec x.1 x.2 (call.run x.1 x.2) := by
  cases call with
  | save plan photo encodedCapacity =>
    have hname : ∀ encoded, encodePhoto plan photo encodedCapacity x.1 = some encoded →
        photo.filename plan.wall ∈ (Call.save plan photo encodedCapacity).name x.1 :=
      fun encoded h => by simp [Call.name, h]
    have hl' : encodePhoto plan photo encodedCapacity x.1 ≠ none →
        ∀ e ∈ x.1.entries.list, e.filename ≠ photo.filename plan.wall := fun h => by
      obtain ⟨encoded, he⟩ := Option.ne_none_iff_exists'.1 h
      exact hl _ (hname encoded he)
    have hph := savePhoto_phases plan photo encodedCapacity hs hl'
    have hspec := savePhoto_spec plan photo encodedCapacity x.1 x.2
    simp only [Call.run]
    generalize savePhoto plan photo encodedCapacity x.1 x.2 = r at hph hspec
    have hsame : r.1.isSome = false → r.2.1.entries = x.1.entries →
        (Call.save plan photo encodedCapacity).Spec x.1 x.2 (r.1.isSome, r.2) := fun hr h =>
      ⟨⟨_, fun _ _ h => h.1, hph⟩, fun e he => .inl (h ▸ he), h ▸ hs.distinct, by simp [hr]⟩
    cases henc : encodePhoto plan photo encodedCapacity x.1 with
    | none => exact hsame (by simp [(hspec.refused henc).1]) (hspec.refused henc).2.1
    | some encoded =>
      obtain ⟨hfst, hwrite⟩ := hspec.wrote encoded henc
      cases hr : plan.writes with
      | false => exact hsame (by simp [hfst, hr]) (hwrite.failed hr).1
      | true =>
        obtain ⟨hentries, -⟩ := hwrite.done hr
        dsimp only at hentries
        refine ⟨⟨_, fun _ _ h => h.1, hph⟩, fun e he => ?_, ?_, fun _ => ?_⟩
        · rw [hentries] at he
          refine (mem_addEntry he).imp_right ?_
          rintro rfl
          rw [entry_filename]
          exact hname encoded henc
        · rw [hentries]
          refine addEntry_distinct hs ?_
          rw [entry_filename]
          exact hl' (by simp [henc])
        · rw [hentries]
          exact addEntry_ne fun h => hl' (by simp [henc]) _ h (entry_filename ..)
  | delete plan newestIndex =>
    have hph := deletePhoto_phases plan newestIndex hs
    have hspec := deletePhoto_spec plan newestIndex x.1 x.2
    simp only [Call.run]
    generalize deletePhoto plan newestIndex x.1 x.2 = r at hph hspec
    have hsame : r.1 = false → r.2.1.entries = x.1.entries →
        (Call.delete plan newestIndex).Spec x.1 x.2 r := fun hr h =>
      ⟨⟨_, fun _ _ h => h.elim, hph⟩, fun e he => .inl (h ▸ he), h ▸ hs.distinct, by simp [hr]⟩
    cases hk : x.1.entries.storageIndex newestIndex with
    | none => exact hsame (by rw [hspec.refused hk]) (by rw [hspec.refused hk])
    | some k =>
      cases hp : plan.index.prints with
      | false =>
        obtain ⟨hr, hstore, -⟩ := hspec.failed k hk hp
        exact hsame hr (by rw [hstore])
      | true =>
        obtain ⟨hstore, u, entry, -, hentry, -⟩ := hspec.done k hk hp
        refine ⟨⟨_, fun _ _ h => h.elim, hph⟩, fun e he => .inl ?_, ?_, fun _ => ?_⟩
        · rw [hstore] at he
          exact mem_erase he
        · rw [hstore]
          exact erase_distinct hs k
        · rw [hstore]
          exact erase_ne hentry

/-- Every card a call goes through holds the files of the entries before it, or of those after. -/
theorem Call.Spec.sound {s : PhotoStore} {w : CardWorld} {r : Bool × PhotoStore × CardWorld}
    (h : call.Spec s w r) (hs : Sound w.card s.entries) :
    (∀ c ∈ passed w r.2.2, Before s.entries w c ∧ Sound c s.entries ∨
      c indexPath = some (indexText r.2.1.entries.list) ∧ Sound c r.2.1.entries) ∧
      Sound r.2.2.card r.2.1.entries := by
  obtain ⟨New, hnew, hph⟩ := h.phases
  have hnames : ∀ x ∈ r.2.1.entries.list, JpgName x.filename := fun x hx =>
    (h.names x hx).elim (hs.names x) fun hn => (name_jpg hn).jpg
  have hafter : ∀ {c}, After New s.entries r.2.1.entries w c → Sound c r.2.1.entries := fun ha =>
    ha.sound hs (hnew _) hnames h.distinct
  refine ⟨fun c hc => (hph.passed c hc).imp (fun hb => ⟨hb, hb.sound hs⟩)
    fun ha => ⟨ha.index, hafter ha⟩, ?_⟩
  rcases hph.final with ⟨he, hb⟩ | ⟨-, ha⟩
  · rw [he]
    exact hb.sound hs
  · exact hafter ha

/-! ## The names -/

/-- Whatever `initialize` comes to, the entries have names that belong to photos. -/
theorem initializeStore_named {plan : InitPlan} {s : PhotoStore} {w : CardWorld} (hs : Named s) :
    Named (initializeStore plan s w).1 := by
  rcases initializeStore_entries plan s w with he | ⟨v, -, hchecked⟩
  · exact fun e h => hs e (he ▸ h)
  · exact fun e h => (hchecked e h).jpg

theorem Begun.named (h : Begun x) : Named x.1 := fun e he => (h.opened.checked e he).jpg

theorem savePhoto_named (plan : SavePlan) (photo : Photo) (encodedCapacity : Int) {s : PhotoStore}
    (w : CardWorld) (hs : Named s) : Named (savePhoto plan photo encodedCapacity s w).2.1 := by
  have hspec := savePhoto_spec plan photo encodedCapacity s w
  generalize savePhoto plan photo encodedCapacity s w = r at hspec ⊢
  have same : r.2.1.entries = s.entries → Named r.2.1 := fun he e h => hs e (he ▸ h)
  cases henc : encodePhoto plan photo encodedCapacity s with
  | none => exact same (hspec.refused henc).2.1
  | some encoded =>
    obtain ⟨-, hwrite⟩ := hspec.wrote encoded henc
    cases hw : plan.writes with
    | false => exact same (hwrite.failed hw).1
    | true =>
      intro e he
      rw [show r.2.1.entries = _ from (hwrite.done hw).1] at he
      rcases mem_addEntry he with he | rfl
      · exact hs e he
      · rw [entry_filename]
        exact jpgName_filename ..

theorem deletePhoto_named (plan : DeletePlan) (newestIndex : Int) {s : PhotoStore} (w : CardWorld)
    (hs : Named s) : Named (deletePhoto plan newestIndex s w).2.1 := by
  have hspec := deletePhoto_spec plan newestIndex s w
  generalize deletePhoto plan newestIndex s w = r at hspec ⊢
  cases hk : s.entries.storageIndex newestIndex with
  | none =>
    rw [hspec.refused hk]
    exact hs
  | some k =>
    cases hp : plan.index.prints with
    | false =>
      rw [(hspec.failed k hk hp).2.1]
      exact hs
    | true =>
      rw [(hspec.done k hk hp).1]
      exact fun e he => hs e (List.mem_of_mem_eraseIdx he)

theorem call_named (call : Call) {s : PhotoStore} (w : CardWorld) (hs : Named s) :
    Named (call.run s w).2.1 := by
  cases call with
  | save plan photo encodedCapacity => exact savePhoto_named plan photo encodedCapacity w hs
  | delete plan newestIndex => exact deletePhoto_named plan newestIndex w hs

/-- Whatever calls a store has seen, its entries have names that belong to photos. -/
theorem run_named (hb : Begun x₀) (h : Run store x₀ calls l x) : Named x.1 := by
  refine h.inv_state (I := fun x => Named x.1) hb.named ?_
  intro l x call x' o hs _ hstep
  cases hstep
  exact call_named call x.2 hs

/-! ## Sound entries -/

theorem Opened.sound {s : PhotoStore} {w : CardWorld} (h : Opened s w)
    (hd : (s.entries.list.map (·.filename)).Nodup) : Sound w.card s.entries :=
  ⟨fun e he => (h.checked e he).jpg, hd, fun e he => (h.checked e he).complete⟩

/-- **Runs keep the entries sound** as long as no save generates the name of an entry. -/
theorem reach_sound (h0 : Sound x₀.2.card x₀.1.entries)
    (h : Reach store unlistedNames x₀ calls l x) : Sound x.2.card x.1.entries := by
  refine h.inv_state (I := fun x => Sound x.2.card x.1.entries) h0 ?_
  intro l x call x' o hs hg hstep
  cases hstep
  exact ((call_spec hs hg).sound hs).2

/-- A fresh stem is not the name of an entry. -/
theorem unlisted_of_fresh (hs : Sound x.2.card x.1.entries) (h : freshStems l x call) :
    unlistedNames l x call := fun n hn => not_listed_of_absent hs (h n hn)

/-! ## The thumbnails -/

section

variable {s s' : PhotoStore} {w w' : CardWorld} {newestIndex : Int} {e : PhotoEntry}

theorem getPhoto_mem (h : getPhoto newestIndex s = some e) : e ∈ s.entries.list := by
  obtain ⟨k, -, h⟩ := Option.bind_eq_some_iff.1 h
  exact List.mem_of_getElem? h

theorem getPhoto_congr (he : s'.entries = s.entries) :
    getPhoto newestIndex s' = getPhoto newestIndex s := by
  unfold getPhoto
  rw [he]

/-- The thumbnail of a place depends on the entries and one file. -/
theorem loadThumbnail_congr (he : s'.entries = s.entries)
    (hc : ∀ e, getPhoto newestIndex s = some e →
      w'.card (thumbnailPath e.filename) = w.card (thumbnailPath e.filename)) :
    loadThumbnail newestIndex s' w' = loadThumbnail newestIndex s w := by
  unfold loadThumbnail
  rw [getPhoto_congr he]
  cases h : getPhoto newestIndex s with
  | none => rfl
  | some e => rw [Option.bind_some, Option.bind_some, hc e h]

/-- The entry added last is the newest. -/
theorem getPhoto_newest (h : s'.entries = s.entries.addEntry e) : getPhoto 0 s' = some e := by
  have hlist := addEntry_list s.entries e
  generalize s.entries.addEntry e = added at h hlist
  have hcount : added.count = (if s.entries.count = kMaxPhotoEntries then s.entries.list.drop 1
      else s.entries.list).length + 1 := by
    rw [Entries.count, hlist, List.length_append, List.length_singleton]
  unfold getPhoto Entries.storageIndex
  rw [h, if_neg (by omega), Option.bind_some, hcount, hlist]
  simp

/-- A save that fails keeps the entries. -/
theorem unsaved_entries (plan : SavePlan) (photo : Photo) (encodedCapacity : Int) (s : PhotoStore)
    (w : CardWorld)
    (hw : plan.writes = false ∨ encodePhoto plan photo encodedCapacity s = none) :
    let r := savePhoto plan photo encodedCapacity s w
    r.1 = none ∧ r.2.1.entries = s.entries := by
  have hspec := savePhoto_spec plan photo encodedCapacity s w
  dsimp only
  generalize savePhoto plan photo encodedCapacity s w = r at hspec ⊢
  cases henc : encodePhoto plan photo encodedCapacity s with
  | none => exact ⟨(hspec.refused henc).1, (hspec.refused henc).2.1⟩
  | some encoded =>
    obtain ⟨h1, hwrite⟩ := hspec.wrote encoded henc
    have hfail : plan.writes = false := hw.resolve_right (by simp [henc])
    exact ⟨by simpa [hfail] using h1, (hwrite.failed hfail).1⟩

/-- Where a save fails, only files of the name that it generated have changed. -/
theorem unsaved_thumbnail (plan : SavePlan) (photo : Photo) (encodedCapacity : Int)
    (w : CardWorld) (hs : Named s)
    (hw : plan.writes = false ∨ encodePhoto plan photo encodedCapacity s = none)
    (hn : encodePhoto plan photo encodedCapacity s ≠ none → ∀ e, getPhoto newestIndex s = some e →
      e.filename ≠ photo.filename plan.wall) :
    let r := savePhoto plan photo encodedCapacity s w
    loadThumbnail newestIndex r.2.1 r.2.2 = loadThumbnail newestIndex s w := by
  have hspec := savePhoto_spec plan photo encodedCapacity s w
  have hentries := (unsaved_entries plan photo encodedCapacity s w hw).2
  dsimp only at hentries ⊢
  generalize savePhoto plan photo encodedCapacity s w = r at hspec hentries ⊢
  refine loadThumbnail_congr hentries fun e he => ?_
  cases henc : encodePhoto plan photo encodedCapacity s with
  | none => rw [(hspec.refused henc).2.2]
  | some encoded =>
    have hwithin := ((hspec.wrote encoded henc).2.failed (hw.resolve_right (by simp [henc]))).2
    rw [entry_filename] at hwithin
    exact hwithin.card _ (owned_not_writeSet (hs e (getPhoto_mem he)) (jpgName_filename ..)
      (hn (by simp [henc]) e he) (thumbnail_mem_owned _))

/-- A save that stores leaves its photo as the newest, with its frame as the thumbnail. -/
theorem saved_thumbnail (plan : SavePlan) (photo : Photo) (encodedCapacity : Int)
    (w : CardWorld) (hs : Named s) (hw : plan.writes = true)
    (henc : encodePhoto plan photo encodedCapacity s ≠ none)
    (hn : ∀ old, s.entries.evicted = some old → old.filename ≠ photo.filename plan.wall) :
    let r := savePhoto plan photo encodedCapacity s w
    r.1.isSome = true ∧ r.2.1.entries = s.entries.addEntry (photo.entry plan.wall) ∧
      loadThumbnail 0 r.2.1 r.2.2 = some photo.frame := by
  have hspec := savePhoto_spec plan photo encodedCapacity s w
  dsimp only
  generalize savePhoto plan photo encodedCapacity s w = r at hspec ⊢
  obtain ⟨encoded, henc⟩ := Option.ne_none_iff_exists'.1 henc
  obtain ⟨hresult, hwrite⟩ := hspec.wrote encoded henc
  obtain ⟨hentries, v, -, hplaced, hcommit⟩ := hwrite.done hw
  dsimp only at hentries hplaced hcommit
  rw [entry_filename] at hplaced
  have hjpg := jpgName_filename plan.wall photo
  have hmem := thumbnail_mem_owned (photo.filename plan.wall)
  have hkept : thumbnailPath (photo.filename plan.wall) ∉ evictedPaths s.entries := by
    rintro ⟨old, ho, hp⟩
    exact owned_disjoint (hs old (evicted_mem ho)) hjpg (hn old ho) hp hmem
  refine ⟨by rw [hresult, if_pos hw]; rfl, hentries, ?_⟩
  unfold loadThumbnail
  rw [getPhoto_newest hentries, Option.bind_some, entry_filename,
    hcommit.card_of (owned_not_temporary hjpg hmem) (owned_ne_index hjpg hmem) hkept,
    hplaced.eq (owned_not_temporary hjpg hmem), placed_thumbnail]
  exact readFrame_bytes _

end

/-! ## A session on a card with one photo -/

/-- `initialize` on a card with the photo's files and `index.txt`. -/
def sampleSession (index : Bytes) : Session :=
  initializeStore {} (PhotoStore.create (some (ascii "/mnt/sdcard")) none none)
    { card := Function.update sampleCard indexPath (some index) }

theorem sampleSession_begun (index : Bytes) (h : (sampleSession index).1.storageState = .ready) :
    Begun (sampleSession index) := ⟨⟨_, _, _, rfl⟩, h⟩

def sampleSave : Call := .save samplePlan samplePhoto 4096

end RetroLens.Store
