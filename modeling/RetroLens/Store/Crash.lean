import RetroLens.Store.Session

/-!
# Crashes

Wherever a session is cut short, the index on the card is that of the entries
before or after the call that was going on, each of these entries has its
three files, and the next `initialize` loads them without a rebuild. Until a
call has succeeded, the index may still be the file that the session began
with. The names at the beginning have to be different and must not hold `|` or
a line end: neither is checked when an index is loaded or rebuilt.
-/

namespace RetroLens.Store

open Text Disk RetroLens.Core Runs

/-- The index file is printed from the entries; or, while `early` holds, it is the file that
the session `x₀` began with, and they are the entries it began with. -/
def IndexOf (x₀ : Session) (early : Prop) (c : Card Path) (e : Entries) : Prop :=
  c indexPath = some (indexText e.list) ∨
    early ∧ c indexPath = x₀.2.card indexPath ∧ e = x₀.1.entries

/-- What a card is worth after a crash: the entries' files, and what `initialize` makes of it. -/
structure Recovers (c : Card Path) (e : Entries) : Prop where
  complete : ∀ x ∈ e.list, completeFiles c x.filename = true
  load : (loadIndex c).1.list = e.list.map PhotoEntry.reread ∧ (loadIndex c).2 = false
  start : ∀ (plan : InitPlan) (s : PhotoStore), let r := initializeStore plan s { card := c }
    r.1.storageState ∈ [.invalidRoot, .directoryFailed, .insufficientSpace, .writeProbeFailed] ∨
      (r.1.storageState = .ready ∧ r.1.entries.list = e.list.map PhotoEntry.reread ∧
        r.2.card indexPath = c indexPath)

structure OnCard (x₀ : Session) (early : Prop) (c : Card Path) (e : Entries) : Prop where
  index : IndexOf x₀ early c e
  recovers : Recovers c e

/-- What a run keeps. -/
structure Consistent (x₀ : Session) (l : List Answer) (x : Session) : Prop where
  sound : Sound x.2.card x.1.entries
  names : ∀ e ∈ x.1.entries.list, IndexName e.filename
  index : IndexOf x₀ (Quiet l) x.2.card x.1.entries

variable {x₀ x : Session} {calls : List Call} {l : List Answer} {call : Call} {c : Card Path}
  {e : Entries} {early : Prop}

theorem Recovers.of_load (hc : ∀ x ∈ e.list, completeFiles c x.filename = true)
    (hl : (loadIndex c).1.list = e.list.map PhotoEntry.reread ∧ (loadIndex c).2 = false) :
    Recovers c e := by
  refine ⟨hc, hl, fun plan s => ?_⟩
  have hload : loadIndex c = ((loadIndex c).1, false) := Prod.ext rfl hl.2
  refine (initializeStore_reload (w := { card := c }) hload).imp_right ?_
  rintro ⟨hready, hentries, hindex⟩
  exact ⟨hready, by rw [hentries, hl.1], hindex⟩

theorem Opened.reread {s : PhotoStore} {w : CardWorld} (h : Opened s w) :
    s.entries.list.map PhotoEntry.reread = s.entries.list := by
  refine (List.map_congr_left fun e he => ?_).trans (List.map_id _)
  obtain ⟨h0, h1⟩ := (h.checked e he).preset
  exact reread_eq h0 h1

/-- Sound entries with the index that is theirs are recovered. -/
theorem recovers_of_index (ho : Opened x₀.1 x₀.2) (hs : Sound c e)
    (hn : ∀ x ∈ e.list, IndexName x.filename) (hi : IndexOf x₀ early c e) : Recovers c e := by
  refine .of_load hs.complete ?_
  rcases hi with hi | ⟨-, hi, rfl⟩
  · exact loadIndex_indexText hi hn hs.complete
  · rcases ho.index with hload | hprinted
    · rw [loadIndex_congr hload hi hs.complete, ho.reread]
      exact ⟨rfl, rfl⟩
    · exact loadIndex_indexText (hi.trans hprinted) hn hs.complete

theorem Opened.consistent (ho : Opened x₀.1 x₀.2)
    (hplain : ∀ e ∈ x₀.1.entries.list, 124 ∉ e.filename ∧ 10 ∉ e.filename)
    (hd : (x₀.1.entries.list.map (·.filename)).Nodup) : Consistent x₀ [] x₀ := by
  refine ⟨ho.sound hd, fun e he => ?_, .inr ⟨quiet_nil, rfl, rfl⟩⟩
  have hc := ho.checked e he
  refine ⟨hc.valid, hc.length, fun c hmem => ⟨?_, ?_, hc.cstring c hmem⟩⟩
  · rintro rfl
    exact (hplain e he).1 hmem
  · rintro rfl
    exact (hplain e he).2 hmem

/-- One call: the cards on its way, and what it keeps. -/
theorem consistent_step (ho : Opened x₀.1 x₀.2) (h : Consistent x₀ l x)
    (hf : freshStems l x call) :
    (∀ c ∈ passed x.2 (call.run x.1 x.2).2.2, OnCard x₀ (Quiet l) c x.1.entries ∨
      OnCard x₀ False c (call.run x.1 x.2).2.1.entries) ∧
      Consistent x₀ (l ++ [(call, (call.run x.1 x.2).1)]) (call.run x.1 x.2).2 := by
  have hspec := call_spec h.sound (unlisted_of_fresh h.sound hf)
  generalize call.run x.1 x.2 = r at hspec
  obtain ⟨hpassed, hsound⟩ := hspec.sound h.sound
  have hnames : ∀ e ∈ r.2.1.entries.list, IndexName e.filename := fun e he =>
    (hspec.names e he).elim (h.names e) name_jpg
  constructor
  · intro c hc
    refine (hpassed c hc).imp (fun hb => ?_) fun ha => ?_
    · have hi : IndexOf x₀ (Quiet l) c x.1.entries := by
        rw [IndexOf, hb.1.index]
        exact h.index
      exact ⟨hi, recovers_of_index ho hb.2 h.names hi⟩
    · have hi : IndexOf x₀ False c r.2.1.entries := .inl ha.1
      exact ⟨hi, recovers_of_index ho ha.2 hnames hi⟩
  · refine ⟨hsound, hnames, ?_⟩
    obtain ⟨New, -, hph⟩ := hspec.phases
    rcases hph.final with ⟨he, hb⟩ | ⟨-, ha⟩
    · have hfalse : r.1 ≠ true := fun hr => hspec.success hr he
      rw [IndexOf, he, hb.index]
      refine h.index.imp_right fun hi => ⟨?_, hi.2⟩
      exact hi.1.append (by simpa using hfalse)
    · exact .inl ha.index

theorem reach_consistent (ho : Opened x₀.1 x₀.2) (h0 : Consistent x₀ [] x₀)
    (h : Reach store freshStems x₀ calls l x) : Consistent x₀ l x := by
  refine h.inv (I := fun l x => Consistent x₀ l x) h0 ?_
  intro l x call x' o hx hg hstep
  cases hstep
  exact (consistent_step ho hx hg).2

/-- **A session may be cut short anywhere.** -/
theorem crash_consistent (hb : Begun x₀)
    (hplain : ∀ e ∈ x₀.1.entries.list, 124 ∉ e.filename ∧ 10 ∉ e.filename)
    (hd : (x₀.1.entries.list.map (·.filename)).Nodup)
    (h : Reach store freshStems x₀ calls l x) :
    OnCard x₀ (Quiet l) x.2.card x.1.entries ∧
      ∀ call, freshStems l x call → ∀ c ∈ passed x.2 (call.run x.1 x.2).2.2,
        OnCard x₀ (Quiet l) c x.1.entries ∨
          OnCard x₀ False c (call.run x.1 x.2).2.1.entries := by
  have ho := hb.opened
  have hx := reach_consistent ho (ho.consistent hplain hd) h
  exact ⟨⟨hx.index, recovers_of_index ho hx.sound hx.names hx.index⟩,
    fun call hf => (consistent_step ho hx hf).1⟩

/-- The session with one photo, after one more. -/
theorem crash_consistent_sample :
    let x := sampleSession (indexText [sampleEntry])
    let r := sampleSave.run x.1 x.2
    OnCard x (Quiet [(sampleSave, r.1)]) r.2.2.card r.2.1.entries := by
  have hfacts : (sampleSession (indexText [sampleEntry])).1.storageState = .ready ∧
      (∀ e ∈ (sampleSession (indexText [sampleEntry])).1.entries.list,
        124 ∉ e.filename ∧ 10 ∉ e.filename) ∧
      ((sampleSession (indexText [sampleEntry])).1.entries.list.map (·.filename)).Nodup ∧
      (∀ p ∈ [photoPath (samplePhoto.filename sampleWall),
        sidecarPath (samplePhoto.filename sampleWall),
        thumbnailPath (samplePhoto.filename sampleWall)],
        (sampleSession (indexText [sampleEntry])).2.card p = none) := by decide +kernel
  obtain ⟨hready, hplain, hd, habsent⟩ := hfacts
  have hfresh : freshStems [] (sampleSession (indexText [sampleEntry])) sampleSave := by
    intro n hn
    rw [name_save hn]
    rintro p (rfl | rfl | rfl) <;> exact habsent _ (by simp [samplePlan])
  exact (crash_consistent (sampleSession_begun _ hready) hplain hd (Reach.init.step hfresh rfl)).1

/-- An index with a leading zero is accepted as it stands, and an index that names a photo
twice leaves an entry without files once the other is deleted. -/
theorem crash_unrestricted :
    (¬ ∀ x₀ calls l x, Begun x₀ →
      (∀ e ∈ x₀.1.entries.list, 124 ∉ e.filename ∧ 10 ∉ e.filename) →
      Reach store freshStems x₀ calls l x →
      x.2.card indexPath = some (indexText x.1.entries.list)) ∧
    (¬ ∀ x₀ calls l x, Begun x₀ →
      (∀ e ∈ x₀.1.entries.list, 124 ∉ e.filename ∧ 10 ∉ e.filename) →
      Reach store freshStems x₀ calls l x →
      ∀ e ∈ x.1.entries.list, completeFiles x.2.card e.filename = true) := by
  constructor
  · intro hall
    have hfacts : (sampleSession (48 :: indexText [sampleEntry])).1.storageState = .ready ∧
        (∀ e ∈ (sampleSession (48 :: indexText [sampleEntry])).1.entries.list,
          124 ∉ e.filename ∧ 10 ∉ e.filename) ∧
        (sampleSession (48 :: indexText [sampleEntry])).2.card indexPath ≠
          some (indexText (sampleSession (48 :: indexText [sampleEntry])).1.entries.list) := by
      decide +kernel
    exact hfacts.2.2 (hall _ [] [] _ (sampleSession_begun _ hfacts.1) hfacts.2.1 .init)
  · intro hall
    have hfacts : (sampleSession (indexText [sampleEntry, sampleEntry])).1.storageState = .ready ∧
        (∀ e ∈ (sampleSession (indexText [sampleEntry, sampleEntry])).1.entries.list,
          124 ∉ e.filename ∧ 10 ∉ e.filename) ∧
        ¬ ∀ e ∈ ((Call.delete {} 0).run (sampleSession (indexText [sampleEntry, sampleEntry])).1
            (sampleSession (indexText [sampleEntry, sampleEntry])).2).2.1.entries.list,
          completeFiles ((Call.delete {} 0).run
            (sampleSession (indexText [sampleEntry, sampleEntry])).1
            (sampleSession (indexText [sampleEntry, sampleEntry])).2).2.2.card e.filename = true := by
      decide +kernel
    have hfresh : freshStems [] (sampleSession (indexText [sampleEntry, sampleEntry]))
        (.delete {} 0) := fun n hn => by cases hn
    exact hfacts.2.2 (hall _ _ _ _ (sampleSession_begun _ hfacts.1) hfacts.2.1
      (Reach.init.step hfresh rfl))

end RetroLens.Store
