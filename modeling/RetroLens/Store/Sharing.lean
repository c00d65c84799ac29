import RetroLens.Store.Session

/-!
# Photos that share files

A save names a photo by the second of the wall clock at the time of the write,
the milliseconds of the request's timestamp and the preset. Two requests whole
seconds apart that are written in the same second get one name, and the second
photo then replaces the first one's files. As long as no save generates the
name of a listed photo, the names stay different and no call touches the files
of a photo that stays.
-/

namespace RetroLens.Store

open Text Disk RetroLens.Core Runs

/-- The timestamp of a save request. -/
def Call.timestamp : Call → Option Int
  | .save _ photo _ => some photo.timestampMs.toInt
  | .delete .. => none

/-- On every card of a call the files of a photo are as before, until the photo has left the
index. -/
def KeepsFiles (s s' : PhotoStore) (w w' : CardWorld) : Prop :=
  ∀ c ∈ passed w w', ∀ e ∈ s.entries.list, (∀ p ∈ ownedPaths e.filename, c p = w.card p) ∨
    (e ∉ s'.entries.list ∧ c indexPath = some (indexText s'.entries.list))

variable {x₀ x : Session} {calls : List Call} {l : List Answer} {call : Call}

theorem keepsFiles_step (hs : Sound x.2.card x.1.entries) (hl : unlistedNames l x call) :
    KeepsFiles x.1 (call.run x.1 x.2).2.1 x.2 (call.run x.1 x.2).2.2 := by
  obtain ⟨New, -, hph⟩ := (call_spec hs hl).phases
  intro c hc e he
  rcases hph.passed c hc with hb | ha
  · exact .inl (hb.kept e he)
  · by_cases hstay : e ∈ (call.run x.1 x.2).2.1.entries.list
    · exact .inl (ha.kept e he hstay)
    · exact .inr ⟨hstay, ha.index⟩

/-- **No two photos share files** in a run in which no save generates a listed name. -/
theorem distinct_files (hb : Begun x₀) (hd : (x₀.1.entries.list.map (·.filename)).Nodup)
    (h : Reach store unlistedNames x₀ calls l x) :
    (x.1.entries.list.map (·.filename)).Nodup ∧ ∀ call, unlistedNames l x call →
      KeepsFiles x.1 (call.run x.1 x.2).2.1 x.2 (call.run x.1 x.2).2.2 := by
  have hs := reach_sound (hb.opened.sound hd) h
  exact ⟨hs.distinct, fun call hl => keepsFiles_step hs hl⟩

theorem distinct_files_sample :
    let x := sampleSession (indexText [sampleEntry])
    let r := sampleSave.run x.1 x.2
    (r.2.1.entries.list.map (·.filename)).Nodup := by
  have hfacts : (sampleSession (indexText [sampleEntry])).1.storageState = .ready ∧
      ((sampleSession (indexText [sampleEntry])).1.entries.list.map (·.filename)).Nodup ∧
      ∀ e ∈ (sampleSession (indexText [sampleEntry])).1.entries.list,
        e.filename ≠ samplePhoto.filename sampleWall := by decide +kernel
  obtain ⟨hready, hd, hne⟩ := hfacts
  have hl : unlistedNames [] (sampleSession (indexText [sampleEntry])) sampleSave := by
    intro n hn
    rw [name_save hn]
    exact hne
  exact (distinct_files (sampleSession_begun _ hready) hd (Reach.init.step hl rfl)).1

/-- A photo requested one second after `samplePhoto`. -/
def laterPhoto : Photo := { samplePhoto with timestampMs := 62007 }

/-- Two requests one second apart, both written within one second of the wall clock. -/
theorem shared_name :
    ¬ ∀ x₀ calls l x, Begun x₀ → (x₀.1.entries.list.map (·.filename)).Nodup →
      (calls.filterMap Call.timestamp).Pairwise (· < ·) → Run store x₀ calls l x →
      (x.1.entries.list.map (·.filename)).Nodup := by
  intro hall
  have hfacts : (sampleSession (indexText [sampleEntry])).1.storageState = .ready ∧
      ((sampleSession (indexText [sampleEntry])).1.entries.list.map (·.filename)).Nodup ∧
      ((store.exec (sampleSession (indexText [sampleEntry]))
        [sampleSave, .save samplePlan laterPhoto 4096]).any fun r =>
          !(r.1.1.entries.list.map (·.filename)).Nodup) = true := by decide +kernel
  obtain ⟨hready, hd, hrun⟩ := hfacts
  obtain ⟨l, x, h, hx⟩ := run_of_exec _ hrun
  simp only [Bool.not_eq_true', decide_eq_false_iff_not] at hx
  exact hx (hall _ _ l x (sampleSession_begun _ hready) hd (by decide) h)

end RetroLens.Store
