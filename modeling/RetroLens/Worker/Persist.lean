import RetroLens.Store.SettingsFile
import RetroLens.Worker.Gate
import RetroLens.Worker.Ranges

/-!
# What `stop` leaves on the card

Every operation that changes a persisted field marks the settings dirty, so
clean settings are those of the file, or the defaults where there is none, and
`stop` writes dirty ones. It does so only while `storageReady_` is set, and a
photo that is refused for lack of space resets it: then the changes of the
session are lost.
-/

namespace RetroLens.Worker

open Text Disk RetroLens.Core Store Runs

variable {c c' c₁ : Screen} {card card' : Card Path} {r : RuntimeSettings}

/-! ## The settings of the worker -/

/-- Settings read from the file are those of the worker. It has no field for the motion. -/
def Holds (r : RuntimeSettings) (c : Screen) : Prop :=
  RuntimeSettings.Same { r with motion := 2 } (settingsLocked c)

/-- The file holds the worker's settings, or there is none and they are the defaults. -/
def Persisted (card : Card Path) (c : Screen) : Prop :=
  (∃ r, loadSettings card = some r ∧ Holds r c) ∨ (loadSettings card = none ∧ Holds {} c)

theorem Persisted.congr (h : Persisted card c) (hcard : card' settingsPath = card settingsPath)
    (hc : settingsLocked c' = settingsLocked c) : Persisted card' c' := by
  unfold Persisted Holds at h ⊢
  rw [loadSettings_congr hcard, hc]
  exact h

theorem settingsLocked_same (h : Screen.SameSettings c c') :
    settingsLocked c' = settingsLocked c := by
  simp only [settingsLocked, h.style, h.diagnostics]

/-- **A choice that changes a persisted field marks the settings dirty.** -/
theorem Choice.dirty (h : Choice c c') : c'.settingsDirty = true ∨
    c'.settingsDirty = c.settingsDirty ∧ settingsLocked c' = settingsLocked c := by
  cases h with
  | none same => exact .inr ⟨same.settingsDirty, settingsLocked_same same.toSameSettings⟩
  | select style range same => exact .inl same.settingsDirty
  | parameter index range same =>
    exact .inr ⟨same.settingsDirty, (settingsLocked_same same.toSameSettings).trans rfl⟩
  | adjust direction same => exact .inl same.settingsDirty
  | favorite same => exact .inl same.settingsDirty
  | diagnostics on same => exact .inl same.settingsDirty

theorem call_dirty (filtered : Frame) (call : UiCall) (sh : Shared) :
    (call.run filtered sh).screen.settingsDirty = true ∨
      (call.run filtered sh).screen.settingsDirty = sh.screen.settingsDirty ∧
        settingsLocked (call.run filtered sh).screen = settingsLocked sh.screen := by
  rcases UiCall.run_choice filtered call sh with ⟨jpeg, timestampMs, rfl⟩ | ⟨-, hc⟩
  · have hs := submitJpeg_settings jpeg timestampMs sh.screen
    exact .inr ⟨hs.settingsDirty, settingsLocked_same hs⟩
  · exact hc.dirty

theorem applySettings_holds (settings : RuntimeSettings) (state : PhotoStorageState)
    (freeBytes : Int) (p : PhotoStore) (c : Screen) :
    Holds settings (installStore state (some settings) freeBytes p c) :=
  ⟨rfl, rfl, ⟨rfl, rfl⟩, rfl, fun _ _ => rfl, rfl, rfl⟩

theorem installStore_dirty (state : PhotoStorageState) (settings : Option RuntimeSettings)
    (freeBytes : Int) (p : PhotoStore) (c : Screen) :
    (installStore state settings freeBytes p c).settingsDirty = c.settingsDirty := by
  cases settings <;> rfl

/-- The job of a store's call leaves the settings file alone. -/
theorem callStore_settings {job : Job} {work : Work} {buffer : Frame} {p : PhotoStore}
    {w : CardWorld} {x : JobResult × Frame × PhotoStore × CardWorld}
    (h : callStore job work buffer p w = some x) :
    x.2.2.2.card settingsPath = w.card settingsPath := by
  unfold callStore at h
  split at h
  · cases h
    exact savePhoto_settings ..
  · split at h <;> cases h <;> rfl
  · cases h
    exact deletePhoto_settings ..
  · cases h
    rfl
  · cases h

/-! ## The sections of a run -/

variable {s s' s₀ : DisplayProbeWorker} {l o : List Act} {es : List Event}

/-- The opening of a store that gets Ready is seen at one step only. -/
theorem initialized_step {e : Event} (hs : worker.step s e = some (s', o))
    (h : .initialized .ready ∈ o) : s.photo.pc.early = true ∧
      ∃ plan readable, e = .photo (.initializeStore plan readable) := by
  obtain ⟨plan, readable, state, settings, he, hpc, -⟩ := step_opens hs h rfl
  exact ⟨by rw [hpc]; rfl, plan, readable, he⟩

theorem initialized_before {e : Event} (hs : worker.step s e = some (s', o))
    (he : ∀ plan readable, e ≠ .photo (.initializeStore plan readable))
    (h : .initialized .ready ∈ l ++ o) : .initialized .ready ∈ l := by
  refine (List.mem_append.1 h).resolve_right fun ho => ?_
  obtain ⟨-, plan, readable, rfl⟩ := initialized_step hs ho
  exact he plan readable rfl

theorem photo_step {e : PhotoEvent} {v : PhotoView} (hv : e.run s.photoView = some v) :
    worker.step s (.photo e) = some ({ s with shared := v.shared, photo := v.photo },
      e.acts s.photoView v) := by
  show Option.map _ (e.run s.photoView) = _
  rw [hv]
  rfl

/-- Where the thread is, given what was seen of the opening. -/
structure Seen (l : List Act) (s : DisplayProbeWorker) : Prop where
  early : s.photo.pc.early = true → .initialized .ready ∉ l
  ready : ∀ state settings, s.photo.pc = .initialized state settings →
    .initialized .ready ∈ l → state = .ready

theorem Seen.photo (h : Seen l s) {e : PhotoEvent} {v : PhotoView}
    (hv : e.run s.photoView = some v) :
    Seen (l ++ e.acts s.photoView v) { s with shared := v.shared, photo := v.photo } := by
  have hstep : e.Step s.shared s.photo v := PhotoEvent.run_step hv
  cases hstep with
  | configure event pc eq =>
    have hbefore := initialized_before (l := l) (photo_step hv) (by rw [event]; simp)
    subst eq
    exact ⟨fun _ hm => h.early (by rw [pc]; rfl) (hbefore hm), fun _ _ hi => by cases hi⟩
  | opened plan readable status event pc eq =>
    subst event
    have hnot : .initialized .ready ∉ l := h.early (by rw [pc]; rfl)
    obtain ⟨state, settings, hpc⟩ := openStore_pc plan readable status s.photo
    have hpc' : s.photoView.photo.pc = .configured status := pc
    subst eq
    refine ⟨fun he => ?_, fun state' settings' hi hm => ?_⟩
    · rw [hpc] at he
      cases he
    · have hi' : (openStore plan readable status s.photo).pc = .initialized state' settings' := hi
      have hm := (List.mem_append.1 hm).resolve_left hnot
      cases status with
      | ready =>
        simp only [PhotoEvent.acts, hpc', hi', List.mem_singleton, Act.initialized.injEq] at hm
        exact hm.symm
      | initializing | rootUnavailable | directoryFailed | writeFailed | insufficientSpace | other =>
        simp [PhotoEvent.acts, hpc'] at hm
  | exit event pc running eq => exact eq ▸ ⟨(fun he => by cases he), fun _ _ hi => by cases hi⟩
  | install freeBytes state settings event pc eq =>
    exact eq ▸ ⟨(fun he => by cases he), fun _ _ hi => by cases hi⟩
  | take event pc pending eq => exact eq ▸ ⟨(fun he => by cases he), fun _ _ hi => by cases hi⟩
  | call job event pc eq => exact eq ▸ ⟨(fun he => by cases he), fun _ _ hi => by cases hi⟩
  | finish job work r event pc call eq =>
    exact eq ▸ ⟨(fun he => by cases he), fun _ _ hi => by cases hi⟩
  | handBack job result event pc eq =>
    exact eq ▸ ⟨(fun he => by cases he), fun _ _ hi => by cases hi⟩
  | publish job result now freeBytes event pc eq =>
    exact eq ▸ ⟨(fun he => by cases he), fun _ _ hi => by cases hi⟩

theorem Seen.step (h : Seen l s) (hh : Handoff s) {e : Event}
    (hs : worker.step s e = some (s', o)) : Seen (l ++ o) s' := by
  cases e with
  | ui call =>
    have hbefore := initialized_before (l := l) hs (by simp)
    cases hs
    exact ⟨fun he hm => h.early he (hbefore hm), fun _ _ hi hm => h.ready _ _ hi (hbefore hm)⟩
  | frame e =>
    have hbefore := initialized_before (l := l) hs (by simp)
    obtain ⟨v, hv, hs⟩ := Option.map_eq_some_iff.1 hs
    cases hs
    exact ⟨fun he hm => h.early he (hbefore hm), fun _ _ hi hm => h.ready _ _ hi (hbefore hm)⟩
  | photo e =>
    obtain ⟨v, hv, hs⟩ := Option.map_eq_some_iff.1 hs
    cases hs
    exact h.photo hv
  | owner created plan =>
    obtain ⟨v, hv, hs⟩ := Option.map_eq_some_iff.1 hs
    cases hs
    rw [List.append_nil]
    rcases (hh.owner_keeps hv).pc with hpc | ⟨hpc, hpc'⟩
    · exact ⟨fun he => h.early (hpc ▸ he), fun _ _ hi => h.ready _ _ (hpc ▸ hi)⟩
    · refine ⟨fun _ => h.early (by rw [hpc]; rfl), fun _ _ hi => ?_⟩
      rw [hpc'] at hi
      cases hi

theorem fresh_seen (h : Fresh s) : Seen [] s := by
  obtain ⟨now, root, model, version, status, memory, card, rfl⟩ := h
  exact ⟨fun _ hm => (by cases hm), fun _ _ hi => (by cases hi)⟩

/-! ## Clean settings -/

/-- The settings file, if there is one, can be read when the store opens. -/
def opensFile : Guard DisplayProbeWorker Event Act := fun _ s e =>
  ∀ plan readable, e = .photo (.initializeStore plan readable) →
    readable = true ∨ s.photo.world.card settingsPath = none

/-- Clean settings are the defaults until the store is open, and those of the file from then on. -/
structure OnFile (l : List Act) (s : DisplayProbeWorker) : Prop where
  defaults : s.photo.pc.opening = true → s.shared.screen.settingsDirty = false →
    Holds {} s.shared.screen
  loaded : ∀ settings, s.photo.pc = .initialized .ready settings → s.control ≠ .stopped →
    settings = loadSettings s.photo.world.card
  kept : s.photo.pc.opening = false → .initialized .ready ∈ l → s.control ≠ .stopped →
    s.shared.screen.settingsDirty = false → Persisted s.photo.world.card s.shared.screen

/-- A step that leaves the settings and their file alone, or marks the settings dirty. -/
theorem OnFile.change {l' : List Act} (h : OnFile l s)
    (hl : .initialized .ready ∈ l' → .initialized .ready ∈ l)
    (hpc : s'.photo.pc = s.photo.pc ∨ s.photo.pc.opening = false ∧ s'.photo.pc.opening = false)
    (hcontrol : s'.control ≠ .stopped → s.control ≠ .stopped ∧
      s'.photo.world.card settingsPath = s.photo.world.card settingsPath)
    (hdirty : s'.shared.screen.settingsDirty = true ∨
      s'.shared.screen.settingsDirty = s.shared.screen.settingsDirty ∧
        settingsLocked s'.shared.screen = settingsLocked s.shared.screen) : OnFile l' s' := by
  have hclean : s'.shared.screen.settingsDirty = false → s.shared.screen.settingsDirty = false ∧
      settingsLocked s'.shared.screen = settingsLocked s.shared.screen := fun hd => by
    rcases hdirty with h' | ⟨h', hsame⟩
    · rw [hd] at h'
      cases h'
    · exact ⟨h' ▸ hd, hsame⟩
  have hopening : s'.photo.pc.opening = true → s'.photo.pc = s.photo.pc := fun ho => by
    rcases hpc with hpc | ⟨-, hpc⟩
    · exact hpc
    · rw [ho] at hpc
      cases hpc
  refine ⟨fun ho hd => ?_, fun settings hi hc => ?_, fun ho hm hc hd => ?_⟩
  · obtain ⟨hd', hsame⟩ := hclean hd
    rw [hopening ho] at ho
    unfold Holds
    rw [hsame]
    exact h.defaults ho hd'
  · have hpc' := hopening (by rw [hi]; rfl)
    obtain ⟨hc', hcard⟩ := hcontrol hc
    rw [h.loaded settings (hpc' ▸ hi) hc', loadSettings_congr hcard]
  · obtain ⟨hc', hcard⟩ := hcontrol hc
    obtain ⟨hd', hsame⟩ := hclean hd
    have ho' : s.photo.pc.opening = false := by
      rcases hpc with hpc | ⟨hpc, -⟩
      · rw [← hpc]
        exact ho
      · exact hpc
    exact (h.kept ho' (hl hm) hc' hd').congr hcard hsame

/-- A section of the photo thread that works on a job. -/
theorem OnFile.work {l' : List Act} {v : PhotoView} (h : OnFile l s)
    (hl : .initialized .ready ∈ l' → .initialized .ready ∈ l)
    (hpc : s.photo.pc.opening = false) (hpc' : v.photo.pc.opening = false)
    (hcard : v.photo.world.card settingsPath = s.photo.world.card settingsPath)
    (hsame : Screen.SameSettings s.shared.screen v.shared.screen) :
    OnFile l' { s with shared := v.shared, photo := v.photo } :=
  h.change hl (.inr ⟨hpc, hpc'⟩) (fun hc => ⟨hc, hcard⟩)
    (.inr ⟨hsame.settingsDirty, settingsLocked_same hsame⟩)

/-- What the opening leaves in the thread: the file's settings, where the store got Ready. -/
theorem openStore_loaded {plan : InitPlan} {readable : Bool} {status : StorageProbeStatus}
    {p : PhotoThread} {settings : Option RuntimeSettings}
    (hread : readable = true ∨ p.world.card settingsPath = none)
    (h : (openStore plan readable status p).pc = .initialized .ready settings) :
    settings = loadSettings (openStore plan readable status p).world.card := by
  cases status with
  | ready =>
    simp only [openStore, PhotoLoop.initialized.injEq] at h ⊢
    obtain ⟨hready, rfl⟩ := h
    by_cases hr : readable = true
    · rw [if_pos ⟨hready, hr⟩]
    · rw [if_neg fun hn => hr hn.2]
      have hnone := hread.resolve_left hr
      rw [← initializeStore_settings hready] at hnone
      exact (loadSettings_none.2 hnone).symm
  | initializing | rootUnavailable | directoryFailed | writeFailed | insufficientSpace | other =>
    simp [openStore] at h

theorem OnFile.photo (h : OnFile l s) (hseen : Seen l s) {e : PhotoEvent}
    (hg : opensFile l s (.photo e)) {v : PhotoView} (hv : e.run s.photoView = some v) :
    OnFile (l ++ e.acts s.photoView v) { s with shared := v.shared, photo := v.photo } := by
  have hstep : e.Step s.shared s.photo v := PhotoEvent.run_step hv
  have hl : (∀ plan readable, e ≠ .initializeStore plan readable) →
      .initialized .ready ∈ l ++ e.acts s.photoView v → .initialized .ready ∈ l := fun he =>
    initialized_before (photo_step hv) fun plan readable heq =>
      he plan readable (Event.photo.inj heq)
  cases hstep with
  | exit event pc running eq =>
    have hbefore := hl (by rcases event with rfl | rfl <;> simp)
    subst eq
    rcases pc with pc | ⟨pc, -⟩
    · have hnot : .initialized .ready ∉ l := hseen.early (by rw [pc]; rfl)
      exact ⟨(fun ho => by cases ho), (fun _ hi => by cases hi),
        fun _ hm => absurd (hbefore hm) hnot⟩
    · exact h.work hbefore (by rw [pc]; rfl) rfl rfl (.refl _)
  | configure event pc eq =>
    subst eq
    exact ⟨fun _ => h.defaults (by rw [pc]; rfl), (fun _ hi => by cases hi), fun ho => by cases ho⟩
  | opened plan readable status event pc eq =>
    subst event
    obtain ⟨state, settings, hpc⟩ := openStore_pc plan readable status s.photo
    subst eq
    refine ⟨fun _ => h.defaults (by rw [pc]; rfl),
      fun settings hi _ => openStore_loaded (hg plan readable rfl) hi, fun ho => ?_⟩
    rw [hpc] at ho
    cases ho
  | install freeBytes state settings event pc eq =>
    have hbefore := hl (by rw [event]; simp)
    subst eq
    refine ⟨(fun ho => by cases ho), (fun _ hi => by cases hi), fun _ hm hc hd => ?_⟩
    obtain rfl := hseen.ready state settings pc (hbefore hm)
    have hload := h.loaded settings pc hc
    have hclean : s.shared.screen.settingsDirty = false :=
      (installStore_dirty .ready settings freeBytes s.photo.store s.shared.screen).symm.trans hd
    cases settings with
    | none =>
      have hdefault := h.defaults (by rw [pc]; rfl) hclean
      exact .inr ⟨hload.symm, hdefault⟩
    | some settings => exact .inl ⟨settings, hload.symm, applySettings_holds ..⟩
  | take event pc pending eq =>
    have hbefore := hl (by rw [event]; simp)
    subst eq
    exact h.work hbefore (by rw [pc]; rfl) rfl rfl ⟨rfl, rfl, rfl, rfl, rfl⟩
  | call job event pc eq =>
    have hbefore := hl (by rw [event]; simp)
    subst eq
    exact h.work hbefore (by rw [pc]; rfl) rfl rfl (.refl _)
  | finish job work r event pc call eq =>
    have hbefore := hl (by rw [event]; simp)
    subst eq
    exact h.work hbefore (by rw [pc]; rfl) rfl (callStore_settings call) (.refl _)
  | handBack job result event pc eq =>
    have hbefore := hl (by rw [event]; simp)
    subst eq
    exact h.work hbefore (by rw [pc]; rfl) rfl rfl (.refl _)
  | publish job result now freeBytes event pc eq =>
    have hbefore := hl (by rw [event]; simp)
    subst eq
    exact h.work hbefore (by rw [pc]; rfl) rfl rfl (publish_same ..).toSameSettings

theorem OnFile.owner (h : OnFile l s) (hseen : Seen l s) (hk : OwnerKeeps s s') {created : Bool}
    {plan : FilePlan} (hs : ownerStep created plan s = some s') : OnFile l s' := by
  have hsettings : settingsLocked s'.shared.screen = settingsLocked s.shared.screen ∧
      s'.shared.screen.settingsDirty = s.shared.screen.settingsDirty := by
    obtain ⟨running, complete, ready, state, hscreen⟩ := ownerStep_screen hs
    rw [hscreen]
    exact ⟨rfl, rfl⟩
  have hrunning : s.control ≠ .stopped := by
    intro hc
    simp [ownerStep, hc] at hs
  have hworld : s'.control ≠ .stopped →
      s'.photo.world.card settingsPath = s.photo.world.card settingsPath := fun hc => by
    rcases ownerStep_world hs with hw | ⟨-, hw⟩
    · rw [hw]
    · exact absurd hw hc
  rcases hk.pc with hpc | ⟨hpc, hpc'⟩
  · exact h.change id (.inl hpc) (fun hc => ⟨hrunning, hworld hc⟩)
      (.inr ⟨hsettings.2, hsettings.1⟩)
  · have hnot : .initialized .ready ∉ l := hseen.early (by rw [hpc]; rfl)
    refine ⟨fun _ hd => ?_, fun _ hi => ?_, fun _ hm => absurd hm hnot⟩
    · unfold Holds
      rw [hsettings.1]
      exact h.defaults (by rw [hpc]; rfl) (hsettings.2 ▸ hd)
    · rw [hpc'] at hi
      cases hi

theorem OnFile.step (h : OnFile l s) (hseen : Seen l s) (hh : Handoff s) {e : Event}
    (hg : opensFile l s e) (hs : worker.step s e = some (s', o)) : OnFile (l ++ o) s' := by
  cases e with
  | ui call =>
    have hbefore := initialized_before (l := l) hs (by simp)
    cases hs
    exact h.change hbefore (.inl rfl) (fun hc => ⟨hc, rfl⟩) (call_dirty ..)
  | frame e =>
    have hbefore := initialized_before (l := l) hs (by simp)
    obtain ⟨v, hv, hs⟩ := Option.map_eq_some_iff.1 hs
    cases hs
    have hset : Screen.SameSettings s.shared.screen v.screen := FrameEvent.run_settings hv
    exact h.change hbefore (.inl rfl) (fun hc => ⟨hc, rfl⟩)
      (.inr ⟨hset.settingsDirty, settingsLocked_same hset⟩)
  | photo e =>
    obtain ⟨v, hv, hs⟩ := Option.map_eq_some_iff.1 hs
    cases hs
    exact h.photo hseen hg hv
  | owner created plan =>
    obtain ⟨v, hv, hs⟩ := Option.map_eq_some_iff.1 hs
    cases hs
    rw [List.append_nil]
    exact h.owner hseen (hh.owner_keeps hv) hv

theorem fresh_onFile (h : Fresh s) : OnFile [] s := by
  obtain ⟨now, root, model, version, status, memory, card, rfl⟩ := h
  exact ⟨fun _ _ => ⟨rfl, rfl, ⟨rfl, rfl⟩, rfl, fun _ _ => rfl, rfl, rfl⟩,
    fun _ hi => (by cases hi), fun ho => (by cases ho)⟩

theorem reach_onFile (h0 : Fresh s₀) (h : Reach worker opensFile s₀ es l s) : OnFile l s := by
  refine (h.inv (I := fun l s => OnFile l s ∧ Seen l s ∧ Handoff s)
    ⟨fresh_onFile h0, fresh_seen h0, fresh_handoff h0⟩ fun _ _ _ _ _ hi hg hs => ?_).1
  obtain ⟨honfile, hseen, hh⟩ := hi
  exact ⟨honfile.step hseen hh hg hs, hseen.step hh hs, hh.step hs⟩

/-! ## Room for the photos -/

/-- No photo is refused for lack of space. -/
def neverRefused : Guard DisplayProbeWorker Event Act := fun _ _ e =>
  ∀ plan, e = .photo (.finish (.save plan)) → insufficientSpace plan.freeBytes = false

/-- The storage is ready, as the store sees it and as the worker does. -/
structure StaysReady (l : List Act) (s : DisplayProbeWorker) : Prop where
  loaded : ∀ settings, s.photo.pc = .initialized .ready settings →
    s.photo.store.storageState = .ready
  opened : s.photo.pc.opening = false → .initialized .ready ∈ l →
    s.photo.store.storageState = .ready ∧ s.shared.screen.storageReady = true

theorem savePhoto_storageState {plan : SavePlan} (h : insufficientSpace plan.freeBytes = false)
    (photo : Photo) (encodedCapacity : Int) (s : PhotoStore) (w : CardWorld) :
    (savePhoto plan photo encodedCapacity s w).2.1.storageState = s.storageState := by
  unfold savePhoto savePhotoWith
  dsimp only
  split
  · rw [h, if_neg (by simp)]
  · exact (writePhoto_spec ..).state

theorem deletePhoto_storageState (plan : DeletePlan) (newestIndex : Int) (s : PhotoStore)
    (w : CardWorld) :
    (deletePhoto plan newestIndex s w).2.1.storageState = s.storageState := by
  unfold deletePhoto
  split
  · rfl
  · split
    · rfl
    · dsimp only
      split <;> rfl

/-- With room for the photo, no job changes what the store is. -/
theorem callStore_ready {job : Job} {work : Work} {buffer : Frame} {p : PhotoStore}
    {w : CardWorld} {x : JobResult × Frame × PhotoStore × CardWorld}
    (hroom : ∀ plan, work = .save plan → insufficientSpace plan.freeBytes = false)
    (h : callStore job work buffer p w = some x) :
    x.2.2.1.storageState = p.storageState := by
  unfold callStore at h
  split at h
  · rename_i plan _
    cases h
    exact savePhoto_storageState (hroom plan rfl) ..
  · split at h <;> cases h <;> rfl
  · cases h
    exact deletePhoto_storageState ..
  · cases h
    rfl
  · cases h

theorem publish_ready {job : Job} {result : JobResult} {now freeBytes : Int} {p : PhotoStore}
    {sh : Shared} (hp : p.storageState = .ready) (hr : sh.screen.storageReady = true) :
    (publish job result now freeBytes p sh).screen.storageReady = true := by
  have hqueue : ∀ (job : PhotoJob) (status : PhotoWriteState) (sh : Shared),
      (queueGalleryLocked job status sh).2.screen.storageReady = sh.screen.storageReady := by
    intro job status sh
    unfold queueGalleryLocked
    split
    · rfl
    · split <;> rfl
  unfold publish mirrorPhoto
  dsimp only
  split
  · unfold publishSave
    dsimp only
    split <;> exact decide_eq_true hp
  · exact hr
  · unfold publishDelete
    dsimp only
    split
    · exact (hqueue ..).trans hr
    · exact hr
  · exact hr

theorem StaysReady.photo (h : StaysReady l s) (hseen : Seen l s) {e : PhotoEvent}
    (hg : neverRefused l s (.photo e)) {v : PhotoView} (hv : e.run s.photoView = some v) :
    StaysReady (l ++ e.acts s.photoView v) { s with shared := v.shared, photo := v.photo } := by
  have hstep : e.Step s.shared s.photo v := PhotoEvent.run_step hv
  have hl : (∀ plan readable, e ≠ .initializeStore plan readable) →
      .initialized .ready ∈ l ++ e.acts s.photoView v → .initialized .ready ∈ l := fun he =>
    initialized_before (photo_step hv) fun plan readable heq =>
      he plan readable (Event.photo.inj heq)
  cases hstep with
  | exit event pc running eq =>
    have hbefore := hl (by rcases event with rfl | rfl <;> simp)
    subst eq
    refine ⟨(fun _ hi => by cases hi), fun _ hm => ?_⟩
    rcases pc with pc | ⟨pc, -⟩
    · exact absurd (hbefore hm) (hseen.early (by rw [pc]; rfl))
    · exact h.opened (by rw [pc]; rfl) (hbefore hm)
  | configure event pc eq =>
    subst eq
    exact ⟨(fun _ hi => by cases hi), fun ho => by cases ho⟩
  | opened plan readable status event pc eq =>
    obtain ⟨state, settings, hpc⟩ := openStore_pc plan readable status s.photo
    subst eq
    refine ⟨fun settings hi => ?_, fun ho => ?_⟩
    · have hi' : (openStore plan readable status s.photo).pc = .initialized .ready settings := hi
      cases status with
      | ready =>
        simp only [openStore, PhotoLoop.initialized.injEq] at hi'
        exact hi'.1
      | initializing | rootUnavailable | directoryFailed | writeFailed | insufficientSpace | other =>
        simp [openStore] at hi'
    · rw [hpc] at ho
      cases ho
  | install freeBytes state settings event pc eq =>
    have hbefore := hl (by rw [event]; simp)
    subst eq
    refine ⟨(fun _ hi => by cases hi), fun _ hm => ?_⟩
    obtain rfl := hseen.ready state settings pc (hbefore hm)
    exact ⟨h.loaded settings pc, rfl⟩
  | take event pc pending eq =>
    have hbefore := hl (by rw [event]; simp)
    subst eq
    exact ⟨(fun _ hi => by cases hi), fun _ hm => h.opened (by rw [pc]; rfl) (hbefore hm)⟩
  | call job event pc eq =>
    have hbefore := hl (by rw [event]; simp)
    subst eq
    exact ⟨(fun _ hi => by cases hi), fun _ hm => h.opened (by rw [pc]; rfl) (hbefore hm)⟩
  | finish job work r event pc call eq =>
    have hbefore := hl (by rw [event]; simp)
    have hroom : ∀ plan, work = .save plan → insufficientSpace plan.freeBytes = false :=
      fun plan hw => hg plan (by rw [event, hw])
    subst eq
    refine ⟨(fun _ hi => by cases hi), fun _ hm => ?_⟩
    obtain ⟨h1, h2⟩ := h.opened (by rw [pc]; rfl) (hbefore hm)
    exact ⟨(callStore_ready hroom call).trans h1, h2⟩
  | handBack job result event pc eq =>
    have hbefore := hl (by rw [event]; simp)
    subst eq
    exact ⟨(fun _ hi => by cases hi), fun _ hm => h.opened (by rw [pc]; rfl) (hbefore hm)⟩
  | publish job result now freeBytes event pc eq =>
    have hbefore := hl (by rw [event]; simp)
    subst eq
    refine ⟨(fun _ hi => by cases hi), fun _ hm => ?_⟩
    obtain ⟨h1, h2⟩ := h.opened (by rw [pc]; rfl) (hbefore hm)
    exact ⟨h1, publish_ready h1 h2⟩

theorem StaysReady.change {l' : List Act} (h : StaysReady l s)
    (hl : .initialized .ready ∈ l' → .initialized .ready ∈ l) (hphoto : s'.photo = s.photo)
    (hready : s'.shared.screen.storageReady = s.shared.screen.storageReady) :
    StaysReady l' s' := by
  refine ⟨fun settings hi => ?_, fun ho hm => ?_⟩
  · rw [hphoto] at hi ⊢
    exact h.loaded settings hi
  · rw [hphoto] at ho ⊢
    rw [hready]
    exact h.opened ho (hl hm)

theorem StaysReady.step (h : StaysReady l s) (hseen : Seen l s) (hh : Handoff s) {e : Event}
    (hg : neverRefused l s e) (hs : worker.step s e = some (s', o)) : StaysReady (l ++ o) s' := by
  cases e with
  | ui call =>
    have hbefore := initialized_before (l := l) hs (by simp)
    cases hs
    exact h.change hbefore rfl (UiCall.run_step ..).kept.storageReady
  | frame e =>
    have hbefore := initialized_before (l := l) hs (by simp)
    obtain ⟨v, hv, hs⟩ := Option.map_eq_some_iff.1 hs
    cases hs
    exact h.change hbefore rfl (FrameEvent.run_aside hv).storageReady
  | photo e =>
    obtain ⟨v, hv, hs⟩ := Option.map_eq_some_iff.1 hs
    cases hs
    exact h.photo hseen hg hv
  | owner created plan =>
    obtain ⟨v, hv, hs⟩ := Option.map_eq_some_iff.1 hs
    cases hs
    rw [List.append_nil]
    have hk := hh.owner_keeps hv
    refine ⟨fun settings hi => ?_, fun ho hm => ?_⟩
    · rw [hk.store]
      rcases hk.pc with hpc | ⟨-, hpc⟩
      · exact h.loaded settings (hpc ▸ hi)
      · rw [hpc] at hi
        cases hi
    · have hnot : s.photo.pc ≠ .notStarted := fun hn =>
        hseen.early (by rw [hn]; rfl) hm
      have hpc := hk.pc.resolve_right fun hn => hnot hn.1
      obtain ⟨h1, h2⟩ := h.opened (hpc ▸ ho) hm
      rw [hk.store]
      refine ⟨h1, ?_⟩
      rcases ownerStep_ready hv with hr | hc
      · rw [hr]
        exact h2
      · exact absurd (hh.before (by rw [hc]; rfl)) hnot

theorem fresh_staysReady (h : Fresh s) : StaysReady [] s := by
  obtain ⟨now, root, model, version, status, memory, card, rfl⟩ := h
  exact ⟨fun _ hi => (by cases hi), fun ho => (by cases ho)⟩

theorem reach_staysReady (h0 : Fresh s₀) (h : Reach worker neverRefused s₀ es l s) :
    StaysReady l s := by
  refine (h.inv (I := fun l s => StaysReady l s ∧ Seen l s ∧ Handoff s)
    ⟨fresh_staysReady h0, fresh_seen h0, fresh_handoff h0⟩ fun _ _ _ _ _ hi hg hs => ?_).1
  obtain ⟨hready, hseen, hh⟩ := hi
  exact ⟨hready.step hseen hh hg hs, hseen.step hh hs, hh.step hs⟩

theorem reach_seen {G : Guard DisplayProbeWorker Event Act} (h0 : Fresh s₀)
    (h : Reach worker G s₀ es l s) : Seen l s := by
  refine (h.inv (I := fun l s => Seen l s ∧ Handoff s) ⟨fresh_seen h0, fresh_handoff h0⟩
    fun _ _ _ _ _ hi _ hs => ?_).1
  exact ⟨hi.1.step hi.2 hs, hi.2.step hs⟩

/-! ## The end of a session -/

/-- Saved settings are read back as those of the worker. -/
theorem saveSettings_persisted {plan : FilePlan} {w : CardWorld} (hc : c.style.InRange)
    (hfits : (recentText c.style.recent).length ≤ 247) (hplan : plan.prints = true) :
    Persisted (saveSettings plan (settingsLocked c) w).2.card c := by
  have hsaved : (saveSettings plan (settingsLocked c) w).1 = true :=
    (replaceText_spec plan settingsPath (settingsText (settingsLocked c)) w).1.trans hplan
  have hsavable : (settingsLocked c).Savable :=
    { selectedPreset := hc.selectedStyle, intensity := hc.intensity
      motion := show (0 : Int) ≤ 2 ∧ (2 : Int) ≤ 2 by decide
      recent := hc.recent, recentCount := hc.recentCount
      adjustments := fun i _ => hc.adjustments i, recentFits := hfits }
  obtain ⟨r, hr, hsame⟩ := loadSettings_settingsText hsavable (saveSettings_card hsaved)
  exact .inl ⟨r, hr, hsame.selectedPreset, hsame.intensity, hsame.favorites, hsame.recent,
    hsame.adjustments, rfl, hsame.diagnostics⟩

/-- **`stop` leaves the worker's settings on the card**, if it finds the ones that were changed
with the storage still ready and the recent styles short enough for their line, and unchanged ones
were read from the file that is there. -/
theorem settings_persisted (h0 : Fresh s₀) (h : Run worker s₀ es l s)
    (hready : .initialized .ready ∈ l) (hcontrol : s.control = .photoJoined) {created : Bool}
    {plan : FilePlan} (hs : worker.step s (.owner created plan) = some (s', o))
    (hplan : plan.prints = true)
    (hclean : s.shared.screen.settingsDirty = false → Reach worker opensFile s₀ es l s)
    (hdirty : s.shared.screen.settingsDirty = true → Reach worker neverRefused s₀ es l s ∧
      (recentText s.shared.screen.style.recent).length ≤ 247) :
    Persisted s'.photo.world.card s'.shared.screen := by
  have hopened : s.photo.pc.opening = false := by
    rcases (reach_handoff h0 h).joined (by rw [hcontrol]; rfl) with hpc | hpc
    · rw [hpc]
      rfl
    · exact absurd hready ((reach_seen h0 h).early (by rw [hpc]; rfl))
  obtain ⟨v, hv, hs⟩ := Option.map_eq_some_iff.1 hs
  cases hs
  simp only [ownerStep, hcontrol, Bool.and_eq_true] at hv
  cases hd : s.shared.screen.settingsDirty with
  | false =>
    rw [if_neg (by simp [hd])] at hv
    cases hv
    exact (reach_onFile h0 (hclean hd)).kept hopened hready (by simp [hcontrol]) hd
  | true =>
    obtain ⟨hroom, hfits⟩ := hdirty hd
    obtain ⟨-, hstorage⟩ := (reach_staysReady h0 hroom).opened hopened hready
    rw [if_pos ⟨hstorage, hd⟩] at hv
    cases hv
    exact saveSettings_persisted (reach_bounded h0 h).style hfits hplan

/-- The opening of a store that got Ready is seen. -/
def Act.readied : Act → Bool
  | .initialized .ready => true
  | _ => false

theorem initialized_of_readied (h : l.any Act.readied = true) : .initialized .ready ∈ l := by
  obtain ⟨a, ha, hr⟩ := List.any_eq_true.1 h
  unfold Act.readied at hr
  split at hr
  · exact ha
  · cases hr

/-- The guard as a test of an event. -/
def neverRefusedEvent (_ : List Act) (_ : DisplayProbeWorker) : Event → Bool
  | .photo (.finish (.save plan)) => !insufficientSpace plan.freeBytes
  | _ => true

theorem neverRefusedEvent_guard (l : List Act) (s : DisplayProbeWorker) (e : Event)
    (h : neverRefusedEvent l s e = true) : neverRefused l s e := by
  rintro plan rfl
  simpa [neverRefusedEvent] using h

/-- A style is selected, a photo taken and saved with `plan`, and the worker stopped but for the
last step of `stop`. -/
def styledSession (plan : SavePlan) : List Event :=
  List.flatten [Event.startUp, [.press .next], Event.newFrame 100 blackFrame, [Event.capture 61007],
    Event.work (.save plan), Event.publish, Event.stopDown.dropLast]

theorem settings_persisted_session : ∃ l s s' o,
    Reach worker neverRefused sampleWorker (styledSession samplePlan) l s ∧
      s.shared.screen.style.selectedStyle = 1 ∧ worker.step s .go = some (s', o) ∧
      Persisted s'.photo.world.card s'.shared.screen := by
  obtain ⟨l, s, h, hp⟩ := reach_of_execIf (M := worker) (g := neverRefusedEvent) (s := sampleWorker)
    (styledSession samplePlan)
    (p := fun x => x.2.any Act.readied && x.1.control == .photoJoined &&
      x.1.shared.screen.settingsDirty && (worker.step x.1 .go).isSome &&
      decide ((recentText x.1.shared.screen.style.recent).length ≤ 247) &&
      x.1.shared.screen.style.selectedStyle == 1)
    neverRefusedEvent_guard (by decide +kernel)
  simp only [Bool.and_eq_true, beq_iff_eq, decide_eq_true_eq] at hp
  obtain ⟨⟨⟨⟨⟨hready, hcontrol⟩, hd⟩, hgo⟩, hfits⟩, hstyle⟩ := hp
  obtain ⟨⟨s', o⟩, hs⟩ := Option.isSome_iff_exists.1 hgo
  refine ⟨l, s, s', o, h, hstyle, hs, ?_⟩
  exact settings_persisted sample_fresh h.run (initialized_of_readied hready) hcontrol hs rfl
    (fun hclean => absurd (hd.symm.trans hclean) (by decide)) fun _ => ⟨h, hfits⟩

/-- There is no room for the photo. -/
def fullPlan : SavePlan := { samplePlan with freeBytes := 0 }

/-- The style was changed, the settings file can be written, and `stop` does not write it. -/
theorem refused_not_persisted : ∃ l s s' o,
    Run worker sampleWorker (styledSession fullPlan) l s ∧ .initialized .ready ∈ l ∧
      s.control = .photoJoined ∧ worker.step s .go = some (s', o) ∧
      ¬ Persisted s'.photo.world.card s'.shared.screen := by
  obtain ⟨l, s, h, hp⟩ := run_of_exec (M := worker) (s := sampleWorker) (styledSession fullPlan)
    (p := fun x => x.2.any Act.readied && x.1.control == .photoJoined &&
      (worker.step x.1 .go).any fun r => (r.1.photo.world.card settingsPath).isNone &&
        r.1.shared.screen.style.selectedStyle == 1) (by decide +kernel)
  simp only [Bool.and_eq_true, beq_iff_eq, Option.any_eq_true] at hp
  obtain ⟨⟨hready, hcontrol⟩, ⟨s', o⟩, hs, hnone, hstyle⟩ := hp
  refine ⟨l, s, s', o, h, initialized_of_readied hready, hcontrol, hs, ?_⟩
  have hload : loadSettings s'.photo.world.card = none :=
    loadSettings_none.2 (Option.isNone_iff_eq_none.1 hnone)
  rintro (⟨r, hr, -⟩ | ⟨-, hdefault⟩)
  · rw [hload] at hr
    cases hr
  · have hzero : (0 : Int) = s'.shared.screen.style.selectedStyle := hdefault.selectedPreset
    rw [hstyle] at hzero
    cases hzero

end RetroLens.Worker
