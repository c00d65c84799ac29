import RetroLens.Worker.Mirror

/-!
# Settings that arrive late

The controls work while the store is still to be opened. The section that
installs the loaded settings puts them in place of all that was chosen so far,
so a choice made before it is lost, unless the file happens to say the same.
-/

namespace RetroLens.Worker

open Text Disk RetroLens.Core Store Runs

/-- What a user sets: the style, the intensity, a preset's adjustment, a favorite. -/
inductive Setting where
  | selectedStyle
  | intensity
  | adjustment (preset : Int) (index : Nat)
  | favorite (preset : Int)
  deriving DecidableEq, Repr

/-- The value of a setting. -/
def Setting.read (s : Style) : Setting → Int
  | selectedStyle => s.selectedStyle
  | intensity => s.intensity
  | adjustment preset index => adjustmentAt (s.adjustments preset) index
  | favorite preset => if isFavorite preset s then 1 else 0

/-- The style that the settings file describes. -/
def fileStyle (settings : RuntimeSettings) : Style := loadedStyle (some settings) {}

variable {s s' s₀ : DisplayProbeWorker} {l o : List Act} {es : List Event}
  {settings : RuntimeSettings}

/-- Some call among the events of a run changed the setting. -/
def Touched (s₀ : DisplayProbeWorker) (es : List Event) (setting : Setting) : Prop :=
  ∃ es₁ call es₂ l₁ s₁, es = es₁ ++ .ui call :: es₂ ∧ Run worker s₀ es₁ l₁ s₁ ∧
    setting.read (call.run s₁.frame.filtered s₁.shared).screen.style ≠
      setting.read s₁.shared.screen.style

/-- What the user changed before the settings are applied is still in effect, and the rest has
the loaded value. -/
def ChangesSurvive (s₀ : DisplayProbeWorker) (es : List Event) (settings : RuntimeSettings)
    (s s' : DisplayProbeWorker) : Prop :=
  ∀ setting : Setting,
    (Touched s₀ es setting →
      setting.read s'.shared.screen.style = setting.read s.shared.screen.style) ∧
    (¬ Touched s₀ es setting →
      setting.read s'.shared.screen.style = setting.read (fileStyle settings))

/-! ## The settings on their way -/

/-- Loaded settings are those of the file. -/
def Loaded (s : DisplayProbeWorker) : Prop :=
  ∀ state settings, s.photo.pc = .initialized state (some settings) →
    loadSettings s.photo.world.card = some settings

theorem openStore_settings {plan : InitPlan} {readable : Bool} {status : StorageProbeStatus}
    {p : PhotoThread} {state : PhotoStorageState}
    (h : (openStore plan readable status p).pc = .initialized state (some settings)) :
    loadSettings (openStore plan readable status p).world.card = some settings := by
  cases status with
  | ready =>
    simp only [openStore, PhotoLoop.initialized.injEq] at h ⊢
    obtain ⟨-, h⟩ := h
    split at h
    · exact h
    · cases h
  | initializing | rootUnavailable | directoryFailed | writeFailed | insufficientSpace
  | other => cases h

theorem Loaded.photo {e : PhotoEvent} {v : PhotoView} (hv : e.run s.photoView = some v) :
    Loaded { s with shared := v.shared, photo := v.photo } := by
  have hstep : e.Step s.shared s.photo v := PhotoEvent.run_step hv
  intro state settings hi
  cases hstep with
  | opened plan readable status event pc eq =>
    subst eq
    exact openStore_settings hi
  | exit event pc running eq => exact absurd hi (by rw [eq]; simp)
  | configure event pc eq => exact absurd hi (by rw [eq]; simp)
  | install freeBytes state settings event pc eq => exact absurd hi (by rw [eq]; simp)
  | take event pc pending eq => exact absurd hi (by rw [eq]; simp)
  | call job event pc eq => exact absurd hi (by rw [eq]; simp)
  | finish job work r event pc call eq => exact absurd hi (by rw [eq]; simp)
  | handBack job result event pc eq => exact absurd hi (by rw [eq]; simp)
  | publish job result now freeBytes event pc eq => exact absurd hi (by rw [eq]; simp)

theorem Loaded.step (h : Loaded s) (hh : Handoff s) {e : Event}
    (hs : worker.step s e = some (s', o)) : Loaded s' := by
  cases e with
  | ui call =>
    cases hs
    exact h
  | frame e =>
    obtain ⟨v, hv, hs⟩ := Option.map_eq_some_iff.1 hs
    cases hs
    exact h
  | photo e =>
    obtain ⟨v, hv, hs⟩ := Option.map_eq_some_iff.1 hs
    cases hs
    exact Loaded.photo hv
  | owner created plan =>
    obtain ⟨v, hv, hs⟩ := Option.map_eq_some_iff.1 hs
    cases hs
    intro state settings hi
    rcases (hh.owner_keeps hv).pc with hpc | ⟨-, hpc⟩
    · rw [hpc] at hi
      rcases ownerStep_world hv with hw | ⟨hc, -⟩
      · rw [hw]
        exact h state settings hi
      · rcases hh.joined (by rw [hc]; rfl) with hj | hj
        · rw [hj] at hi
          cases hi
        · rw [hj] at hi
          cases hi
    · rw [hpc] at hi
      cases hi

theorem fresh_loaded (h : Fresh s) : Loaded s := by
  obtain ⟨now, root, model, version, status, memory, card, rfl⟩ := h
  exact fun _ _ hi => by cases hi

theorem reach_loaded {G : Guard DisplayProbeWorker Event Act} (h0 : Fresh s₀)
    (h : Reach worker G s₀ es l s) : Loaded s := by
  refine (h.inv_state (I := fun s => Loaded s ∧ Handoff s) ⟨fresh_loaded h0, fresh_handoff h0⟩
    fun _ _ _ _ _ hi _ hs => ?_).1
  exact ⟨hi.1.step hi.2 hs, hi.2.step hs⟩

/-! ## What survives -/

/-- Installed settings say what the file says. -/
theorem read_loaded (setting : Setting) (s : Style) :
    setting.read (loadedStyle (some settings) s) = setting.read (fileStyle settings) := by
  cases setting <;> rfl

theorem install_style {state : PhotoStorageState} {loaded : Option RuntimeSettings}
    (hpc : s.photo.pc = .initialized state loaded) {freeBytes : Int}
    (hs : worker.step s (.photo (.install freeBytes)) = some (s', o)) :
    s'.shared.screen.style = loadedStyle loaded s.shared.screen.style := by
  obtain ⟨v, hv, hs⟩ := Option.map_eq_some_iff.1 hs
  cases hs
  have hstep : PhotoEvent.Step (.install freeBytes) s.shared s.photo v := PhotoEvent.run_step hv
  cases hstep with
  | install freeBytes' state' settings' event pc eq =>
    obtain ⟨rfl, rfl⟩ := PhotoLoop.initialized.inj (hpc.symm.trans pc)
    subst eq
    exact installStore_style ..
  | exit event => rcases event with h | h <;> cases h
  | configure event => cases event
  | opened _ _ _ event => cases event
  | take event => cases event
  | call _ event => cases event
  | finish _ _ _ event => cases event
  | handBack _ _ event => cases event
  | publish _ _ _ _ event => cases event

/-- **Late settings leave the user's changes in effect just when every one of them says what the
file says.** -/
theorem changes_survive_iff (h0 : Fresh s₀) (h : Run worker s₀ es l s) {state : PhotoStorageState}
    (hpc : s.photo.pc = .initialized state (some settings)) {freeBytes : Int}
    (hs : worker.step s (.photo (.install freeBytes)) = some (s', o)) :
    loadSettings s.photo.world.card = some settings ∧
      (ChangesSurvive s₀ es settings s s' ↔ ∀ setting : Setting, Touched s₀ es setting →
        setting.read s.shared.screen.style = setting.read (fileStyle settings)) := by
  have hread : ∀ setting : Setting,
      setting.read s'.shared.screen.style = setting.read (fileStyle settings) := fun setting => by
    rw [install_style hpc hs, read_loaded]
  refine ⟨reach_loaded h0 h state settings hpc, fun hsurvive setting ht => ?_,
    fun hsame setting => ⟨fun ht => ?_, fun _ => hread setting⟩⟩
  · rw [← (hsurvive setting).1 ht]
    exact hread setting
  · rw [hread setting]
    exact (hsame setting ht).symm

/-- A worker on a card that holds a settings file, and nothing else. -/
def settingsWorker : DisplayProbeWorker :=
  .create 0 (some (ascii "/mnt/sdcard")) none none .ready blackFrame
    { card := fun p =>
        if p = settingsPath then some (ascii "preset=calculator_vision\n") else none }

theorem settingsWorker_fresh : Fresh settingsWorker := ⟨_, _, _, _, _, _, _, rfl⟩

/-- `start`, up to the photo thread's first step. -/
def beforeOpening : List Event := Event.startUp.take 5

def opening : Event := .photo (.initializeStore {} true)

/-- The style of the screen, and the one that waits to be installed. -/
def awaiting (style loaded : Int) (s : DisplayProbeWorker) : Bool :=
  s.shared.screen.style.selectedStyle == style &&
    match s.photo.pc with
    | .initialized _ (some settings) =>
      settings.selectedPreset == loaded && (worker.step s (.photo (.install 0))).isSome
    | _ => false

theorem awaiting_pc {style loaded : Int} (h : awaiting style loaded s = true) :
    s.shared.screen.style.selectedStyle = style ∧ ∃ state settings s' o,
      s.photo.pc = .initialized state (some settings) ∧ settings.selectedPreset = loaded ∧
        worker.step s (.photo (.install 0)) = some (s', o) := by
  simp only [awaiting, Bool.and_eq_true, beq_iff_eq] at h
  refine ⟨h.1, ?_⟩
  have hpc := h.2
  split at hpc
  · rename_i state settings heq
    simp only [Bool.and_eq_true, beq_iff_eq] at hpc
    obtain ⟨⟨s', o⟩, hs⟩ := Option.isSome_iff_exists.1 hpc.2
    exact ⟨state, settings, s', o, heq, hpc.1, hs⟩
  · cases hpc

/-- The style is changed before the opening, and to the one of the file. -/
def agreedChoice : List Event := beforeOpening ++ [.ui (.changeStyle 4), opening]

/-- A change of style changes no other setting. -/
theorem changeStyle_read {setting : Setting} (hsetting : setting ≠ .selectedStyle) (delta : Int)
    (c : Screen) : setting.read (changeStyle delta c).style = setting.read c.style := by
  unfold changeStyle
  split
  · rfl
  · cases setting with
    | selectedStyle => exact absurd rfl hsetting
    | intensity | adjustment | favorite => rfl

/-- The style was chosen, and agrees with the file; nothing else was. -/
theorem changes_survive_agreed : ∃ l s s' o settings,
    Run worker settingsWorker agreedChoice l s ∧
      worker.step s (.photo (.install 0)) = some (s', o) ∧
      Touched settingsWorker agreedChoice .selectedStyle ∧
      s'.shared.screen.style.selectedStyle = 4 ∧
      ChangesSurvive settingsWorker agreedChoice settings s s' := by
  obtain ⟨l, s, h, hp⟩ := run_of_exec (M := worker) (s := settingsWorker) agreedChoice
    (p := fun x => awaiting 4 4 x.1) (by decide +kernel)
  obtain ⟨hstyle, state, settings, s', o, hpc, hpreset, hs⟩ := awaiting_pc hp
  have htouched : Touched settingsWorker agreedChoice .selectedStyle := by
    obtain ⟨l₁, s₁, h₁, hp₁⟩ := run_of_exec (M := worker) (s := settingsWorker) beforeOpening
      (p := fun x => (changeStyle 4 x.1.shared.screen).style.selectedStyle !=
        x.1.shared.screen.style.selectedStyle) (by decide +kernel)
    exact ⟨beforeOpening, .changeStyle 4, [opening], l₁, s₁, rfl, h₁, bne_iff_ne.1 hp₁⟩
  refine ⟨l, s, s', o, settings, h, hs, htouched, ?_,
    ((changes_survive_iff settingsWorker_fresh h hpc hs).2).2 fun setting ht => ?_⟩
  · rw [install_style hpc hs]
    exact hpreset
  · by_cases hsetting : setting = .selectedStyle
    · subst hsetting
      exact hstyle.trans hpreset.symm
    · obtain ⟨es₁, call, es₂, l₁, s₁, hes, -, hread⟩ := ht
      have hui : .ui call ∈ agreedChoice := by
        rw [hes]
        simp
      have hcall : call = .changeStyle 4 := by
        simpa [agreedChoice, beforeOpening, opening, Event.startUp, Event.go] using hui
      subst hcall
      exact absurd (changeStyle_read hsetting 4 s₁.shared.screen) hread

/-- A style is selected while the store is still to be opened, and replaced by the one of the
file. -/
theorem early_choice_lost : ∃ l s s' o state settings,
    Run worker settingsWorker (beforeOpening ++ [.press .next, opening]) l s ∧
      s.photo.pc = .initialized state (some settings) ∧
      worker.step s (.photo (.install 0)) = some (s', o) ∧
      ¬ ChangesSurvive settingsWorker (beforeOpening ++ [.press .next, opening]) settings s s' := by
  obtain ⟨l, s, h, hp⟩ := run_of_exec (M := worker) (s := settingsWorker)
    (beforeOpening ++ [.press .next, opening]) (p := fun x => awaiting 1 4 x.1) (by decide +kernel)
  obtain ⟨hstyle, state, settings, s', o, hpc, hpreset, hs⟩ := awaiting_pc hp
  refine ⟨l, s, s', o, state, settings, h, hpc, hs, fun hsurvive => ?_⟩
  have htouched : Touched settingsWorker (beforeOpening ++ [.press .next, opening])
      .selectedStyle := by
    obtain ⟨l₁, s₁, h₁, hp₁⟩ := run_of_exec (M := worker) (s := settingsWorker) beforeOpening
      (p := fun x => ((UiCall.key .next true 1).run x.1.frame.filtered
        x.1.shared).screen.style.selectedStyle != x.1.shared.screen.style.selectedStyle)
      (by decide +kernel)
    exact ⟨beforeOpening, .key .next true 1, [opening], l₁, s₁, rfl, h₁, bne_iff_ne.1 hp₁⟩
  have hkept : s'.shared.screen.style.selectedStyle = s.shared.screen.style.selectedStyle :=
    (hsurvive .selectedStyle).1 htouched
  rw [install_style hpc hs] at hkept
  have hfour : (4 : Int) = 1 := hpreset.symm.trans (hkept.trans hstyle)
  cases hfour

end RetroLens.Worker
