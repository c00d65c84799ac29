import RetroLens.Worker.Handoff

/-!
# The storage gate

The photo thread waits for a storage status that says something and opens the
store only where the first of them is Ready. What comes later changes nothing:
the gate is set once. A photo's call needs the store, so it comes after an
opening that got Ready, and a `stop` that finds the gate unset ends the thread
with the card as it was (`storage_gate`).
-/

namespace RetroLens.Worker

open Text Disk RetroLens.Core Store Runs

/-! ## The statuses received -/

/-- The status that a call brings. -/
def Event.received : Event → Option StorageProbeStatus
  | ui (.configureStorage status) => some status
  | _ => none

/-- The statuses the worker was given: the constructor's, and those of the calls in order. -/
def statuses (s₀ : DisplayProbeWorker) (es : List Event) : List StorageProbeStatus :=
  s₀.shared.slot.initialStorageStatus :: es.filterMap Event.received

/-- The first status that says something. -/
def definite (s₀ : DisplayProbeWorker) (es : List Event) : Option StorageProbeStatus :=
  (statuses s₀ es).find? (· != .initializing)

/-- The status that the photo thread goes on with, once there is one. -/
def JobSlot.gate (slot : JobSlot) : Option StorageProbeStatus :=
  if slot.storageConfigured then some slot.initialStorageStatus else none

/-! ## The calls of the store -/

/-- `initialize` is called. -/
def Act.opens : Act → Bool
  | initialized _ => true
  | _ => false

/-- `savePhoto`, `loadThumbnail` or `deletePhoto` is called, or returns. -/
def Act.usesStore : Act → Bool
  | saveCalled _ | saveReturned .. | loadReturned .. | deleteReturned .. => true
  | _ => false

/-- The calls of `initialize`. -/
def openings (l : List Act) : Nat := l.countP Act.opens

/-- Nothing was asked of the store. -/
def Quiet (l : List Act) : Prop := ∀ a ∈ l, a.opens = false ∧ a.usesStore = false

/-- The store is not opened, and its opening not seen. -/
def PhotoLoop.early : PhotoLoop → Bool
  | notStarted | starting | configured _ => true
  | _ => false

/-- A `stop` that came before the first definite status. -/
structure Unopened (s₀ : DisplayProbeWorker) (l : List Act) (s : DisplayProbeWorker) : Prop where
  world : s.photo.world = s₀.photo.world
  quiet : Quiet l
  /-- The photo thread is at its end, or one step before it. -/
  ends : s.photo.pc = .notStarted ∨ s.photo.pc = .exited ∨ s.photo.pc = .starting ∧
    worker.step s (.photo .start) = some ({ s with photo.pc := .exited }, [])
  joined : s.control.joined = true → s.photo.pc = .notStarted ∨ s.photo.pc = .exited

structure StorageGate (s₀ : DisplayProbeWorker) (es : List Event) (l : List Act)
    (s : DisplayProbeWorker) : Prop where
  once : openings l ≤ 1
  ready : 0 < openings l → definite s₀ es = some .ready
  /-- What the photo thread goes on with is the first definite status. -/
  decided : ∀ status, s.photo.pc = .configured status → definite s₀ es = some status
  lasting : ∀ status, definite s₀ es = some status → ∀ es' l' s', Run worker s es' l' s' →
    definite s₀ (es ++ es') = some status ∧ s'.shared.slot.gate = some status ∧
      (status ≠ .ready → openings (l ++ l') = 0)
  /-- Each call of a photo finds an opening that got Ready. -/
  served : ∀ l₁ a l₂, l = l₁ ++ a :: l₂ → a.usesStore = true → .initialized .ready ∈ l₁
  calling : ∀ job, s.photo.pc = .calling job → .initialized .ready ∈ l
  stopped : definite s₀ es = none → s.control.afterPhoto = true →
    ∀ es' l' s', Run worker s es' l' s' → Unopened s₀ (l ++ l') s'

variable {s s' s₀ : DisplayProbeWorker} {l o : List Act} {es : List Event} {e : Event} {a : Act}
  {sh sh' : Shared}

/-! ## The gate -/

theorem configureStorage_gate (status : StorageProbeStatus) (slot : JobSlot) :
    (configureStorage status slot).gate =
      slot.gate.or (if status = .initializing then none else some status) := by
  unfold configureStorage JobSlot.gate
  split
  · rfl
  · by_cases hs : status = .initializing
    · simp [hs]
    · simp [hs]

/-- Posting a job leaves the gate alone. -/
theorem Posted.gate {job : PhotoJob} (h : Posted job sh sh') : sh'.slot.gate = sh.slot.gate := by
  rw [h.slot]
  rfl

theorem KeySpec.gate {keyValue : PhotoUiKey} {down : Bool} (h : KeySpec keyValue down sh sh') :
    sh'.slot.gate = sh.slot.gate := by
  cases h.step with
  | aside slot screen => rw [slot]
  | browsed slot screen hidden => exact slot.elim (fun h => by rw [h]) Posted.gate
  | reopened slot => rw [slot]
  | confirmed key pressed scene posted => exact posted.gate

/-- What an event adds to the gate. -/
def Event.sets (e : Event) : Option StorageProbeStatus := e.received.filter (· != .initializing)

theorem call_gate (filtered : Frame) (call : UiCall) (sh : Shared) :
    (call.run filtered sh).slot.gate = sh.slot.gate.or (Event.ui call).sets := by
  have hkeeps : ∀ {sh' : Shared}, (∀ status, call ≠ .configureStorage status) →
      sh'.slot.gate = sh.slot.gate → sh'.slot.gate = sh.slot.gate.or (Event.ui call).sets := by
    intro sh' hcall hgate
    have hnone : (Event.ui call).sets = none := by
      cases call with
      | configureStorage status => exact absurd rfl (hcall status)
      | _ => rfl
    rw [hnone, Option.or_none]
    exact hgate
  by_cases hcall : ∀ status, call ≠ .configureStorage status
  · refine hkeeps hcall ?_
    cases UiCall.run_step filtered call sh with
    | key keyValue down timestampMs eq spec => exact spec.gate
    | screen slot => rw [slot]
    | configured status eq => exact absurd eq (hcall status)
    | requested timestampMs eq result hasPrevious storageReady free screen slot =>
      rw [slot]
      rfl
  · simp only [not_forall, not_not] at hcall
    obtain ⟨status, rfl⟩ := hcall
    show (configureStorage status sh.slot).gate = _
    rw [configureStorage_gate]
    cases status <;> rfl

theorem photo_gate {e : PhotoEvent} {v : PhotoView} (hs : e.run s.photoView = some v) :
    v.shared.slot.gate = s.shared.slot.gate := by
  have hrun : e.Step s.shared s.photo v := PhotoEvent.run_step hs
  cases hrun with
  | publish job result now freeBytes event pc eq =>
    rw [eq]
    rcases (publish_slot job result now freeBytes s.photo.store s.shared).1 with h | ⟨-, h⟩
    · rw [h]
    · exact h.gate
  | exit event pc running eq => rw [eq]
  | configure event pc eq => rw [eq]
  | opened plan readable status event pc eq => rw [eq]
  | install freeBytes state settings event pc eq => rw [eq]
  | take event pc pending eq =>
    rw [eq]
    rfl
  | call job event pc eq => rw [eq]
  | finish job work r event pc call eq => rw [eq]
  | handBack job result event pc eq =>
    rw [eq]
    rfl

theorem step_gate (hh : Handoff s) (hs : worker.step s e = some (s', o)) :
    s'.shared.slot.gate = s.shared.slot.gate.or e.sets := by
  cases e with
  | ui call =>
    cases hs
    exact call_gate s.frame.filtered call s.shared
  | frame e =>
    obtain ⟨v, hv, hs⟩ := Option.map_eq_some_iff.1 hs
    cases hs
    exact Option.or_none.symm
  | photo e =>
    obtain ⟨v, hv, hs⟩ := Option.map_eq_some_iff.1 hs
    cases hs
    exact (photo_gate hv).trans Option.or_none.symm
  | owner created plan =>
    obtain ⟨v, hv, hs⟩ := Option.map_eq_some_iff.1 hs
    cases hs
    show s'.shared.slot.gate = _
    rw [(hh.owner_keeps hv).slot]
    exact Option.or_none.symm

theorem definite_append (s₀ : DisplayProbeWorker) (es es' : List Event) :
    definite s₀ (es ++ es') =
      (definite s₀ es).or ((es'.filterMap Event.received).find? (· != .initializing)) := by
  simp only [definite, statuses, List.filterMap_append, ← List.cons_append, List.find?_append]

theorem definite_snoc (s₀ : DisplayProbeWorker) (es : List Event) (e : Event) :
    definite s₀ (es ++ [e]) = (definite s₀ es).or e.sets := by
  rw [definite_append]
  congr 1
  unfold Event.sets
  cases he : e.received with
  | none => simp [he]
  | some status => cases status <;> simp [he, Option.filter]

/-- **The gate holds the first definite status.** -/
theorem run_gate (h0 : Fresh s₀) (h : Run worker s₀ es l s) :
    s.shared.slot.gate = definite s₀ es := by
  induction h with
  | init =>
    obtain ⟨now, root, model, version, status, memory, card, rfl⟩ := h0
    cases status <;> rfl
  | step h hg hs ih => rw [step_gate (reach_handoff h0 h) hs, ih, definite_snoc]

/-! ## What is seen of the store -/

theorem call_quiet (filtered : Frame) (entries : Entries) (sh : Shared) (call : UiCall) :
    Quiet (call.acts filtered entries sh) := by
  intro a ha
  cases call <;> simp only [UiCall.acts, List.not_mem_nil, List.mem_singleton] at ha
  · rcases List.mem_append.1 ha with ha | ha <;> split at ha <;> simp at ha <;> subst ha <;>
      exact ⟨rfl, rfl⟩
  · split at ha <;> simp at ha
    subst ha
    exact ⟨rfl, rfl⟩
  · subst ha
    exact ⟨rfl, rfl⟩

theorem frame_quiet (e : FrameEvent) (v : FrameView) : Quiet (e.acts v) := by
  intro a ha
  unfold FrameEvent.acts at ha
  split at ha <;> simp at ha <;> subst ha <;> exact ⟨rfl, rfl⟩

theorem photo_acts {e : PhotoEvent} {v v' : PhotoView} (hv : e.run v = some v')
    (ha : a ∈ e.acts v v') :
    (∃ plan readable state settings, e = .initializeStore plan readable ∧
        v.photo.pc = .configured .ready ∧ v'.photo.pc = .initialized state settings ∧
        e.acts v v' = [.initialized state]) ∨
      a.opens = false ∧ ∃ job, v.photo.pc = .taken job ∨ v.photo.pc = .calling job := by
  have hentry := PhotoEvent.run_entry hv
  generalize e.acts v v' = o at ha hentry ⊢
  cases hentry with
  | silent store world => cases ha
  | initialized plan readable settings event pc call next =>
    exact .inl ⟨plan, readable, _, settings, event, pc, next, rfl⟩
  | saveCalled job event pc save store world =>
    cases List.mem_singleton.1 ha
    exact .inr ⟨rfl, job, .inl pc⟩
  | saved job plan encoded event pc save call =>
    cases List.mem_singleton.1 ha
    exact .inr ⟨rfl, job, .inr pc⟩
  | loaded job work ok event pc load store world =>
    cases List.mem_singleton.1 ha
    exact .inr ⟨rfl, job, .inr pc⟩
  | deleted job plan ok event pc delete call =>
    cases List.mem_singleton.1 ha
    exact .inr ⟨rfl, job, .inr pc⟩

/-- The opening of the store is one step of the photo thread, past the gate. -/
theorem step_opens (hs : worker.step s e = some (s', o)) (ha : a ∈ o) (hopens : a.opens = true) :
    ∃ plan readable state settings, e = .photo (.initializeStore plan readable) ∧
      s.photo.pc = .configured .ready ∧ s'.photo.pc = .initialized state settings ∧
      o = [.initialized state] := by
  have hquiet : Quiet o → False := fun h => by
    rw [(h a ha).1] at hopens
    cases hopens
  cases e with
  | ui call => cases hs; exact (hquiet (call_quiet _ _ _ _)).elim
  | frame e =>
    obtain ⟨v, hv, hs⟩ := Option.map_eq_some_iff.1 hs
    cases hs
    exact (hquiet (frame_quiet _ _)).elim
  | photo e =>
    obtain ⟨v, hv, hs⟩ := Option.map_eq_some_iff.1 hs
    cases hs
    rcases photo_acts hv ha with ⟨plan, readable, state, settings, rfl, h⟩ | ⟨h, -⟩
    · exact ⟨plan, readable, state, settings, rfl, h⟩
    · rw [h] at hopens
      cases hopens
  | owner created plan =>
    obtain ⟨v, hv, hs⟩ := Option.map_eq_some_iff.1 hs
    cases hs
    cases ha

/-- A photo's call belongs to a job of the photo thread. -/
theorem step_uses (hs : worker.step s e = some (s', o)) (ha : a ∈ o)
    (huses : a.usesStore = true) : ∃ job, s.photo.pc = .taken job ∨ s.photo.pc = .calling job := by
  have hquiet : Quiet o → False := fun h => by
    rw [(h a ha).2] at huses
    cases huses
  cases e with
  | ui call => cases hs; exact (hquiet (call_quiet _ _ _ _)).elim
  | frame e =>
    obtain ⟨v, hv, hs⟩ := Option.map_eq_some_iff.1 hs
    cases hs
    exact (hquiet (frame_quiet _ _)).elim
  | photo e =>
    obtain ⟨v, hv, hs⟩ := Option.map_eq_some_iff.1 hs
    cases hs
    rcases photo_acts hv ha with ⟨plan, readable, state, settings, rfl, -, -, ho⟩ | ⟨-, h⟩
    · rw [ho, List.mem_singleton] at ha
      rw [ha] at huses
      cases huses
    · exact h
  | owner created plan =>
    obtain ⟨v, hv, hs⟩ := Option.map_eq_some_iff.1 hs
    cases hs
    cases ha

/-! ## One opening -/

/-- Before the opening the photo thread only passes the gate. -/
theorem step_early (hh : Handoff s) (hs : worker.step s e = some (s', o))
    (h : s'.photo.pc.early = true) : s.photo.pc.early = true := by
  cases e with
  | ui call => cases hs; exact h
  | frame e =>
    obtain ⟨v, hv, hs⟩ := Option.map_eq_some_iff.1 hs
    cases hs
    exact h
  | photo e =>
    obtain ⟨v, hv, hs⟩ := Option.map_eq_some_iff.1 hs
    cases hs
    have hrun : e.Step s.shared s.photo v := PhotoEvent.run_step hv
    cases hrun with
    | configure event pc eq => rw [pc]; rfl
    | opened plan readable status event pc eq => rw [pc]; rfl
    | exit event pc running eq | install freeBytes state settings event pc eq
    | take event pc pending eq | call job event pc eq | finish job work r event pc call eq
    | handBack job result event pc eq | publish job result now freeBytes event pc eq =>
      subst eq
      cases h
  | owner created plan =>
    obtain ⟨v, hv, hs⟩ := Option.map_eq_some_iff.1 hs
    cases hs
    rcases (hh.owner_keeps hv).pc with hpc | ⟨hpc, -⟩
    · exact hpc ▸ h
    · rw [hpc]
      rfl

/-- The sections of `photoRun` before the opening: the wait ends with the gate, or with `stop`. -/
theorem start_step {v : PhotoView} (hv : PhotoEvent.start.run s.photoView = some v) :
    s.shared.slot.photoRunning = false ∧ v = ⟨s.shared, { s.photo with pc := .exited }⟩ ∨
      ∃ status, s.shared.slot.photoRunning = true ∧ s.shared.slot.gate = some status ∧
        v = ⟨s.shared, { s.photo with pc := .configured status }⟩ := by
  cases hpc : s.photo.pc with
  | starting =>
    have hrun : PhotoEvent.start.run s.photoView =
        if s.shared.slot.photoRunning = false then some ⟨s.shared, { s.photo with pc := .exited }⟩
        else if s.shared.slot.storageConfigured then
          some ⟨s.shared, { s.photo with pc := .configured s.shared.slot.initialStorageStatus }⟩
        else none := by
      simp only [PhotoEvent.run, DisplayProbeWorker.photoView, hpc]
      rfl
    rw [hrun] at hv
    split at hv
    · rename_i hr
      cases hv
      exact .inl ⟨hr, rfl⟩
    · rename_i hr
      split at hv
      · rename_i hc
        cases hv
        exact .inr ⟨_, by simpa using hr, if_pos hc, rfl⟩
      · cases hv
  | _ => simp [PhotoEvent.run, DisplayProbeWorker.photoView, hpc] at hv

theorem step_configured (hh : Handoff s) (hs : worker.step s e = some (s', o))
    {status : StorageProbeStatus} (h : s'.photo.pc = .configured status) :
    s.photo.pc = .configured status ∨ s.shared.slot.gate = some status := by
  cases e with
  | ui call => cases hs; exact .inl h
  | frame e =>
    obtain ⟨v, hv, hs⟩ := Option.map_eq_some_iff.1 hs
    cases hs
    exact .inl h
  | photo e =>
    obtain ⟨v, hv, hs⟩ := Option.map_eq_some_iff.1 hs
    cases hs
    have hrun : e.Step s.shared s.photo v := PhotoEvent.run_step hv
    cases hrun with
    | configure event pc eq =>
      subst event
      rcases start_step hv with ⟨-, heq⟩ | ⟨status', -, hgate, heq⟩
      · subst heq
        cases h
      · subst heq
        cases h
        exact .inr hgate
    | opened plan readable status' event pc eq =>
      obtain ⟨state, settings, hpc⟩ := openStore_pc plan readable status' s.photo
      subst eq
      rw [show _ = _ from hpc] at h
      cases h
    | exit event pc running eq | install freeBytes state settings event pc eq
    | take event pc pending eq | call job event pc eq | finish job work r event pc call eq
    | handBack job result event pc eq | publish job result now freeBytes event pc eq =>
      subst eq
      cases h
  | owner created plan =>
    obtain ⟨v, hv, hs⟩ := Option.map_eq_some_iff.1 hs
    cases hs
    rcases (hh.owner_keeps hv).pc with hpc | ⟨-, hpc⟩
    · exact .inl (hpc ▸ h)
    · rw [hpc] at h
      cases h

/-- Where the opening stands, given the first definite status. -/
structure Gated (first : Option StorageProbeStatus) (l : List Act) (s : DisplayProbeWorker) :
    Prop where
  configured : ∀ status, s.photo.pc = .configured status → first = some status
  early : s.photo.pc.early = true → openings l = 0
  once : openings l ≤ 1
  ready : 0 < openings l → first = some .ready

theorem openings_zero : openings l = 0 ↔ ∀ a ∈ l, a.opens = false := by
  simp [openings, List.countP_eq_zero]

theorem Gated.step {first : Option StorageProbeStatus} (h : Gated first l s) (hh : Handoff s)
    (hgate : s.shared.slot.gate = first) (hs : worker.step s e = some (s', o)) :
    Gated (first.or e.sets) (l ++ o) s' := by
  have hfirst : ∀ status, first = some status → first.or e.sets = some status := by
    rintro status rfl
    rfl
  have hcount : openings (l ++ o) = openings l + openings o := List.countP_append
  have hconf : ∀ status, s'.photo.pc = .configured status → first.or e.sets = some status :=
    fun status hpc => by
      rcases step_configured hh hs hpc with hpc | hg
      · exact hfirst _ (h.configured _ hpc)
      · exact hfirst _ (hgate ▸ hg)
  by_cases hopens : ∃ a ∈ o, a.opens = true
  · obtain ⟨a, ha, hopens⟩ := hopens
    obtain ⟨plan, readable, state, settings, -, hpc, hpc', ho⟩ := step_opens hs ha hopens
    have hnone : openings l = 0 := h.early (by rw [hpc]; rfl)
    have hone : openings o = 1 := by
      rw [ho]
      rfl
    refine ⟨hconf, fun he => ?_, by omega, fun _ => hfirst _ (h.configured _ hpc)⟩
    rw [hpc'] at he
    cases he
  · have hnone : openings o = 0 := openings_zero.2 fun a ha => by
      by_contra hn
      exact hopens ⟨a, ha, by simpa using hn⟩
    rw [hnone, Nat.add_zero] at hcount
    refine ⟨hconf, fun he => hcount.trans (h.early (step_early hh hs he)),
      hcount ▸ h.once, fun hpos => hfirst _ (h.ready (hcount ▸ hpos))⟩

theorem run_gated (h0 : Fresh s₀) (h : Run worker s₀ es l s) : Gated (definite s₀ es) l s := by
  induction h with
  | init =>
    obtain ⟨now, root, model, version, status, memory, card, rfl⟩ := h0
    exact ⟨(fun _ hpc => by cases hpc), fun _ => rfl, Nat.zero_le _, fun hpos => by cases hpos⟩
  | step h hg hs ih =>
    rw [definite_snoc]
    exact ih.step (reach_handoff h0 h) (run_gate h0 h) hs

/-! ## Calls on a ready store -/

/-- The photo thread has a job's result, or is on its way to it, or found the store Ready. -/
def PhotoLoop.serving : PhotoLoop → Bool
  | initialized .ready _ | taken _ | calling _ | returned .. | handedBack .. => true
  | _ => false

/-- Something relies on the store. -/
def Relies (s : DisplayProbeWorker) : Prop :=
  s.shared.screen.storageReady = true ∨ s.shared.slot.photoPending = true ∨
    s.photo.pc.serving = true

/-- The owner does not make the storage ready. -/
theorem owner_ready {created : Bool} {plan : FilePlan} (hs : ownerStep created plan s = some s')
    (h : s'.shared.screen.storageReady = true) : s.shared.screen.storageReady = true := by
  cases ownerStep_step hs with
  | abandonPhoto => cases h
  | _ => exact h

theorem openStore_ready {plan : InitPlan} {readable : Bool} {status : StorageProbeStatus}
    {p : PhotoThread} {settings : Option RuntimeSettings}
    (h : (openStore plan readable status p).pc = .initialized .ready settings) :
    status = .ready := by
  cases status with
  | ready => rfl
  | initializing | rootUnavailable | directoryFailed | writeFailed | insufficientSpace | other =>
    cases h

theorem SlotChange.relies (hc : SlotChange s.shared sh')
    (hready : sh'.screen.storageReady = s.shared.screen.storageReady)
    (h : Relies { s with shared := sh' }) : Relies s := by
  cases hc with
  | kept photoRunning photoPending photoInUse copy =>
    rcases h with h | h | h
    · exact .inl (hready ▸ h)
    · exact .inr (.inl (photoPending ▸ h))
    · exact .inr (.inr h)
  | posted free storageReady => exact .inl storageReady

theorem photo_relies {e : PhotoEvent} {v : PhotoView} (hv : e.run s.photoView = some v)
    (h : Relies { s with shared := v.shared, photo := v.photo }) :
    Relies s ∨ .initialized .ready ∈ e.acts s.photoView v := by
  have hrun : e.Step s.shared s.photo v := PhotoEvent.run_step hv
  -- the slot and the screen are as they were, and the thread relies on nothing
  have hsame : v.shared = s.shared → v.photo.pc.serving = false → Relies s := fun hsh hpc => by
    rcases h with h | h | h
    · exact .inl (hsh ▸ h)
    · exact .inr (.inl (hsh ▸ h))
    · rw [show v.photo.pc.serving = true from h] at hpc
      cases hpc
  have hserving : s.photo.pc.serving = true → Relies s := fun hpc => .inr (.inr hpc)
  cases hrun with
  | exit event pc running eq => exact .inl (hsame (by rw [eq]) (by rw [eq]; rfl))
  | configure event pc eq => exact .inl (hsame (by rw [eq]) (by rw [eq]; rfl))
  | opened plan readable status event pc eq =>
    obtain ⟨state, settings, hpc⟩ := openStore_pc plan readable status s.photo
    by_cases hstate : state = .ready
    · subst hstate
      have hstatus := openStore_ready hpc
      subst event eq hstatus
      refine .inr ?_
      simp only [PhotoEvent.acts, DisplayProbeWorker.photoView, pc, hpc, List.mem_singleton]
    · refine .inl (hsame (by rw [eq]) ?_)
      rw [eq]
      show PhotoLoop.serving (openStore plan readable status s.photo).pc = false
      rw [hpc]
      cases state <;> first | rfl | exact absurd rfl hstate
  | install freeBytes state settings event pc eq =>
    subst eq
    rcases h with h | h | h
    · have hstate : state = .ready := by
        cases settings <;> simpa [installStore] using h
      exact .inl (hserving (by rw [pc, hstate]; rfl))
    · exact .inl (.inr (.inl h))
    · cases h
  | take event pc pending eq => exact .inl (.inr (.inl pending))
  | call job event pc eq => exact .inl (hserving (by rw [pc]; rfl))
  | finish job work r event pc call eq => exact .inl (hserving (by rw [pc]; rfl))
  | handBack job result event pc eq => exact .inl (hserving (by rw [pc]; rfl))
  | publish job result now freeBytes event pc eq => exact .inl (hserving (by rw [pc]; rfl))

/-- Only an opening that gets Ready lets anything rely on the store. -/
theorem step_relies (hh : Handoff s) (hs : worker.step s e = some (s', o)) (h : Relies s') :
    Relies s ∨ .initialized .ready ∈ o := by
  cases e with
  | ui call =>
    cases hs
    have hstep := UiCall.run_step s.frame.filtered call s.shared
    exact .inl (hstep.change.relies hstep.kept.storageReady h)
  | frame e =>
    obtain ⟨v, hv, hs⟩ := Option.map_eq_some_iff.1 hs
    cases hs
    rcases h with h | h
    · exact .inl (.inl ((FrameEvent.run_aside hv).storageReady ▸ h))
    · exact .inl (.inr h)
  | photo e =>
    obtain ⟨v, hv, hs⟩ := Option.map_eq_some_iff.1 hs
    cases hs
    exact photo_relies hv h
  | owner created plan =>
    obtain ⟨v, hv, hs⟩ := Option.map_eq_some_iff.1 hs
    cases hs
    have hk := hh.owner_keeps hv
    rcases h with h | h | h
    · exact .inl (.inl (owner_ready hv h))
    · rw [hk.slot] at h
      exact .inl (.inr (.inl h))
    · rcases hk.pc with hpc | ⟨-, hpc⟩
      · exact .inl (.inr (.inr (hpc ▸ h)))
      · rw [hpc] at h
        cases h

theorem run_relies (h0 : Fresh s₀) (h : Run worker s₀ es l s) :
    Relies s → .initialized .ready ∈ l := by
  induction h with
  | init =>
    obtain ⟨now, root, model, version, status, memory, card, rfl⟩ := h0
    rintro (h | h | h) <;> cases h
  | step h hg hs ih =>
    intro hr
    rcases step_relies (reach_handoff h0 h) hs hr with hr | ho
    · exact List.mem_append_left _ (ih hr)
    · exact List.mem_append_right _ ho

/-! ## A stop before the gate is set -/

/-- The photo thread did not come past the gate. -/
structure Untouched (s₀ : DisplayProbeWorker) (l : List Act) (s : DisplayProbeWorker) : Prop where
  pc : s.photo.pc = .notStarted ∨ s.photo.pc = .starting ∨ s.photo.pc = .exited
  ready : s.shared.screen.storageReady = false
  world : s.photo.world = s₀.photo.world
  quiet : Quiet l

theorem Quiet.append (h : Quiet l) (h' : Quiet o) : Quiet (l ++ o) := fun a ha =>
  (List.mem_append.1 ha).elim (h a) (h' a)

/-- With the storage not ready the owner has nothing to write. -/
theorem owner_world {created : Bool} {plan : FilePlan} (hs : ownerStep created plan s = some s')
    (h : s.shared.screen.storageReady = false) : s'.photo.world = s.photo.world := by
  cases ownerStep_step hs with
  | save _ hdirty => simp [h] at hdirty
  | _ => rfl

theorem Untouched.step (h : Untouched s₀ l s) (hh : Handoff s)
    (hshut : s.shared.slot.gate = none ∨ s.shared.slot.photoRunning = false)
    (hs : worker.step s e = some (s', o)) : Untouched s₀ (l ++ o) s' := by
  cases e with
  | ui call =>
    cases hs
    have hstep := UiCall.run_step s.frame.filtered call s.shared
    exact ⟨h.pc, hstep.kept.storageReady.trans h.ready, h.world,
      h.quiet.append (call_quiet _ _ _ _)⟩
  | frame e =>
    obtain ⟨v, hv, hs⟩ := Option.map_eq_some_iff.1 hs
    cases hs
    exact ⟨h.pc, (FrameEvent.run_aside hv).storageReady.trans h.ready, h.world,
      h.quiet.append (frame_quiet _ _)⟩
  | photo e =>
    obtain ⟨v, hv, hs⟩ := Option.map_eq_some_iff.1 hs
    cases hs
    obtain rfl : e = .start := by
      rcases h.pc with hpc | hpc | hpc <;> cases e <;>
        simp [PhotoEvent.run, DisplayProbeWorker.photoView, hpc] at hv ⊢
    have hquiet : Quiet (PhotoEvent.start.acts s.photoView v) := fun a ha => by cases ha
    rcases start_step hv with ⟨-, rfl⟩ | ⟨status, hr, hgate, -⟩
    · exact ⟨.inr (.inr rfl), h.ready, h.world, h.quiet.append hquiet⟩
    · rcases hshut with hg | hg
      · rw [hgate] at hg
        cases hg
      · rw [hr] at hg
        cases hg
  | owner created plan =>
    obtain ⟨v, hv, hs⟩ := Option.map_eq_some_iff.1 hs
    cases hs
    refine ⟨?_, ?_, (owner_world hv h.ready).trans h.world, by rw [List.append_nil]; exact h.quiet⟩
    · rcases (hh.owner_keeps hv).pc with hpc | ⟨-, hpc⟩
      · exact hpc ▸ h.pc
      · exact .inr (.inl hpc)
    · by_contra hr
      have := owner_ready hv (by simpa using hr)
      rw [h.ready] at this
      cases this

/-- Until the gate is set the thread waits at it. -/
theorem run_untouched (h0 : Fresh s₀) (h : Run worker s₀ es l s) :
    definite s₀ es = none → Untouched s₀ l s := by
  induction h with
  | init =>
    obtain ⟨now, root, model, version, status, memory, card, rfl⟩ := h0
    exact fun _ => ⟨.inl rfl, rfl, rfl, fun a ha => by cases ha⟩
  | step h hg hs ih =>
    intro hnone
    rw [definite_snoc, Option.or_eq_none_iff] at hnone
    exact (ih hnone.1).step (reach_handoff h0 h) (.inl ((run_gate h0 h).trans hnone.1)) hs

theorem afterPhoto_stays (hs : worker.step s e = some (s', o)) (h : s.control.afterPhoto = true) :
    s'.control.afterPhoto = true := by
  cases e with
  | ui call => cases hs; exact h
  | frame e =>
    obtain ⟨v, hv, hs⟩ := Option.map_eq_some_iff.1 hs
    cases hs
    exact h
  | photo e =>
    obtain ⟨v, hv, hs⟩ := Option.map_eq_some_iff.1 hs
    cases hs
    exact h
  | owner created plan =>
    obtain ⟨v, hv, hs⟩ := Option.map_eq_some_iff.1 hs
    cases hs
    cases ownerStep_step hv with
    | joinPhoto | skipPhoto | save | leave => rfl
    | start hc | create hc | createFailed hc | giveUp hc | startPhoto hc | createPhoto hc
    | createPhotoFailed hc | giveUpPhoto hc | abandonPhoto hc | stop hc | join hc | stopPhoto hc =>
      rw [hc] at h
      cases h

/-- After `stop` the thread only ends. -/
theorem stopped_untouched {es' : List Event} {l' : List Act} (h0 : Fresh s₀)
    (h : Run worker s₀ es l s) (hu : Untouched s₀ l s) (hc : s.control.afterPhoto = true)
    (h' : Run worker s es' l' s') :
    Untouched s₀ (l ++ l') s' ∧ s'.control.afterPhoto = true := by
  induction h' with
  | init => exact ⟨by rwa [List.append_nil], hc⟩
  | step h₁ hg hs ih =>
    have hh := reach_handoff h0 (h.append h₁)
    rw [← List.append_assoc]
    exact ⟨ih.1.step hh (.inr (hh.after ih.2)) hs, afterPhoto_stays hs ih.2⟩

theorem Untouched.unopened (h : Untouched s₀ l s) (hh : Handoff s)
    (hc : s.control.afterPhoto = true) : Unopened s₀ l s where
  world := h.world
  quiet := h.quiet
  ends := by
    rcases h.pc with hpc | hpc | hpc
    · exact .inl hpc
    · refine .inr (.inr ⟨hpc, ?_⟩)
      simp [worker, DisplayProbeWorker.step, PhotoEvent.run, DisplayProbeWorker.photoView, hpc,
        hh.after hc, PhotoEvent.acts]
    · exact .inr (.inl hpc)
  joined := fun hj => (hh.joined hj).symm

/-- **The store is opened at most once, and only past the gate.** -/
theorem storage_gate (h0 : Fresh s₀) (h : Run worker s₀ es l s) : StorageGate s₀ es l s where
  once := (run_gated h0 h).once
  ready := (run_gated h0 h).ready
  decided := (run_gated h0 h).configured
  lasting := fun status hstatus es' l' s' h' => by
    have hrun := h.append h'
    have hlast : definite s₀ (es ++ es') = some status := by
      rw [definite_append, hstatus]
      rfl
    refine ⟨hlast, (run_gate h0 hrun).trans hlast, fun hne => ?_⟩
    by_contra hopen
    have hready := (run_gated h0 hrun).ready (Nat.pos_of_ne_zero hopen)
    rw [hlast] at hready
    exact hne (Option.some.inj hready)
  served := by
    refine h.preceded (p := fun a => a.usesStore = true) (Q := fun l => .initialized .ready ∈ l)
      (fun l o hl => List.mem_append_left _ hl) fun es l s e s' o a h _ hs ha huses => ?_
    obtain ⟨job, hpc | hpc⟩ := step_uses hs ha huses
    · exact run_relies h0 h (.inr (.inr (by rw [hpc]; rfl)))
    · exact run_relies h0 h (.inr (.inr (by rw [hpc]; rfl)))
  calling := fun job hpc => run_relies h0 h (.inr (.inr (by rw [hpc]; rfl)))
  stopped := fun hnone hc es' l' s' h' => by
    obtain ⟨hu, hc'⟩ := stopped_untouched h0 h (run_untouched h0 h hnone) hc h'
    exact hu.unopened (reach_handoff h0 (h.append h')) hc'

/-! ## A session with late statuses -/

/-- A worker that waits for its status, on an empty card. -/
def waitingWorker : DisplayProbeWorker :=
  .create 0 (some (ascii "/mnt/sdcard")) none none .initializing blackFrame { card := fun _ => none }

/-- Ready comes after the start, and after it a failure. -/
def lateStatuses : List Event :=
  [.owner true {}, .owner true {}, .owner true {}, .owner true {}, .ui (.requestPhoto 1),
    .ui (.configureStorage .initializing), .ui (.configureStorage .ready),
    .ui (.configureStorage .writeFailed), .photo .start, .ui (.configureStorage .directoryFailed),
    .photo (.initializeStore {} true), .photo (.install 0)]

theorem storage_gate_session : ∃ l s, Run worker waitingWorker lateStatuses l s ∧
    openings l = 1 ∧ definite waitingWorker lateStatuses = some .ready ∧
    StorageGate waitingWorker lateStatuses l s := by
  obtain ⟨l, s, h, hp⟩ := run_of_exec (M := worker) (s := waitingWorker) lateStatuses
    (p := fun x => openings x.2 == 1) (by decide +kernel)
  have hgate := storage_gate ⟨_, _, _, _, _, _, _, rfl⟩ h
  have hone : openings l = 1 := by simpa using hp
  exact ⟨l, s, h, hone, hgate.ready (by omega), hgate⟩

end RetroLens.Worker
