import RetroLens.Camera.Sequence

/-!
# What a step does to a sequence

A source seen as a `View`: what is left to do with the worker's sequence, the
two fields under the lock, and the sequence that the UI thread is about to
stop. `view_step` says once what a step of either thread can do to it, and
which steps read `sequenceStarted`.
-/

namespace RetroLens.Camera.Sequence

/-- The sequence that `requestSequenceStop` is about to stop, and whether it has called it. -/
def UiThread.acting : UiThread → Option (Nat × Bool)
  | requesting q => some (q, false)
  | stopping q | clearing q => some (q, true)
  | idle | joining => none

/-- A section that reads `sequenceStarted`. -/
def Looks (s : CameraSequenceFrameSource) (e : Event) : Prop :=
  e = .requestSequenceStop ∧ s.ui = .idle ∨ e = .go ∧ s.worker = .finishing

instance (s : CameraSequenceFrameSource) (e : Event) : Decidable (Looks s e) :=
  inferInstanceAs (Decidable (_ ∨ _))

/-! ## The life of a sequence -/

/-- What is left to do with the sequence of the worker. -/
inductive Phase where
  /-- There is none. -/
  | none
  /-- It is open, but not stored. -/
  | fresh (sequence : Nat)
  /-- It is stored, but not started. -/
  | quiet (sequence : Nat)
  /-- It is started, but the flag is not set. -/
  | begun (sequence : Nat)
  | live (sequence : Nat)
  /-- The worker is about to give it up. -/
  | leaving
  | mustStop (sequence : Nat)
  | mustRelease (sequence : Nat)
  | released (sequence : Nat)
  deriving DecidableEq

def Phase.sequence : Phase → Option Nat
  | none | leaving => .none
  | fresh q | quiet q | begun q | live q | mustStop q | mustRelease q | released q => some q

def FrameWorker.phase : FrameWorker → Phase
  | ended | allocating | allocated | opening => .none
  | opened q => .fresh q
  | stored q | configured q | toStart q | starting q => .quiet q
  | started q => .begun q
  | reporting q | active q | sleeping q | polling q | reading q => .live q
  | finishing => .leaving
  | taken q true => .mustStop q
  | taken q false | stopping q | toRelease q => .mustRelease q
  | releasing q => .released q

/-- What the protocol needs to know of a source. -/
structure View where
  phase : Phase
  sequence : Option Nat
  flag : Bool
  acting : Option (Nat × Bool)
  opened : Nat

def CameraSequenceFrameSource.view (s : CameraSequenceFrameSource) : View :=
  ⟨s.worker.phase, s.sequence, s.sequenceStarted, s.ui.acting, s.opened⟩

/-- An act that makes no difference: a start or a poll by its worker, or the return of a call. -/
def View.Calm (v : View) : Act → Prop
  | .opened _ => False
  | .begun q method => method ≠ .stopPreviewSequence ∧ method ≠ .release ∧
      (v.phase = .quiet q ∨ v.phase = .live q)
  | .returned q _ _ => v.phase.sequence = some q ∨ ∃ called, v.acting = some (q, called)

/-- What a step does to the view; `look` where it reads the flag. -/
inductive View.Step (v : View) (look : Prop) : View → List Act → Prop where
  | aside (o : List Act) (calm : ∀ x ∈ o, v.Calm x) : Step v look v o
  | opens (phase : v.phase = .none) :
      Step v look { v with phase := .fresh v.opened, opened := v.opened + 1 } [.opened v.opened]
  | stores (q : Nat) (phase : v.phase = .fresh q) :
      Step v look { v with phase := .quiet q, sequence := some q } []
  | starts (q : Nat) (phase : v.phase = .quiet q) :
      Step v look { v with phase := .begun q } [.returned q .startPreviewSequence true]
  | flags (q : Nat) (phase : v.phase = .begun q) :
      Step v look
        { v with phase := .live q, flag := if v.sequence = some q then true else v.flag } []
  | leaves (phase : v.phase = .none ∨ ∃ q, v.phase = .quiet q ∨ v.phase = .live q) (o : List Act)
      (calm : ∀ x ∈ o, v.Calm x) : Step v look { v with phase := .leaving } o
  /-- The worker takes the sequence over, with the flag. -/
  | takes (phase : v.phase = .leaving) (q : Nat) (sequence : v.sequence = some q) (looks : look) :
      Step v look
        { v with
          phase := if v.flag then .mustStop q else .mustRelease q
          sequence := none
          flag := false } []
  | takesNone (phase : v.phase = .leaving) (sequence : v.sequence = none) :
      Step v look { v with phase := .none, sequence := none, flag := false } []
  | stops (q : Nat) (phase : v.phase = .mustStop q) :
      Step v look { v with phase := .mustRelease q } [.begun q .stopPreviewSequence]
  | releases (q : Nat) (phase : v.phase = .mustRelease q) :
      Step v look { v with phase := .released q } [.begun q .release]
  | ends (q : Nat) (phase : v.phase = .released q) (ok : Bool) :
      Step v look { v with phase := .none } [.returned q .release ok]
  /-- The UI thread finds the flag set. -/
  | requests (q : Nat) (sequence : v.sequence = some q) (flag : v.flag = true)
      (acting : v.acting = none) (looks : look) : Step v look { v with acting := some (q, false) } []
  | calls (q : Nat) (acting : v.acting = some (q, false)) :
      Step v look { v with acting := some (q, true) } [.begun q .stopPreviewSequence]
  /-- The stop throws, and the flag stays. -/
  | fails (q : Nat) (acting : v.acting = some (q, true)) :
      Step v look { v with acting := none } [.returned q .stopPreviewSequence false]
  | clears (q : Nat) (acting : v.acting = some (q, true)) :
      Step v look
        { v with acting := none, flag := if v.sequence = some q then false else v.flag } []

variable {s s' s₀ : CameraSequenceFrameSource} {l o : List Act} {es : List Event} {e : Event}
  {v v' : View} {look : Prop}

/-- The worker goes on without a difference. -/
theorem View.Step.idle {w : FrameWorker} (h : w.phase = s.worker.phase) :
    View.Step s.view look { s with worker := w }.view [] := by
  have hv : { s with worker := w }.view = s.view := by
    simp only [CameraSequenceFrameSource.view, h]
  rw [hv]
  exact .aside [] (by simp)

theorem View.Step.calls_on {w : FrameWorker} (h : w.phase = s.worker.phase) {x : Act}
    (hx : s.view.Calm x) : View.Step s.view look { s with worker := w }.view [x] := by
  have hv : { s with worker := w }.view = s.view := by
    simp only [CameraSequenceFrameSource.view, h]
  rw [hv]
  exact .aside [x] (by simpa using hx)

/-- The worker's steps, when all goes well. -/
theorem go_step (h : s.workerGo = some (s', o)) : View.Step s.view (Looks s .go) s'.view o := by
  unfold CameraSequenceFrameSource.workerGo at h
  split at h <;> rename_i hw <;> have hphase := congrArg FrameWorker.phase hw
  · cases h
  · cases h
    exact .idle hphase.symm
  · cases h
    refine .idle ?_
    rw [hphase]
    split <;> rfl
  · cases h
    exact .opens hphase
  · cases h
    exact .stores _ hphase
  · cases h
    by_cases hs : s.stopping = true
    · rw [if_pos hs]
      exact .leaves (.inr ⟨_, .inl hphase⟩) [] (by simp)
    · rw [if_neg hs]
      exact .idle hphase.symm
  · cases h
    by_cases hs : s.stopping = true
    · rw [if_pos hs]
      exact .leaves (.inr ⟨_, .inl hphase⟩) [] (by simp)
    · rw [if_neg hs]
      exact .idle hphase.symm
  · cases h
    exact .calls_on hphase.symm ⟨by decide, by decide, .inl hphase⟩
  · cases h
    exact .starts _ hphase
  · cases h
    exact .flags _ hphase
  · cases h
    exact .idle hphase.symm
  · cases h
    by_cases hs : s.stopping = true
    · rw [if_pos hs]
      exact .leaves (.inr ⟨_, .inr hphase⟩) [] (by simp)
    · rw [if_neg hs]
      exact .idle hphase.symm
  · cases h
    exact .calls_on hphase.symm ⟨by decide, by decide, .inr hphase⟩
  · cases h
    exact .calls_on hphase.symm (.inl (congrArg Phase.sequence hphase))
  · cases h
    exact .idle hphase.symm
  · cases h
    have hlook : Looks s .go := .inr ⟨rfl, hw⟩
    cases hq : s.sequence with
    | none =>
      have hstep : View.Step s.view (Looks s .go)
          { s.view with phase := .none, sequence := none, flag := false } [] :=
        .takesNone hphase hq
      exact hstep
    | some q =>
      have hstep := View.Step.takes (v := s.view) hphase q hq hlook
      have hflag : s.view.flag = s.sequenceStarted := rfl
      rw [hflag] at hstep
      cases hf : s.sequenceStarted with
      | true =>
        rw [hf] at hstep
        exact hstep
      | false =>
        rw [hf] at hstep
        exact hstep
  · cases h
    exact .stops _ hphase
  · cases h
    exact .idle hphase.symm
  · cases h
    exact .calls_on hphase.symm (.inl (congrArg Phase.sequence hphase))
  · cases h
    exact .releases _ hphase
  · cases h
    exact .ends _ hphase true

/-- The worker's steps, when something throws. -/
theorem throws_step (h : s.workerThrows = some (s', o)) :
    View.Step s.view (Looks s .throws) s'.view o := by
  unfold CameraSequenceFrameSource.workerThrows at h
  split at h
  case h_12 => cases h
  all_goals
    rename_i hw
    have hphase := congrArg FrameWorker.phase hw
    cases h
  · exact .idle hphase.symm
  · exact .leaves (.inl hphase) [] (by simp)
  · exact .leaves (.inr ⟨_, .inl hphase⟩) [] (by simp)
  · exact .leaves (.inr ⟨_, .inl hphase⟩) [] (by simp)
  · exact .leaves (.inr ⟨_, .inr hphase⟩) [] (by simp)
  · exact .leaves (.inr ⟨_, .inr hphase⟩) [] (by simp)
  · exact .leaves (.inr ⟨_, .inr hphase⟩) [] (by simp)
  · refine .leaves (.inr ⟨_, .inl hphase⟩) [_] fun x hx => ?_
    obtain rfl := List.mem_singleton.1 hx
    exact .inl (congrArg Phase.sequence hphase)
  · refine .leaves (.inr ⟨_, .inr hphase⟩) [_] fun x hx => ?_
    obtain rfl := List.mem_singleton.1 hx
    exact .inl (congrArg Phase.sequence hphase)
  · exact .calls_on hphase.symm (.inl (congrArg Phase.sequence hphase))
  · exact .ends _ hphase false

/-- The UI thread's steps; a worker is started only where there is none. -/
theorem ui_step (hthread : s.workerThread = false → s.worker = .ended)
    (h : CameraSequenceFrameSource.uiStep e s = some (s', o)) :
    View.Step s.view (Looks s e) s'.view o := by
  unfold CameraSequenceFrameSource.uiStep at h
  split at h <;> rename_i hui
  · split at h
    · cases h
      exact .aside [] (by simp)
    · rename_i ht
      cases h
      have hphase : s.worker.phase = .none := by
        rw [hthread (by simpa using ht)]
        rfl
      have hview : s.view = { s.view with phase := .none } := by
        rw [← hphase]
        rfl
      rw [hview]
      exact .aside [] (by simp)
  · split at h
    · rename_i q hq hflag
      cases h
      exact .requests q hq hflag (congrArg UiThread.acting hui) (.inl ⟨rfl, hui⟩)
    · cases h
      exact .aside [] (by simp)
  · cases h
    exact .calls _ (congrArg UiThread.acting hui)
  · rename_i ok q
    cases h
    have hacting : s.view.acting = some (q, true) := congrArg UiThread.acting hui
    cases ok with
    | true =>
      have hview : s.view = { s.view with acting := some (q, true) } := by rw [← hacting]
      rw [hview]
      refine .aside [_] fun x hx => ?_
      obtain rfl := List.mem_singleton.1 hx
      exact .inr ⟨true, rfl⟩
    | false => exact .fails q hacting
  · cases h
    exact .clears _ (congrArg UiThread.acting hui)
  · cases h
    have hacting : s.view.acting = none := congrArg UiThread.acting hui
    have hview : s.view = { s.view with acting := none } := by rw [← hacting]
    rw [hview]
    cases s.workerThread <;> exact .aside [] (by simp)
  · cases h
    have hacting : s.view.acting = none := congrArg UiThread.acting hui
    have hview : s.view = { s.view with acting := none } := by rw [← hacting]
    rw [hview]
    exact .aside [] (by simp)
  · cases h

/-- A source without a worker thread has no worker. -/
def Threaded (s : CameraSequenceFrameSource) : Prop := s.workerThread = false → s.worker = .ended

/-- **What a step of either thread can do.** -/
theorem view_step (hthread : Threaded s) (h : frameSource.step s e = some (s', o)) :
    View.Step s.view (Looks s e) s'.view o := by
  cases e with
  | go => exact go_step h
  | throws => exact throws_step h
  | _ => exact ui_step hthread h

/-- Only a worker that is there does something, and its thread stays. -/
theorem go_thread (h : s.workerGo = some (s', o)) :
    s.worker ≠ .ended ∧ s'.workerThread = s.workerThread := by
  unfold CameraSequenceFrameSource.workerGo at h
  split at h <;> rename_i hw <;> cases h <;> exact ⟨by rw [hw]; simp, rfl⟩

theorem throws_thread (h : s.workerThrows = some (s', o)) :
    s.worker ≠ .ended ∧ s'.workerThread = s.workerThread := by
  unfold CameraSequenceFrameSource.workerThrows at h
  split at h
  case h_12 => cases h
  all_goals
    rename_i hw
    cases h
    exact ⟨by rw [hw]; simp, rfl⟩

theorem ui_thread (hthread : Threaded s)
    (h : CameraSequenceFrameSource.uiStep e s = some (s', o)) : Threaded s' := by
  unfold CameraSequenceFrameSource.uiStep at h
  split at h
  · split at h
    · cases h
      exact hthread
    · cases h
      intro hno
      cases hno
  · split at h <;> cases h <;> exact hthread
  · cases h
    exact hthread
  · cases h
    exact hthread
  · cases h
    exact hthread
  · cases h
    exact hthread
  · cases h
    intro hno
    by_cases hended : s.worker = .ended
    · exact hended
    · simp only [if_neg hended] at hno
      exact hthread hno
  · cases h

theorem Threaded.step (hthread : Threaded s) (h : frameSource.step s e = some (s', o)) :
    Threaded s' := by
  cases e with
  | go =>
    obtain ⟨hne, hsame⟩ := go_thread h
    exact fun hno => absurd (hthread (hsame ▸ hno)) hne
  | throws =>
    obtain ⟨hne, hsame⟩ := throws_thread h
    exact fun hno => absurd (hthread (hsame ▸ hno)) hne
  | _ => exact ui_thread hthread h

end RetroLens.Camera.Sequence
