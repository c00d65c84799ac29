import Mathlib.Data.List.Induction
import RetroLens.Camera.Phases

/-!
# Who stops a sequence

`release` takes the sequence and its flag over in one section. But
`requestSequenceStop` only reads them, stops the sequence outside the lock and
clears the flag afterwards: until then, and for good if its stop throws, the
flag invites a second stop, and the sequence may be released under the first.
In the runs in which no section reads a flag that is spoken for, every
sequence is called as it has to be (`calls_keep_protocol`).
-/

namespace RetroLens.Camera.Sequence

open Runs

/-! ## The protocol -/

/-- How a `CameraSequence` has to be called. -/
structure CallProtocol (l : List Act) (s : CameraSequenceFrameSource) : Prop where
  stoppedOnce : ∀ q, l.count (.begun q .stopPreviewSequence) ≤ 1
  stoppedStarted : ∀ before q after, l = before ++ .begun q .stopPreviewSequence :: after →
    .returned q .startPreviewSequence true ∈ before
  released : s.worker = .ended → ∀ q, .opened q ∈ l → l.count (.begun q .release) = 1
  releasedLast : ∀ before q after, l = before ++ .begun q .release :: after →
    ∀ method, .begun q method ∉ after

/-- A section that finds the flag set is the first to act on it: no request is on its way from the
flag to clearing it, and none has failed to clear it because its stop threw. -/
def looksOnce : Guard CameraSequenceFrameSource Event Act := fun l s e =>
  Looks s e → ∀ q, s.sequence = some q → s.sequenceStarted = true →
    s.ui.acting = none ∧ .returned q .stopPreviewSequence false ∉ l

variable {s s' s₀ : CameraSequenceFrameSource} {l o : List Act} {es : List Event} {e : Event}
  {v v' : View} {look : Prop}

/-! ## The invariant -/

/-- No sequence is stored. -/
def View.Vacant (v : View) : Prop := v.sequence = none ∧ v.flag = false

/-- The stored sequence, of which the flag says that somebody has to stop it. -/
structure View.Running (v : View) (l : List Act) (q : Nat) : Prop where
  sequence : v.sequence = some q
  unreleased : .begun q .release ∉ l
  started : v.flag = true → .returned q .startPreviewSequence true ∈ l
  unstopped : v.flag = true → v.acting = none →
    .begun q .stopPreviewSequence ∉ l ∨ .returned q .stopPreviewSequence false ∈ l

/-- Nothing but the start has been called. -/
def Untouched (l : List Act) (q : Nat) : Prop :=
  .begun q .stopPreviewSequence ∉ l ∧ .begun q .release ∉ l

/-- What each phase stands for. -/
def View.Fits (v : View) (l : List Act) : Prop :=
  match v.phase with
  | .none => v.Vacant
  | .fresh q => v.Vacant ∧ Untouched l q
  | .quiet q => v.sequence = some q ∧ v.flag = false ∧ Untouched l q
  | .begun q => v.sequence = some q ∧ v.flag = false ∧ Untouched l q ∧
      .returned q .startPreviewSequence true ∈ l
  | .live q => v.Running l q
  | .leaving => v.Vacant ∨ ∃ q, v.Running l q
  | .mustStop q => v.Vacant ∧ Untouched l q ∧ .returned q .startPreviewSequence true ∈ l
  | .mustRelease q => v.Vacant ∧ .begun q .release ∉ l
  | .released q => v.Vacant ∧ .begun q .release ∈ l

/-- Where a call may come: before the release, and a stop once, after the start has returned. -/
def Allowed (l : List Act) : Act → Prop
  | .begun q method => .begun q .release ∉ l ∧ (method = .stopPreviewSequence →
      .returned q .startPreviewSequence true ∈ l ∧ .begun q .stopPreviewSequence ∉ l)
  | _ => True

def Act.sequence : Act → Nat
  | opened q | begun q _ | returned q _ _ => q

/-- The sequence that is neither released nor lost. -/
def View.holds (v : View) (q : Nat) : Prop := v.phase.sequence = some q ∨ v.sequence = some q

structure Orderly (l : List Act) (v : View) : Prop where
  bound : ∀ x ∈ l, x.sequence < v.opened
  held : ∀ q, v.holds q → q < v.opened
  past : ∀ q, .opened q ∈ l → .begun q .release ∈ l ∨ v.holds q
  fits : v.Fits l
  acting : ∀ q called, v.acting = some (q, called) → v.sequence = some q ∧ v.flag = true ∧
    (called = false → .begun q .stopPreviewSequence ∉ l)
  allowed : ∀ before x after, l = before ++ x :: after → Allowed before x

theorem allowed_append (h : ∀ before x after, l = before ++ x :: after → Allowed before x)
    {x : Act} (hx : Allowed l x) :
    ∀ before y after, l ++ [x] = before ++ y :: after → Allowed before y := by
  intro before y after heq
  rcases List.eq_nil_or_concat after with rfl | ⟨after, z, rfl⟩
  · obtain ⟨rfl, hy⟩ := List.append_inj' heq rfl
    cases hy
    exact hx
  · refine h before y after ?_
    have heq' : l ++ [x] = (before ++ y :: after) ++ [z] := by simpa using heq
    exact (List.append_inj' heq' rfl).1

/-! ## What the phases say -/

theorem View.Fits.running {q : Nat} (h : v.Fits l) (hs : v.sequence = some q) (hf : v.flag = true) :
    (v.phase = .live q ∨ v.phase = .leaving) ∧ v.Running l q := by
  have hvacant : ¬ v.Vacant := fun hv => by
    rw [hv.2] at hf
    cases hf
  unfold View.Fits at h
  split at h <;> rename_i hphase
  · exact absurd h hvacant
  · exact absurd h.1 hvacant
  · rw [h.2.1] at hf
    cases hf
  · rw [h.2.1] at hf
    cases hf
  · obtain rfl : _ = q := Option.some.inj (h.sequence.symm.trans hs)
    exact ⟨.inl hphase, h⟩
  · rcases h with h | ⟨q', h⟩
    · exact absurd h hvacant
    · obtain rfl : q' = q := Option.some.inj (h.sequence.symm.trans hs)
      exact ⟨.inr hphase, h⟩
  · exact absurd h.1 hvacant
  · exact absurd h.1 hvacant
  · exact absurd h.1 hvacant

theorem View.Running.fits {q : Nat} (h : v.Running l q)
    (hphase : v.phase = .live q ∨ v.phase = .leaving) : v.Fits l := by
  unfold View.Fits
  rcases hphase with hphase | hphase
  · rw [hphase]
    exact h
  · rw [hphase]
    exact .inr ⟨q, h⟩

/-- Neither a stop nor a release. -/
def Act.Harmless (x : Act) : Prop :=
  ∀ q, x ≠ .begun q .stopPreviewSequence ∧ x ≠ .begun q .release

theorem Untouched.append {q : Nat} {x : Act} (h : Untouched l q) (hx : x.Harmless) :
    Untouched (l ++ [x]) q := by
  simpa [Untouched, (hx q).1.symm, (hx q).2.symm] using h

theorem View.Running.append {q : Nat} {x : Act} (h : v.Running l q) (hx : x.Harmless) :
    v.Running (l ++ [x]) q where
  sequence := h.sequence
  unreleased := by simpa [(hx q).2.symm] using h.unreleased
  started hf := List.mem_append_left _ (h.started hf)
  unstopped hf ha := by
    rcases h.unstopped hf ha with hn | ht
    · exact .inl (by simpa [(hx q).1.symm] using hn)
    · exact .inr (List.mem_append_left _ ht)

theorem View.Fits.append {x : Act} (h : v.Fits l) (hx : x.Harmless) : v.Fits (l ++ [x]) := by
  unfold View.Fits at h ⊢
  split at h
  · exact h
  · exact ⟨h.1, h.2.append hx⟩
  · exact ⟨h.1, h.2.1, h.2.2.append hx⟩
  · exact ⟨h.1, h.2.1, h.2.2.1.append hx, List.mem_append_left _ h.2.2.2⟩
  · exact h.append hx
  · exact h.imp_right fun ⟨q, hq⟩ => ⟨q, hq.append hx⟩
  · exact ⟨h.1, h.2.1.append hx, List.mem_append_left _ h.2.2⟩
  · exact ⟨h.1, by simpa [(hx _).2.symm] using h.2⟩
  · exact ⟨h.1, List.mem_append_left _ h.2⟩

/-- A call that makes no difference comes before the release. -/
theorem Orderly.calm_begun {q : Nat} (h : Orderly l v)
    (hphase : v.phase = .quiet q ∨ v.phase = .live q) : .begun q .release ∉ l := by
  have hfits := h.fits
  unfold View.Fits at hfits
  rcases hphase with hphase | hphase
  · rw [hphase] at hfits
    exact hfits.2.2.2
  · rw [hphase] at hfits
    exact hfits.unreleased

/-! ## The steps keep the invariant -/

theorem Orderly.bound_append (h : Orderly l v) {x : Act} (hx : x.sequence < v.opened) :
    ∀ y ∈ l ++ [x], y.sequence < v.opened := by
  intro y hy
  rcases List.mem_append.1 hy with hy | hy
  · exact h.bound y hy
  · obtain rfl := List.mem_singleton.1 hy
    exact hx

theorem opened_of_append {x : Act} {q : Nat} (hx : ∀ q, x ≠ .opened q)
    (hq : .opened q ∈ l ++ [x]) : .opened q ∈ l := by
  simpa [(hx q).symm] using hq

theorem Orderly.calm (h : Orderly l v) {x : Act} (hx : v.Calm x) : Orderly (l ++ [x]) v := by
  have hharmless : x.Harmless := fun q => by
    cases x with
    | opened => cases hx
    | begun p method =>
      exact ⟨fun he => hx.1 (by cases he; rfl), fun he => hx.2.1 (by cases he; rfl)⟩
    | returned => exact ⟨by simp, by simp⟩
  have hsequence : x.sequence < v.opened := by
    cases x with
    | opened => cases hx
    | begun p method =>
      refine h.held p (.inl ?_)
      rcases hx.2.2 with hphase | hphase <;> rw [hphase] <;> rfl
    | returned p method ok =>
      rcases hx with hphase | ⟨called, hacting⟩
      · exact h.held p (.inl hphase)
      · exact h.held p (.inr (h.acting p called hacting).1)
  refine ⟨h.bound_append hsequence, h.held, fun q hq => ?_, h.fits.append hharmless,
    fun q called hq => ?_, allowed_append h.allowed ?_⟩
  · have hno : ∀ q, x ≠ .opened q := by
      rintro q rfl
      cases hx
    exact (h.past q (opened_of_append hno hq)).imp_left (List.mem_append_left _)
  · obtain ⟨hs, hf, hn⟩ := h.acting q called hq
    exact ⟨hs, hf, fun hc => by simpa [(hharmless q).1.symm] using hn hc⟩
  · cases x with
    | begun p method => exact ⟨h.calm_begun hx.2.2, fun he => absurd he hx.1⟩
    | _ => trivial

theorem Orderly.calms (h : Orderly l v) (ho : ∀ x ∈ o, v.Calm x) : Orderly (l ++ o) v := by
  induction o generalizing l with
  | nil => simpa using h
  | cons x o ih =>
    have h' := ih (h.calm (ho x (by simp))) fun y hy => ho y (by simp [hy])
    simpa using h'

/-- While no sequence is stored, the UI thread has none to stop. -/
theorem Orderly.idle (h : Orderly l v) (hv : v.Vacant) {q : Nat} {called : Bool} :
    v.acting ≠ some (q, called) := fun ha => by
  obtain ⟨hs, -⟩ := h.acting q called ha
  rw [hv.1] at hs
  cases hs

theorem Orderly.opens (h : Orderly l v) (hphase : v.phase = .none) :
    Orderly (l ++ [.opened v.opened])
      { v with phase := .fresh v.opened, opened := v.opened + 1 } := by
  have hvacant : v.Vacant := by
    have hfits := h.fits
    unfold View.Fits at hfits
    rwa [hphase] at hfits
  have hnone : ∀ q, ¬ v.holds q := fun q hq => by
    rcases hq with hq | hq
    · rw [hphase] at hq
      cases hq
    · rw [hvacant.1] at hq
      cases hq
  have hunused : ∀ method, .begun v.opened method ∉ l := fun method hm =>
    Nat.lt_irrefl _ (h.bound _ hm)
  refine ⟨fun y hy => ?_, fun q hq => ?_, fun q hq => ?_, ⟨hvacant, ?_, ?_⟩,
    fun q called ha => absurd ha (h.idle hvacant), allowed_append h.allowed trivial⟩
  · show y.sequence < v.opened + 1
    rcases List.mem_append.1 hy with hy | hy
    · have := h.bound y hy
      omega
    · obtain rfl := List.mem_singleton.1 hy
      exact Nat.lt_succ_self _
  · show q < v.opened + 1
    rcases hq with hq | hq
    · cases hq
      exact Nat.lt_succ_self _
    · exact absurd (.inr hq) (hnone q)
  · rcases List.mem_append.1 hq with hq | hq
    · exact .inl (List.mem_append_left _ ((h.past q hq).resolve_right (hnone q)))
    · obtain hq := List.mem_singleton.1 hq
      cases hq
      exact .inr (.inl rfl)
  · simpa using hunused .stopPreviewSequence
  · simpa using hunused .release

theorem Orderly.stores (h : Orderly l v) {q : Nat} (hphase : v.phase = .fresh q) :
    Orderly l { v with phase := .quiet q, sequence := some q } := by
  have hfits := h.fits
  unfold View.Fits at hfits
  rw [hphase] at hfits
  obtain ⟨hvacant, hun⟩ := hfits
  have hholds : ∀ p, v.holds p → p = q := fun p hp => by
    rcases hp with hp | hp
    · rw [hphase] at hp
      exact (Option.some.inj hp).symm
    · rw [hvacant.1] at hp
      cases hp
  refine ⟨h.bound, fun p hp => ?_, fun p hp => (h.past p hp).imp_right fun hp => ?_,
    ⟨rfl, hvacant.2, hun⟩, fun p called ha => absurd ha (h.idle hvacant), h.allowed⟩
  · have hpq : q = p := Option.some.inj (hp.elim id id)
    exact h.held p (.inl (by rw [hphase, ← hpq]; rfl))
  · exact .inl (congrArg some (hholds p hp).symm)

theorem Orderly.starts (h : Orderly l v) {q : Nat} (hphase : v.phase = .quiet q) :
    Orderly (l ++ [.returned q .startPreviewSequence true]) { v with phase := .begun q } := by
  have h' := h.calm (x := .returned q .startPreviewSequence true)
    (.inl (congrArg Phase.sequence hphase))
  have hfits := h'.fits
  unfold View.Fits at hfits
  rw [hphase] at hfits
  obtain ⟨hs, hf, hun⟩ := hfits
  have hsame : ∀ p, View.holds { v with phase := .begun q } p ↔ v.holds p := fun p => by
    simp only [View.holds, hphase, Phase.sequence]
  exact ⟨h'.bound, fun p hp => h'.held p ((hsame p).1 hp),
    fun p hp => (h'.past p hp).imp_right (hsame p).2, ⟨hs, hf, hun, by simp⟩, h'.acting, h'.allowed⟩

theorem Orderly.flags (h : Orderly l v) {q : Nat} (hphase : v.phase = .begun q) :
    Orderly l { v with
      phase := .live q, flag := if v.sequence = some q then true else v.flag } := by
  have hfits := h.fits
  unfold View.Fits at hfits
  rw [hphase] at hfits
  obtain ⟨hs, hf, hun, hstarted⟩ := hfits
  have hsame : ∀ f p, View.holds { v with phase := .live q, flag := f } p ↔ v.holds p :=
    fun f p => by simp only [View.holds, hphase, Phase.sequence]
  refine ⟨h.bound, fun p hp => h.held p ((hsame _ p).1 hp),
    fun p hp => (h.past p hp).imp_right (hsame _ p).2,
    ⟨hs, hun.2, fun _ => hstarted, fun _ _ => .inl hun.1⟩, fun p called ha => ?_, h.allowed⟩
  have hflag := (h.acting p called ha).2.1
  rw [hf] at hflag
  cases hflag

theorem Orderly.leaves (h : Orderly l v)
    (hphase : v.phase = .none ∨ ∃ q, v.phase = .quiet q ∨ v.phase = .live q) :
    Orderly l { v with phase := .leaving } := by
  have hfits := h.fits
  unfold View.Fits at hfits
  have hover : View.Fits { v with phase := .leaving } l ∧ ∀ p, v.holds p → v.sequence = some p := by
    rcases hphase with hphase | ⟨q, hphase | hphase⟩
    · rw [hphase] at hfits
      refine ⟨.inl hfits, fun p hp => hp.resolve_left fun hp => ?_⟩
      rw [hphase] at hp
      cases hp
    · rw [hphase] at hfits
      obtain ⟨hs, hf, hun⟩ := hfits
      have hoff : ∀ {α : Prop}, v.flag = true → α := fun ht => by
        rw [hf] at ht
        cases ht
      refine ⟨.inr ⟨q, hs, hun.2, hoff, hoff⟩, fun p hp => hp.elim (fun hp => ?_) id⟩
      rw [hphase] at hp
      exact hs.trans hp
    · rw [hphase] at hfits
      refine ⟨.inr ⟨q, hfits.sequence, hfits.unreleased, hfits.started, hfits.unstopped⟩,
        fun p hp => hp.elim (fun hp => ?_) id⟩
      rw [hphase] at hp
      exact hfits.sequence.trans hp
  refine ⟨h.bound, fun p hp => h.held p (hp.elim (fun hp => ?_) .inr),
    fun p hp => (h.past p hp).imp_right fun hp => .inr (hover.2 p hp), hover.1, h.acting, h.allowed⟩
  cases hp

/-- The worker takes the sequence over: the one to stop it, if the flag says so. -/
theorem Orderly.takes (h : Orderly l v) (hphase : v.phase = .leaving) {q : Nat}
    (hs : v.sequence = some q) (hlook : v.flag = true →
      v.acting = none ∧ .returned q .stopPreviewSequence false ∉ l) :
    Orderly l { v with
      phase := if v.flag then .mustStop q else .mustRelease q
      sequence := none
      flag := false } := by
  have hfits := h.fits
  unfold View.Fits at hfits
  rw [hphase] at hfits
  have hrun : v.Running l q := by
    rcases hfits with hvacant | ⟨p, hp⟩
    · rw [hvacant.1] at hs
      cases hs
    · obtain rfl : p = q := Option.some.inj (hp.sequence.symm.trans hs)
      exact hp
  have hnext : (if v.flag then Phase.mustStop q else .mustRelease q).sequence = some q := by
    split <;> rfl
  have hold : ∀ p, v.holds p → p = q := fun p hp => by
    rcases hp with hp | hp
    · rw [hphase] at hp
      cases hp
    · exact Option.some.inj (hp.symm.trans hs)
  refine ⟨h.bound, fun p hp => ?_, fun p hp => (h.past p hp).imp_right fun hp => .inl ?_, ?_,
    fun p called ha => ?_, h.allowed⟩
  · rcases hp with hp | hp
    · obtain rfl : q = p := Option.some.inj (hnext.symm.trans hp)
      exact h.held q (.inr hs)
    · cases hp
  · rw [hold p hp]
    exact hnext
  · by_cases hf : v.flag = true
    · obtain ⟨hacting, hthrown⟩ := hlook hf
      simp only [View.Fits, hf, if_true]
      exact ⟨⟨rfl, rfl⟩, ⟨(hrun.unstopped hf hacting).resolve_right hthrown, hrun.unreleased⟩,
        hrun.started hf⟩
    · simp only [View.Fits, hf, Bool.false_eq_true, if_false]
      exact ⟨⟨rfl, rfl⟩, hrun.unreleased⟩
  · have hf := (h.acting p called ha).2.1
    have hnone := (hlook hf).1
    rw [show v.acting = some (p, called) from ha] at hnone
    cases hnone

theorem Orderly.takesNone (h : Orderly l v) (hphase : v.phase = .leaving) (hs : v.sequence = none) :
    Orderly l { v with phase := .none, sequence := none, flag := false } := by
  have hfits := h.fits
  unfold View.Fits at hfits
  rw [hphase] at hfits
  have hvacant : v.Vacant := by
    rcases hfits with hvacant | ⟨p, hp⟩
    · exact hvacant
    · cases hs.symm.trans hp.sequence
  have hnone : ∀ p, ¬ v.holds p := fun p hp => by
    rcases hp with hp | hp
    · rw [hphase] at hp
      cases hp
    · rw [hs] at hp
      cases hp
  exact ⟨h.bound, fun p hp => absurd hp (by simp [View.holds, Phase.sequence]),
    fun p hp => .inl ((h.past p hp).resolve_right (hnone p)), ⟨rfl, rfl⟩,
    fun p called ha => absurd ha (h.idle hvacant), h.allowed⟩

theorem Orderly.stops (h : Orderly l v) {q : Nat} (hphase : v.phase = .mustStop q) :
    Orderly (l ++ [.begun q .stopPreviewSequence]) { v with phase := .mustRelease q } := by
  have hfits := h.fits
  unfold View.Fits at hfits
  rw [hphase] at hfits
  obtain ⟨hvacant, hun, hstarted⟩ := hfits
  have hsame : ∀ p, View.holds { v with phase := .mustRelease q } p ↔ v.holds p := fun p => by
    simp only [View.holds, hphase, Phase.sequence]
  refine ⟨h.bound_append (h.held q (.inl (by rw [hphase]; rfl))),
    fun p hp => h.held p ((hsame p).1 hp), fun p hp => ?_, ⟨hvacant, by simpa using hun.2⟩,
    fun p called ha => absurd ha (h.idle hvacant),
    allowed_append h.allowed ⟨hun.2, fun _ => ⟨hstarted, hun.1⟩⟩⟩
  exact (h.past p (opened_of_append (by simp) hp)).imp (List.mem_append_left _) (hsame p).2

theorem Orderly.releases (h : Orderly l v) {q : Nat} (hphase : v.phase = .mustRelease q) :
    Orderly (l ++ [.begun q .release]) { v with phase := .released q } := by
  have hfits := h.fits
  unfold View.Fits at hfits
  rw [hphase] at hfits
  obtain ⟨hvacant, hun⟩ := hfits
  have hsame : ∀ p, View.holds { v with phase := .released q } p ↔ v.holds p := fun p => by
    simp only [View.holds, hphase, Phase.sequence]
  refine ⟨h.bound_append (h.held q (.inl (by rw [hphase]; rfl))),
    fun p hp => h.held p ((hsame p).1 hp), fun p hp => ?_, ⟨hvacant, by simp⟩,
    fun p called ha => absurd ha (h.idle hvacant),
    allowed_append h.allowed ⟨hun, fun he => by cases he⟩⟩
  exact (h.past p (opened_of_append (by simp) hp)).imp (List.mem_append_left _) (hsame p).2

theorem Orderly.ends (h : Orderly l v) {q : Nat} (hphase : v.phase = .released q) (ok : Bool) :
    Orderly (l ++ [.returned q .release ok]) { v with phase := .none } := by
  have h' := h.calm (x := .returned q .release ok) (.inl (congrArg Phase.sequence hphase))
  have hfits := h'.fits
  unfold View.Fits at hfits
  rw [hphase] at hfits
  obtain ⟨hvacant, hreleased⟩ := hfits
  refine ⟨h'.bound, fun p hp => ?_, fun p hp => (h'.past p hp).elim .inl fun hp => .inl ?_, hvacant,
    h'.acting, h'.allowed⟩
  · exact h.held p (hp.elim (fun hp => by cases hp) .inr)
  · rcases hp with hp | hp
    · rw [hphase] at hp
      cases hp
      exact hreleased
    · rw [hvacant.1] at hp
      cases hp

/-! ## The UI thread -/

/-- The UI thread goes on with a sequence whose flag is set. -/
theorem Orderly.acts (h : Orderly l v) {q : Nat} (hs : v.sequence = some q) (hf : v.flag = true)
    {acting : Option (Nat × Bool)} {flag : Bool}
    (hflag : flag = true ∨ acting = none)
    (hacting : ∀ p called, acting = some (p, called) → p = q ∧
      (called = false → .begun q .stopPreviewSequence ∉ l))
    (hthrown : flag = true → acting = none →
      .begun q .stopPreviewSequence ∉ l ∨ .returned q .stopPreviewSequence false ∈ l) :
    Orderly l { v with acting, flag } := by
  obtain ⟨hphase, hrun⟩ := h.fits.running hs hf
  have hrun' : View.Running { v with acting, flag } l q :=
    ⟨hs, hrun.unreleased, fun _ => hrun.started hf, hthrown⟩
  refine ⟨h.bound, h.held, h.past, hrun'.fits hphase, fun p called ha => ?_, h.allowed⟩
  obtain ⟨rfl, hn⟩ := hacting p called ha
  have ha' : acting = some (p, called) := ha
  exact ⟨hs, hflag.resolve_right (by simp [ha']), hn⟩

/-- The UI thread calls for the stop. -/
theorem Orderly.calls (h : Orderly l v) {q : Nat} (hacting : v.acting = some (q, false)) :
    Orderly (l ++ [.begun q .stopPreviewSequence]) { v with acting := some (q, true) } := by
  obtain ⟨hs, hf, hn⟩ := h.acting q false hacting
  obtain ⟨hphase, hrun⟩ := h.fits.running hs hf
  have hrun' : View.Running { v with acting := some (q, true) }
      (l ++ [.begun q .stopPreviewSequence]) q :=
    ⟨hs, by simpa using hrun.unreleased, fun _ => List.mem_append_left _ (hrun.started hf),
      fun _ ha => by cases ha⟩
  refine ⟨h.bound_append (h.held q (.inr hs)), h.held, fun p hp => ?_, hrun'.fits hphase,
    fun p called ha => ?_, allowed_append h.allowed ⟨hrun.unreleased, fun _ =>
      ⟨hrun.started hf, hn rfl⟩⟩⟩
  · exact (h.past p (opened_of_append (by simp) hp)).imp_left (List.mem_append_left _)
  · cases ha
    exact ⟨hs, hf, fun hc => by cases hc⟩

/-- **Every step keeps the invariant**, if a section that reads a set flag is the first to. -/
theorem Orderly.step (h : Orderly l v) (hs : View.Step v look v' o)
    (hlook : look → ∀ q, v.sequence = some q → v.flag = true →
      v.acting = none ∧ .returned q .stopPreviewSequence false ∉ l) : Orderly (l ++ o) v' := by
  have hnil : ∀ {w : View}, Orderly l w → Orderly (l ++ []) w := fun hw => by
    rwa [List.append_nil]
  cases hs with
  | aside o calm => exact h.calms calm
  | opens phase => exact h.opens phase
  | stores q phase => exact hnil (h.stores phase)
  | starts q phase => exact h.starts phase
  | flags q phase => exact hnil (h.flags phase)
  | leaves phase o calm => exact (h.calms calm).leaves phase
  | takes phase q sequence looks =>
    exact hnil (h.takes phase sequence (hlook looks q sequence))
  | takesNone phase sequence => exact hnil (h.takesNone phase sequence)
  | stops q phase => exact h.stops phase
  | releases q phase => exact h.releases phase
  | ends q phase ok => exact h.ends phase ok
  | requests q sequence flag acting looks =>
    obtain ⟨hacting, hthrown⟩ := hlook looks q sequence flag
    have hrun := (h.fits.running sequence flag).2
    have hn := (hrun.unstopped flag hacting).resolve_right hthrown
    refine hnil (h.acts sequence flag (.inl flag) (fun p called ha => ?_) fun _ ha => by cases ha)
    cases ha
    exact ⟨rfl, fun _ => hn⟩
  | calls q acting => exact h.calls acting
  | fails q acting =>
    obtain ⟨hs, hf, -⟩ := h.acting q true acting
    have h' := h.calm (x := .returned q .stopPreviewSequence false) (.inr ⟨true, acting⟩)
    exact h'.acts hs hf (.inl hf) (fun p called ha => by cases ha) fun _ _ => .inr (by simp)
  | clears q acting =>
    obtain ⟨hs, hf, -⟩ := h.acting q true acting
    refine hnil (h.acts hs hf (.inr rfl) (fun p called ha => by cases ha) fun ht => ?_)
    rw [if_pos hs] at ht
    cases ht

/-! ## The runs -/

theorem reach_orderly (h : Reach frameSource looksOnce {} es l s) :
    Orderly l s.view ∧ Threaded s := by
  refine h.inv (I := fun l s => Orderly l s.view ∧ Threaded s) ⟨⟨?_, ?_, ?_, ?_, ?_, ?_⟩, ?_⟩
    fun l s e s' o hi hg hs => ?_
  · simp
  · rintro q (hq | hq) <;> cases hq
  · simp
  · exact ⟨rfl, rfl⟩
  · intro q called ha
    cases ha
  · simp
  · exact fun _ => rfl
  · exact ⟨hi.1.step (view_step hi.2 hs) fun hlook q => hg hlook q, hi.2.step hs⟩

/-- What never comes after itself comes at most once. -/
theorem count_le_one {x : Act} (h : ∀ before after, l = before ++ x :: after → x ∉ before) :
    l.count x ≤ 1 := by
  induction l using List.reverseRec with
  | nil => exact Nat.zero_le _
  | append_singleton l y ih =>
    rw [List.count_append, List.count_singleton]
    by_cases hy : y = x
    · subst hy
      rw [List.count_eq_zero_of_not_mem (h l [] rfl)]
      simp
    · have hl := ih fun before after he => h before (after ++ [y]) (by rw [he]; simp)
      simp only [beq_iff_eq, hy, if_false]
      omega

/-- **Every sequence is stopped at most once and only when it has been started, released exactly
once, and not called after that**, in every run in which no section reads a flag that is spoken
for. -/
theorem calls_keep_protocol (h : Reach frameSource looksOnce {} es l s) : CallProtocol l s := by
  obtain ⟨hord, -⟩ := reach_orderly h
  have hrelease : ∀ q, l.count (.begun q .release) ≤ 1 := fun q =>
    count_le_one fun before after he => (hord.allowed before _ after he).1
  refine ⟨fun q => ?_, fun before q after he => ?_, fun hended q hq => ?_,
    fun before q after he method hm => ?_⟩
  · exact count_le_one fun before after he => ((hord.allowed before _ after he).2 rfl).2
  · exact ((hord.allowed before _ after he).2 rfl).1
  · have hphase : s.view.phase = .none := congrArg FrameWorker.phase hended
    have hvacant := hord.fits
    unfold View.Fits at hvacant
    rw [hphase] at hvacant
    have hmem := (hord.past q hq).resolve_right fun hholds => by
      rcases hholds with hholds | hholds
      · rw [hphase] at hholds
        cases hholds
      · cases hvacant.1.symm.trans hholds
    have hpos := List.count_pos_iff.2 hmem
    have hle := hrelease q
    omega
  · obtain ⟨between, last, rfl⟩ := List.append_of_mem hm
    have hallowed := hord.allowed (before ++ .begun q .release :: between) (.begun q method) last
      (by simp [he])
    exact hallowed.1 (by simp)

/-- The guard as a test of an event. -/
def looksOnceEvent (l : List Act) (s : CameraSequenceFrameSource) (e : Event) : Bool :=
  !decide (Looks s e) || s.sequence.all fun q => !s.sequenceStarted ||
    s.ui.acting.isNone && !l.contains (.returned q .stopPreviewSequence false)

theorem looksOnceEvent_guard (l : List Act) (s : CameraSequenceFrameSource) (e : Event)
    (h : looksOnceEvent l s e = true) : looksOnce l s e := by
  intro hlook q hq hf
  simpa [looksOnceEvent, hlook, hq, hf] using h

/-- A sequence is opened, started and polled; the worker has the frames. -/
def polled : List Event := .start :: List.replicate 13 .go

/-- The UI thread stops the sequence and joins the worker, which then releases it. -/
def stopSession : List Event :=
  polled ++ [.requestSequenceStop, .callStop, .stopReturns true, .clear, .stopAndJoin] ++
    List.replicate 6 .go ++ [.joined]

theorem calls_keep_protocol_stop : ∃ l s, Reach frameSource looksOnce {} stopSession l s ∧
    s.worker = .ended ∧ .opened 0 ∈ l ∧ .begun 0 .stopPreviewSequence ∈ l ∧ CallProtocol l s := by
  obtain ⟨l, s, h, hp⟩ := reach_of_execIf (M := frameSource) (g := looksOnceEvent)
    (s := {}) stopSession (p := fun x => x.1.worker == .ended && x.2.contains (.opened 0) &&
      x.2.contains (.begun 0 .stopPreviewSequence)) looksOnceEvent_guard (by decide +kernel)
  simp only [Bool.and_eq_true, beq_iff_eq, List.contains_iff_mem] at hp
  exact ⟨l, s, h, hp.1.1, hp.1.2, hp.2, calls_keep_protocol h⟩

/-- The worker throws over a frame and releases its sequence while the UI thread is on its way to
stop it. -/
def raceSession : List Event :=
  polled ++ [.requestSequenceStop, .throws, .go, .go, .go, .go, .callStop]

/-- The sequence is stopped twice, the second time after its release. -/
theorem race_breaks_protocol : ∃ l s, Run frameSource {} raceSession l s ∧
    ¬ CallProtocol l s := by
  obtain ⟨l, s, h, hp⟩ := run_of_exec (M := frameSource) (s := {}) raceSession
    (p := fun x => x.2.count (.begun 0 .stopPreviewSequence) == 2) (by decide +kernel)
  refine ⟨l, s, h, fun hprotocol => ?_⟩
  have hle := hprotocol.stoppedOnce 0
  rw [beq_iff_eq.1 hp] at hle
  omega

end RetroLens.Camera.Sequence
