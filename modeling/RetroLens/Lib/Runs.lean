import Mathlib.Tactic.Common

/-!
# Runs of event-driven machines

A `Machine` takes one event at a time: `step s e` is `none` where `e` cannot
happen in `s`, and otherwise gives the next state and the actions an observer
sees. `Reach M G s₀ es l s` says that the events `es` lead from `s₀` to `s`
with the log `l` of actions, every step meeting the guard `G` on the log so
far, the state before it and its event; `Run` is `Reach` without a guard.
`Reach.inv` packages the induction over runs once: what holds at the start
and is kept by every guarded step holds of every state reached.
-/

namespace Runs

universe u v w

structure Machine (σ : Type u) (ε : Type v) (α : Type w) where
  step : σ → ε → Option (σ × List α)

variable {σ : Type u} {ε : Type v} {α : Type w}

/-- A condition on a step: the log before it, the state before it, its event. -/
abbrev Guard (σ : Type u) (ε : Type v) (α : Type w) := List α → σ → ε → Prop

inductive Reach (M : Machine σ ε α) (G : Guard σ ε α) (s₀ : σ) : List ε → List α → σ → Prop where
  | init : Reach M G s₀ [] [] s₀
  | step {es : List ε} {l : List α} {s : σ} {e : ε} {s' : σ} {o : List α} :
      Reach M G s₀ es l s → G l s e → M.step s e = some (s', o) →
      Reach M G s₀ (es ++ [e]) (l ++ o) s'

/-- The guard that every step meets. -/
def free : Guard σ ε α := fun _ _ _ => True

abbrev Run (M : Machine σ ε α) (s₀ : σ) : List ε → List α → σ → Prop := Reach M free s₀

variable {M : Machine σ ε α} {G G' : Guard σ ε α} {s₀ s : σ} {es : List ε} {l : List α}

/-- **The run rule.** An invariant of log and state that every guarded step keeps. -/
theorem Reach.inv {I : List α → σ → Prop} (h0 : I [] s₀)
    (hstep : ∀ l s e s' o, I l s → G l s e → M.step s e = some (s', o) → I (l ++ o) s')
    (h : Reach M G s₀ es l s) : I l s := by
  induction h with
  | init => exact h0
  | step _ hg hs ih => exact hstep _ _ _ _ _ ih hg hs

/-- The run rule for an invariant that does not look at the log. -/
theorem Reach.inv_state {I : σ → Prop} (h0 : I s₀)
    (hstep : ∀ l s e s' o, I s → G l s e → M.step s e = some (s', o) → I s')
    (h : Reach M G s₀ es l s) : I s :=
  h.inv (I := fun _ => I) h0 hstep

theorem Reach.mono (hG : ∀ l s e, G l s e → G' l s e) (h : Reach M G s₀ es l s) :
    Reach M G' s₀ es l s := by
  induction h with
  | init => exact .init
  | step _ hg hs ih => exact .step ih (hG _ _ _ hg) hs

theorem Reach.run (h : Reach M G s₀ es l s) : Run M s₀ es l s := h.mono fun _ _ _ _ => trivial

/-- Every event of a run is one of its events. -/
theorem Reach.mem (h : Reach M G s₀ es l s) :
    Reach M (fun l s e => G l s e ∧ e ∈ es) s₀ es l s := by
  induction h with
  | init => exact .init
  | step _ hg hs ih =>
    exact .step (ih.mono fun _ _ _ h => ⟨h.1, List.mem_append_left _ h.2⟩) ⟨hg, by simp⟩ hs

/-- Runs compose: the second run's guard sees the first run's log before its own. -/
theorem Reach.append {es' : List ε} {l' : List α} {s' : σ} (h : Reach M G s₀ es l s)
    (h' : Reach M (fun l' => G (l ++ l')) s es' l' s') :
    Reach M G s₀ (es ++ es') (l ++ l') s' := by
  induction h' with
  | init => simpa using h
  | step _ hg hs ih => rw [← List.append_assoc, ← List.append_assoc]; exact .step ih hg hs

/-- **Simulation.** If `N` can answer every guarded step of `M` with a run that keeps `R`, it can
answer every run. -/
theorem Reach.simulate {τ : Type u} {δ : Type v} {β : Type w} {N : Machine τ δ β} {t₀ : τ}
    {R : List α → σ → List β → τ → Prop} (h0 : R [] s₀ [] t₀)
    (hstep : ∀ l s e s' o k t, R l s k t → G l s e → M.step s e = some (s', o) →
      ∃ ds k' t', Run N t ds k' t' ∧ R (l ++ o) s' (k ++ k') t')
    (h : Reach M G s₀ es l s) : ∃ ds k t, Run N t₀ ds k t ∧ R l s k t := by
  induction h with
  | init => exact ⟨[], [], t₀, .init, h0⟩
  | step _ hg hs ih =>
    obtain ⟨ds, k, t, hrun, hr⟩ := ih
    obtain ⟨ds', k', t', hrun', hr'⟩ := hstep _ _ _ _ _ _ _ hr hg hs
    exact ⟨ds ++ ds', k ++ k', t', hrun.append hrun', hr'⟩

/-- What `f` notes of each step. -/
def Machine.notes {β : Type w} (M : Machine σ ε α) (f : σ → ε → List β) : σ → List ε → List β
  | _, [] => []
  | s, e :: es =>
    match M.step s e with
    | none => []
    | some (s', _) => f s e ++ M.notes f s' es

theorem Reach.notes_append {β : Type w} (f : σ → ε → List β) (h : Reach M G s₀ es l s)
    (es' : List ε) : M.notes f s₀ (es ++ es') = M.notes f s₀ es ++ M.notes f s es' := by
  induction h generalizing es' with
  | init => rfl
  | step _ _ hs ih =>
    rename_i es _ s e s' _ _ _
    have hcons (rest : List ε) : M.notes f s (e :: rest) = f s e ++ M.notes f s' rest := by
      rw [Machine.notes, hs]
    have hone : M.notes f s₀ (es ++ [e]) = M.notes f s₀ es ++ f s e := by
      rw [ih, hcons]
      exact congrArg _ (List.append_nil _)
    rw [hone, List.append_assoc, List.singleton_append, ih, hcons, List.append_assoc]

/-- What is noted of a run's last step comes last. -/
theorem Reach.notes_step {β : Type w} (f : σ → ε → List β) (h : Reach M G s₀ es l s) {e : ε}
    {s' : σ} {o : List α} (hs : M.step s e = some (s', o)) :
    M.notes f s₀ (es ++ [e]) = M.notes f s₀ es ++ f s e := by
  rw [h.notes_append, Machine.notes, hs]
  exact congrArg _ (List.append_nil _)

/-- An element of a longer list is one of the list's or one of the rest's. -/
theorem split_append {l o l₁ l₂ : List α} {a : α} (h : l ++ o = l₁ ++ a :: l₂) :
    (∃ r, l = l₁ ++ a :: r ∧ l₂ = r ++ o) ∨ ∃ r, l₁ = l ++ r ∧ o = r ++ a :: l₂ := by
  rcases List.append_eq_append_iff.1 h with ⟨r, hl₁, ho⟩ | ⟨r, hl, hr⟩
  · exact .inr ⟨r, hl₁, ho⟩
  · cases r with
    | nil => exact .inr ⟨[], by simpa using hl.symm, hr.symm⟩
    | cons b r =>
      obtain ⟨rfl, hl₂⟩ := List.cons.inj hr
      exact .inl ⟨r, hl, hl₂⟩

/-- What every step with an action of the kind `p` finds in the log, that action finds before it. -/
theorem Reach.preceded {p : α → Prop} {Q : List α → Prop} (hmono : ∀ l o, Q l → Q (l ++ o))
    (hstep : ∀ es l s e s' o a, Reach M G s₀ es l s → G l s e → M.step s e = some (s', o) →
      a ∈ o → p a → Q l)
    (h : Reach M G s₀ es l s) : ∀ l₁ a l₂, l = l₁ ++ a :: l₂ → p a → Q l₁ := by
  induction h with
  | init => intro l₁ a l₂ hl; simp at hl
  | step h hg hs ih =>
    intro l₁ a l₂ hl ha
    rcases split_append hl with ⟨r, hl, -⟩ | ⟨r, rfl, ho⟩
    · exact ih _ _ _ hl ha
    · exact hmono _ _ (hstep _ _ _ _ _ _ a h hg hs (by simp [ho]) ha)

/-- A run of one step. -/
theorem run_step {e : ε} {s' : σ} {o : List α} (h : M.step s e = some (s', o)) :
    Run M s [e] o s' := by
  simpa using Reach.init.step (G := free) trivial h

/-! ## Executing a run -/

/-- The end state and the log, begun with `l`, of a list of events that can all
happen with `g` true before each. -/
def Machine.execIf (M : Machine σ ε α) (g : List α → σ → ε → Bool) :
    List α → σ → List ε → Option (σ × List α)
  | l, s, [] => some (s, l)
  | l, s, e :: es =>
    if g l s e then
      match M.step s e with
      | none => none
      | some (s', o) => M.execIf g (l ++ o) s' es
    else none

def Machine.exec (M : Machine σ ε α) (s : σ) (es : List ε) : Option (σ × List α) :=
  M.execIf (fun _ _ _ => true) [] s es

theorem Reach.execIf {g : List α → σ → ε → Bool} {es' : List ε} {l' : List α} {s' : σ}
    (hg : ∀ l s e, g l s e = true → G l s e) (h : Reach M G s₀ es l s)
    (h' : M.execIf g l s es' = some (s', l')) : Reach M G s₀ (es ++ es') l' s' := by
  induction es' generalizing es l s with
  | nil => cases h'; simpa using h
  | cons e es' ih =>
    simp only [Machine.execIf] at h'
    split at h'
    · rename_i hge
      split at h'
      · cases h'
      · rename_i s₁ o hs
        simpa using ih (.step h (hg _ _ _ hge) hs) h'
    · cases h'

/-- A checked list of events is a guarded run to a state that passes `p`. -/
theorem reach_of_execIf {g : List α → σ → ε → Bool} (es : List ε) {p : σ × List α → Bool}
    (hg : ∀ l s e, g l s e = true → G l s e) (h : (M.execIf g [] s es).any p = true) :
    ∃ l s', Reach M G s es l s' ∧ p (s', l) = true := by
  obtain ⟨⟨s', l⟩, h, hp⟩ := (Option.any_eq_true _ _).1 h
  exact ⟨l, s', Reach.init.execIf hg h, hp⟩

theorem run_of_exec (es : List ε) {p : σ × List α → Bool} (h : (M.exec s es).any p = true) :
    ∃ l s', Run M s es l s' ∧ p (s', l) = true :=
  reach_of_execIf es (fun _ _ _ _ => trivial) h

theorem run_of_exec_eq {s' : σ} (h : M.exec s es = some (s', l)) : Run M s es l s' :=
  Reach.init.execIf (fun _ _ _ _ => trivial) h

end Runs
