import Mathlib.Order.Defs.Unbundled
import RetroLens.Lib.Checked

/-!
# Computations on a state

A C function that works on static data and returns a status: `Comp ε σ α` takes
the state to a value or a status, and to the state it leaves behind. It stops
where the C code would leave its memory, and where a loop of it has not ended
within a given number of passes.

`Ensures` is what holds however a computation comes out. A property of that kind
follows the code, one rule for each way to put it together. `Keeps` is for an
invariant and a relation between the states before and after, and `Sim` for two
computations that come out alike.
-/

namespace RetroLens.Comps

inductive Stop where
  | outside
  | unending
  deriving DecidableEq, Repr

inductive Outcome (ε σ α : Type) where
  | done (value : α) (state : σ)
  | fail (status : ε) (state : σ)
  | stop (why : Stop)

def Outcome.value? {ε σ α : Type} : Outcome ε σ α → Option α
  | .done value _ => some value
  | .fail _ _ => none
  | .stop _ => none

theorem Outcome.value?_eq_some {ε σ α : Type} {o : Outcome ε σ α} {a : α} :
    o.value? = some a ↔ ∃ s, o = .done a s := by
  cases o with
  | done value state =>
    simp only [Outcome.value?, Option.some.injEq, Outcome.done.injEq, exists_and_left, exists_eq',
      and_true]
  | fail status state => simp only [Outcome.value?, reduceCtorEq, exists_false]
  | stop why => simp only [Outcome.value?, reduceCtorEq, exists_false]

def Comp (ε σ α : Type) := σ → Outcome ε σ α

variable {ε σ α β : Type}

def Outcome.bind (o : Outcome ε σ α) (f : α → Comp ε σ β) : Outcome ε σ β :=
  match o with
  | .done value state => f value state
  | .fail status state => .fail status state
  | .stop why => .stop why

namespace Comp

instance : Monad (Comp ε σ) where
  pure value := fun state => .done value state
  bind m f := fun state => (m state).bind f

def get : Comp ε σ σ := fun state => .done state state

def modify (f : σ → σ) : Comp ε σ Unit := fun state => .done () (f state)

def fail (status : ε) : Comp ε σ α := fun state => .fail status state

def stop (why : Stop) : Comp ε σ α := fun _ => .stop why

/-- `if (c) return status;` -/
def check (c : Prop) [Decidable c] (status : ε) : Comp ε σ Unit :=
  if c then fail status else pure ()

/-- An access to memory. -/
def inside : Option α → Comp ε σ α
  | none => stop .outside
  | some value => pure value

/-- A call whose status is not looked at. -/
def ignore (m : Comp ε σ Unit) : Comp ε σ Unit := fun state =>
  match m state with
  | .done _ state => .done () state
  | .fail _ state => .done () state
  | .stop why => .stop why

end Comp

variable {m : Comp ε σ α} {f : α → Comp ε σ β} {s s' : σ} {a : α}

theorem bind_apply (m : Comp ε σ α) (f : α → Comp ε σ β) (s : σ) :
    (m >>= f) s = (m s).bind f := rfl

theorem bind_done (h : m s = .done a s') : (m >>= f) s = f a s' := by
  rw [bind_apply, h]
  rfl

theorem bind_fail {e : ε} (h : m s = .fail e s') : (m >>= f) s = .fail e s' := by
  rw [bind_apply, h]
  rfl

theorem bind_stop {why : Stop} (h : m s = .stop why) : (m >>= f) s = .stop why := by
  rw [bind_apply, h]
  rfl

theorem check_pass {c : Prop} [Decidable c] {e : ε} (h : ¬ c) :
    (Comp.check c e : Comp ε σ Unit) s = .done () s := by
  rw [Comp.check, if_neg h]
  rfl

theorem check_fail {c : Prop} [Decidable c] {e : ε} (h : c) :
    (Comp.check c e : Comp ε σ Unit) s = .fail e s := by
  rw [Comp.check, if_pos h]
  rfl

theorem bind_eq_done {b : β} :
    (m >>= f) s = .done b s' ↔ ∃ a s₁, m s = .done a s₁ ∧ f a s₁ = .done b s' := by
  rw [bind_apply]
  cases m s with
  | done value state =>
    refine ⟨fun h => ⟨value, state, rfl, h⟩, fun h => ?_⟩
    obtain ⟨a, s₁, hm, h⟩ := h
    cases hm
    exact h
  | fail status state =>
    refine ⟨fun h => (by cases h), fun h => ?_⟩
    obtain ⟨a, s₁, hm, -⟩ := h
    cases hm
  | stop why =>
    refine ⟨fun h => (by cases h), fun h => ?_⟩
    obtain ⟨a, s₁, hm, -⟩ := h
    cases hm

/-- What holds however the computation comes out. -/
@[irreducible] def Ensures (m : Comp ε σ α) (s : σ) (Q : α → σ → Prop) (E : ε → σ → Prop)
    (X : Stop → Prop) : Prop :=
  match m s with
  | .done value state => Q value state
  | .fail status state => E status state
  | .stop why => X why

namespace Ensures

variable {Q Q' : α → σ → Prop} {P : β → σ → Prop} {E E' : ε → σ → Prop} {X X' : Stop → Prop}

theorem pure (h : Q a s) : Ensures (Pure.pure a : Comp ε σ α) s Q E X := by
  unfold Ensures
  exact h

theorem get {Q : σ → σ → Prop} (h : Q s s) : Ensures (Comp.get : Comp ε σ σ) s Q E X := by
  unfold Ensures
  exact h

theorem modify {g : σ → σ} {Q : Unit → σ → Prop} (h : Q () (g s)) :
    Ensures (Comp.modify g : Comp ε σ Unit) s Q E X := by
  unfold Ensures
  exact h

theorem fail {e : ε} (h : E e s) : Ensures (Comp.fail e : Comp ε σ α) s Q E X := by
  unfold Ensures
  exact h

theorem stop {why : Stop} (h : X why) : Ensures (Comp.stop why : Comp ε σ α) s Q E X := by
  unfold Ensures
  exact h

theorem bind (h : Ensures m s (fun a s' => Ensures (f a) s' P E X) E X) :
    Ensures (m >>= f) s P E X := by
  unfold Ensures at h ⊢
  rw [bind_apply]
  cases hm : m s with
  | done value state =>
    rw [hm] at h
    exact h
  | fail status state =>
    rw [hm] at h
    exact h
  | stop why =>
    rw [hm] at h
    exact h

theorem mono (h : Ensures m s Q E X) (hQ : ∀ a s', Q a s' → Q' a s')
    (hE : ∀ e s', E e s' → E' e s') (hX : ∀ w, X w → X' w) : Ensures m s Q' E' X' := by
  unfold Ensures at h ⊢
  split
  · rename_i heq
    rw [heq] at h
    exact hQ _ _ h
  · rename_i heq
    rw [heq] at h
    exact hE _ _ h
  · rename_i heq
    rw [heq] at h
    exact hX _ h

theorem check {c : Prop} [Decidable c] {e : ε} {Q : Unit → σ → Prop} (hfail : c → E e s)
    (hpass : ¬ c → Q () s) : Ensures (Comp.check c e) s Q E X := by
  unfold Comp.check
  split
  · rename_i hc
    exact .fail (hfail hc)
  · rename_i hc
    exact .pure (hpass hc)

theorem of_done (hm : m s = .done a s') (h : Q a s') : Ensures m s Q E X := by
  unfold Ensures
  rw [hm]
  exact h

theorem done (h : Ensures m s Q E X) (hm : m s = .done a s') : Q a s' := by
  unfold Ensures at h
  rw [hm] at h
  exact h

end Ensures

theorem Ensures.and {Q Q' : α → σ → Prop} {E E' : ε → σ → Prop} {X X' : Stop → Prop}
    (h : Ensures m s Q E X) (h' : Ensures m s Q' E' X') :
    Ensures m s (fun a s => Q a s ∧ Q' a s) (fun e s => E e s ∧ E' e s) fun w => X w ∧ X' w := by
  unfold Ensures at h h' ⊢
  cases hm : m s <;> rw [hm] at h h' <;> exact ⟨h, h'⟩

/-- A call of which nothing is looked at. -/
theorem Ensures.ignore {m : Comp ε σ Unit} {Q : σ → Prop} {E : ε → σ → Prop} {X : Stop → Prop}
    (h : Ensures m s (fun _ s' => Q s') (fun _ s' => Q s') X) :
    Ensures (Comp.ignore m) s (fun _ s' => Q s') E X := by
  unfold Ensures at h ⊢
  unfold Comp.ignore
  cases hm : m s <;> rw [hm] at h <;> exact h

/-! ## What is kept -/

/-- However a computation from states of `I` comes out, it ends in `I`, and `R` holds between the
states before and after. A status that it returns is one of `B`. -/
def Keeps (I : σ → Prop) (R : σ → σ → Prop) (B : ε → Prop) (X : Stop → Prop) (m : Comp ε σ α) :
    Prop :=
  ∀ s, I s → Ensures m s (fun _ s' => I s' ∧ R s s') (fun e s' => B e ∧ I s' ∧ R s s') X

namespace Keeps

variable {I : σ → Prop} {R R' : σ → σ → Prop} {B : ε → Prop} {X : Stop → Prop}

theorem mono (h : Keeps I R B X m) (hR : ∀ s s', R s s' → R' s s') : Keeps I R' B X m :=
  fun s hs => (h s hs).mono (fun _ _ h => ⟨h.1, hR _ _ h.2⟩)
    (fun _ _ h => ⟨h.1, h.2.1, hR _ _ h.2.2⟩) fun _ h => h

theorem modify {g : σ → σ} (h : ∀ s, I s → I (g s) ∧ R s (g s)) :
    Keeps I R B X (Comp.modify g : Comp ε σ Unit) := fun s hs => .modify (h s hs)

theorem ignore {m : Comp ε σ Unit} (h : Keeps I R B X m) : Keeps I R B X (Comp.ignore m) := by
  intro s hs
  have hm := h s hs
  unfold Ensures at hm ⊢
  unfold Comp.ignore
  cases heq : m s with
  | done value state =>
    rw [heq] at hm
    exact hm
  | fail status state =>
    rw [heq] at hm
    exact hm.2
  | stop why =>
    rw [heq] at hm
    exact hm

theorem ite {c : Prop} [Decidable c] {m' : Comp ε σ α} (h : c → Keeps I R B X m)
    (h' : ¬ c → Keeps I R B X m') : Keeps I R B X (if c then m else m') := by
  split
  · rename_i hc
    exact h hc
  · rename_i hc
    exact h' hc

variable [IsPreorder σ R]

theorem pure (a : α) : Keeps I R B X (Pure.pure a : Comp ε σ α) :=
  fun s hs => .pure ⟨hs, refl s⟩

theorem fail {e : ε} (h : B e) : Keeps I R B X (Comp.fail e : Comp ε σ α) :=
  fun s hs => .fail ⟨h, hs, refl s⟩

theorem get : Keeps I R B X (Comp.get : Comp ε σ σ) := fun s hs => .get ⟨hs, refl s⟩

theorem check {c : Prop} [Decidable c] {e : ε} (h : B e) :
    Keeps I R B X (Comp.check c e : Comp ε σ Unit) :=
  fun s hs => .check (fun _ => ⟨h, hs, refl s⟩) fun _ => ⟨hs, refl s⟩

theorem bind (hm : Keeps I R B X m) (hf : ∀ a, Keeps I R B X (f a)) : Keeps I R B X (m >>= f) := by
  intro s hs
  refine .bind ((hm s hs).mono (fun a s' h => ?_) (fun _ _ h => h) fun _ h => h)
  exact (hf a s' h.1).mono (fun _ _ h' => ⟨h'.1, IsTrans.trans _ _ _ h.2 h'.2⟩)
    (fun _ _ h' => ⟨h'.1, h'.2.1, IsTrans.trans _ _ _ h.2 h'.2.2⟩) fun _ h' => h'

/-- What is kept from a state further back. -/
theorem since {s₀ : σ} (h : Keeps I R B X m) (hs : I s) (hback : R s₀ s) :
    Ensures m s (fun _ s' => I s' ∧ R s₀ s') (fun e s' => B e ∧ I s' ∧ R s₀ s') X :=
  (h s hs).mono (fun _ _ h' => ⟨h'.1, IsTrans.trans _ _ _ hback h'.2⟩)
    (fun _ _ h' => ⟨h'.1, h'.2.1, IsTrans.trans _ _ _ hback h'.2.2⟩) fun _ h' => h'

end Keeps

/-! ## Two computations side by side -/

/-- Two outcomes with the same value or status, and related states. -/
inductive Outcome.Related (r : σ → σ → Prop) : Outcome ε σ α → Outcome ε σ α → Prop where
  | done (a : α) {s s' : σ} : r s s' → Related r (.done a s) (.done a s')
  | fail (e : ε) {s s' : σ} : r s s' → Related r (.fail e s) (.fail e s')
  | stop (why : Stop) : Related r (.stop why) (.stop why)

/-- From related states two computations come out alike. -/
def Sim (r : σ → σ → Prop) (m m' : Comp ε σ α) : Prop :=
  ∀ s s', r s s' → (m s).Related r (m' s')

namespace Sim

variable {r : σ → σ → Prop} {m m' : Comp ε σ α} {f f' : α → Comp ε σ β}

theorem pure (a : α) : Sim r (Pure.pure a : Comp ε σ α) (Pure.pure a) := fun _ _ h => .done a h

theorem fail (e : ε) : Sim r (Comp.fail e : Comp ε σ α) (Comp.fail e) := fun _ _ h => .fail e h

theorem check (c : Prop) [Decidable c] (e : ε) :
    Sim r (Comp.check c e : Comp ε σ Unit) (Comp.check c e) := fun s s' h => by
  unfold Comp.check
  split
  · exact .fail e h
  · exact .done () h

theorem ite {c : Prop} [Decidable c] {n n' : Comp ε σ α} (h : c → Sim r m m')
    (h' : ¬ c → Sim r n n') : Sim r (if c then m else n) (if c then m' else n') := by
  split
  · rename_i hc
    exact h hc
  · rename_i hc
    exact h' hc

theorem bind (hm : Sim r m m') (hf : ∀ a, Sim r (f a) (f' a)) :
    Sim r (m >>= f) (m' >>= f') := by
  intro s s' h
  have hout := hm s s' h
  rw [bind_apply, bind_apply]
  generalize m s = o at hout ⊢
  generalize m' s' = o' at hout ⊢
  cases hout with
  | done a h' => exact hf a _ _ h'
  | fail e h' => exact .fail e h'
  | stop why => exact .stop why

/-- What comes behind a check has passed it. -/
theorem checked {c : Prop} [Decidable c] {e : ε} {f f' : Unit → Comp ε σ α}
    (h : ¬ c → Sim r (f ()) (f' ())) :
    Sim r (Comp.check c e >>= f) (Comp.check c e >>= f') := fun s s' hs => by
  by_cases hc : c
  · rw [bind_fail (check_fail hc), bind_fail (check_fail hc)]
    exact .fail e hs
  · rw [bind_done (check_pass hc), bind_done (check_pass hc)]
    exact h hc s s' hs

theorem get {f f' : σ → Comp ε σ α} (h : ∀ s s', r s s' → Sim r (f s) (f' s')) :
    Sim r (Comp.get >>= f) (Comp.get >>= f') := fun s s' hs => h s s' hs s s' hs

theorem modify {g g' : σ → σ} (h : ∀ s s', r s s' → r (g s) (g' s')) :
    Sim r (Comp.modify g : Comp ε σ Unit) (Comp.modify g') := fun s s' hs => .done () (h s s' hs)

/-- The second computation takes a step of its own. -/
theorem right {n : Comp ε σ Unit} (hn : ∀ s s', r s s' → ∃ s'', n s' = .done () s'' ∧ r s s'')
    (h : Sim r m m') : Sim r m (n >>= fun _ => m') := by
  intro s s' hs
  obtain ⟨s'', hdone, hs'⟩ := hn s s' hs
  rw [bind_done hdone]
  exact h s s'' hs'

end Sim

end RetroLens.Comps
