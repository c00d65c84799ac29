import Mathlib.Logic.Function.Basic
import RetroLens.Lib.Runs

/-!
# Threads over one memory and one reentrant monitor

* `Prog μ κ ρ α` — a thread's program: steps on the shared memory `μ`, entry to
  and exit from the monitor, and outside calls `κ` with replies `ρ`. A call has
  a begin and an end, with steps of other threads between them.
* `System` — the programs a thread may enter, and what a call's begin and end
  do to the outside world `ω`. `System.machine` interleaves the threads.
* `Prog.wp` — what the only writer of memory and world must show at each of its
  steps (`Thread.Safe.run`, `Thread.Safe.ret`).
* `Prog.Guarded` — a reader that calls out only inside the monitor, and only on
  what it has just read (`Guarded.run`, `Guarded.ret`).
-/

namespace Threads

inductive Prog (μ κ ρ α : Type) where
  | pure (a : α)
  | lock (next : Prog μ κ ρ α)
  | unlock (next : Prog μ κ ρ α)
  | read (next : μ → Prog μ κ ρ α)
  | write (f : μ → μ) (next : Prog μ κ ρ α)
  | call (c : κ) (next : ρ → Prog μ κ ρ α)

section

variable {μ κ ρ ω α β : Type}

namespace Prog

def bind : Prog μ κ ρ α → (α → Prog μ κ ρ β) → Prog μ κ ρ β
  | .pure a, f => f a
  | .lock p, f => .lock (p.bind f)
  | .unlock p, f => .unlock (p.bind f)
  | .read k, f => .read fun m => (k m).bind f
  | .write g p, f => .write g (p.bind f)
  | .call c k, f => .call c fun r => (k r).bind f

instance : Monad (Prog μ κ ρ) where
  pure := .pure
  bind := .bind

/-- Read a field. -/
def get (f : μ → α) : Prog μ κ ρ α := .read fun m => .pure (f m)

def set (f : μ → μ) : Prog μ κ ρ Unit := .write f (.pure ())

def invoke (c : κ) : Prog μ κ ρ ρ := .call c .pure

/-- A method body that holds the monitor throughout. -/
def synchronized (p : Prog μ κ ρ α) : Prog μ κ ρ α :=
  .lock (p.bind fun a => .unlock (.pure a))

end Prog

/-- What the begin and the end of an outside call do; `reply` is `none` for a
reply that cannot come. -/
structure World (κ ρ ω : Type) where
  start : ω → κ → ω
  reply : ω → κ → ρ → Option ω

/-! ## The writer's obligation -/

namespace Prog

variable (W : World κ ρ ω) (I : μ → ω → Prop) (ok : κ → μ → ω → Prop)

/-- Every call meets `ok` where it begins, `I` holds after every step, and `Q` at the end. -/
def wp : Prog μ κ ρ α → (α → μ → ω → Prop) → μ → ω → Prop
  | .pure a, Q, m, w => Q a m w
  | .lock p, Q, m, w => p.wp Q m w
  | .unlock p, Q, m, w => p.wp Q m w
  | .read k, Q, m, w => (k m).wp Q m w
  | .write f p, Q, m, w => I (f m) w ∧ p.wp Q (f m) w
  | .call c k, Q, m, w => ok c m w ∧ I m (W.start w c) ∧
      ∀ r w', W.reply (W.start w c) c r = some w' → I m w' ∧ (k r).wp Q m w'

variable {W I ok}

@[simp] theorem wp_pure (a : α) (Q : α → μ → ω → Prop) (m : μ) (w : ω) :
    (Pure.pure a : Prog μ κ ρ α).wp W I ok Q m w ↔ Q a m w := Iff.rfl

theorem wp_bind' (p : Prog μ κ ρ α) (f : α → Prog μ κ ρ β) (Q : β → μ → ω → Prop) (m : μ) (w : ω) :
    (p.bind f).wp W I ok Q m w ↔ p.wp W I ok (fun a => (f a).wp W I ok Q) m w := by
  induction p generalizing m w with
  | pure a => rfl
  | lock p ih => exact ih m w
  | unlock p ih => exact ih m w
  | read k ih => exact ih m m w
  | write g p ih => simp only [bind, wp, ih]
  | call c k ih => simp only [bind, wp, ih]

@[simp] theorem wp_bind (p : Prog μ κ ρ α) (f : α → Prog μ κ ρ β) (Q : β → μ → ω → Prop) (m : μ)
    (w : ω) : (p >>= f).wp W I ok Q m w ↔ p.wp W I ok (fun a => (f a).wp W I ok Q) m w :=
  wp_bind' p f Q m w

@[simp] theorem wp_get (f : μ → α) (Q : α → μ → ω → Prop) (m : μ) (w : ω) :
    (get f : Prog μ κ ρ α).wp W I ok Q m w ↔ Q (f m) m w := Iff.rfl

@[simp] theorem wp_set (f : μ → μ) (Q : Unit → μ → ω → Prop) (m : μ) (w : ω) :
    (set f : Prog μ κ ρ Unit).wp W I ok Q m w ↔ I (f m) w ∧ Q () (f m) w := Iff.rfl

@[simp] theorem wp_invoke (c : κ) (Q : ρ → μ → ω → Prop) (m : μ) (w : ω) :
    (invoke c : Prog μ κ ρ ρ).wp W I ok Q m w ↔ ok c m w ∧ I m (W.start w c) ∧
      ∀ r w', W.reply (W.start w c) c r = some w' → I m w' ∧ Q r m w' := Iff.rfl

@[simp] theorem wp_synchronized (p : Prog μ κ ρ α) (Q : α → μ → ω → Prop) (m : μ) (w : ω) :
    (synchronized p).wp W I ok Q m w ↔ p.wp W I ok Q m w :=
  wp_bind' p _ Q m w

theorem wp_mono {p : Prog μ κ ρ α} {Q Q' : α → μ → ω → Prop} (hQ : ∀ a m w, Q a m w → Q' a m w)
    {m : μ} {w : ω} (h : p.wp W I ok Q m w) : p.wp W I ok Q' m w := by
  induction p generalizing m w with
  | pure a => exact hQ a m w h
  | lock p ih => exact ih h
  | unlock p ih => exact ih h
  | read k ih => exact ih m h
  | write f p ih => exact ⟨h.1, ih h.2⟩
  | call c k ih => exact ⟨h.1, h.2.1, fun r w' hr => ⟨(h.2.2 r w' hr).1, ih r (h.2.2 r w' hr).2⟩⟩

/-- Unfold a conditional under `wp`. -/
@[simp] theorem wp_ite (c : Prop) [Decidable c] (p q : Prog μ κ ρ α) (Q : α → μ → ω → Prop) (m : μ)
    (w : ω) : (if c then p else q).wp W I ok Q m w ↔
      if c then p.wp W I ok Q m w else q.wp W I ok Q m w := by
  split <;> rfl

end Prog

/-! ## The reader's discipline -/

namespace Prog

/-- Inside the monitor at depth `d`, with `last` what was read just now. No
write; a call only inside the monitor, and only on what was read just now. -/
def Guarded (R : κ → μ → Prop) : Prog μ κ ρ α → Nat → Option μ → Prop
  | .pure _, d, _ => d = 0
  | .lock p, d, _ => p.Guarded R (d + 1) none
  | .unlock p, d, _ => ∃ n, d = n + 1 ∧ p.Guarded R n none
  | .read k, d, _ => 0 < d ∧ ∀ m, (k m).Guarded R d (some m)
  | .write _ _, _, _ => False
  | .call c k, d, last => (∃ m, last = some m ∧ R c m) ∧ 0 < d ∧ ∀ r, (k r).Guarded R d none

end Prog

end

/-! ## The interleaving machine -/

/-- A thread at rest or within a program, or waiting for a call to return. -/
inductive Thread (μ κ ρ : Type) where
  | ready (p : Prog μ κ ρ Unit)
  | calling (c : κ) (next : ρ → Prog μ κ ρ Unit)

/-- The call a thread is in, or makes with its next step. -/
def Thread.pending {μ κ ρ : Type} : Thread μ κ ρ → Option κ
  | .ready (.call c _) => some c
  | .calling c _ => some c
  | _ => none

def Thread.inProgress {μ κ ρ : Type} : Thread μ κ ρ → Option κ
  | .calling c _ => some c
  | .ready _ => none

structure State (τ μ κ ρ ω : Type) where
  mem : μ
  world : ω
  /-- The monitor's owner, and how often it has entered. -/
  owner : Option (τ × Nat)
  thread : τ → Thread μ κ ρ

structure System (τ ε μ κ ρ ω : Type) extends World κ ρ ω where
  /-- The program that an outside event starts on a thread at rest. -/
  enter : τ → ε → μ → Option (Prog μ κ ρ Unit)

inductive Event (τ ε ρ : Type) where
  | enter (t : τ) (e : ε)
  | run (t : τ)
  | ret (t : τ) (r : ρ)

/-- `n` internal steps of thread `t`. -/
def Event.steps {τ ε ρ : Type} (t : τ) (n : Nat) : List (Event τ ε ρ) := List.replicate n (.run t)

/-- Thread `t` is `d` deep in the monitor. -/
def State.Holds {τ μ κ ρ ω : Type} (s : State τ μ κ ρ ω) (t : τ) : Nat → Prop
  | 0 => ∀ n, s.owner ≠ some (t, n)
  | d + 1 => s.owner = some (t, d + 1)

/-- Thread `t` follows the reader's discipline from where it stands. -/
def State.Reader {τ μ κ ρ ω : Type} (R : κ → μ → Prop) (s : State τ μ κ ρ ω) (t : τ) : Prop :=
  ∃ d, s.Holds t d ∧
    match s.thread t with
    | .ready p => ∃ last, p.Guarded R d last
    | .calling _ k => 0 < d ∧ ∀ r, (k r).Guarded R d none

section

variable {τ ε μ κ ρ ω : Type} [DecidableEq τ]

/-- Thread `t` goes on as `p`. -/
def State.goOn (s : State τ μ κ ρ ω) (t : τ) (p : Prog μ κ ρ Unit) : State τ μ κ ρ ω :=
  { s with thread := Function.update s.thread t (.ready p) }

/-- Thread `t` begins the call `c`. -/
def State.begin (s : State τ μ κ ρ ω) (W : World κ ρ ω) (t : τ) (c : κ)
    (k : ρ → Prog μ κ ρ Unit) : State τ μ κ ρ ω :=
  { s with world := W.start s.world c, thread := Function.update s.thread t (.calling c k) }

@[simp] theorem State.goOn_thread (s : State τ μ κ ρ ω) (t : τ) (p : Prog μ κ ρ Unit) :
    (s.goOn t p).thread t = .ready p :=
  Function.update_self ..

@[simp] theorem State.begin_thread (s : State τ μ κ ρ ω) (W : World κ ρ ω) (t : τ) (c : κ)
    (k : ρ → Prog μ κ ρ Unit) : (s.begin W t c k).thread t = .calling c k :=
  Function.update_self ..

/-- One internal step of thread `t`. -/
def State.run (W : World κ ρ ω) (s : State τ μ κ ρ ω) (t : τ) :
    Option (State τ μ κ ρ ω × List (τ × κ)) :=
  match s.thread t with
  | .calling _ _ => none
  | .ready (.pure _) => none
  | .ready (.lock p) =>
    match s.owner with
    | none => some ({ s with owner := some (t, 1) }.goOn t p, [])
    | some (u, n) =>
      if u = t then some ({ s with owner := some (t, n + 1) }.goOn t p, []) else none
  | .ready (.unlock p) =>
    match s.owner with
    | some (u, n + 1) =>
      if u = t then
        some ({ s with owner := if n = 0 then none else some (t, n) }.goOn t p, [])
      else none
    | _ => none
  | .ready (.read k) => some (s.goOn t (k s.mem), [])
  | .ready (.write f p) => some ({ s with mem := f s.mem }.goOn t p, [])
  | .ready (.call c k) => some (s.begin W t c k, [(t, c)])

/-- The system's machine: threads at rest enter programs, threads step, calls return. -/
def System.machine (Y : System τ ε μ κ ρ ω) :
    Runs.Machine (State τ μ κ ρ ω) (Event τ ε ρ) (τ × κ) where
  step s
    | .enter t e =>
      match s.thread t, Y.enter t e s.mem with
      | .ready (.pure _), some p => some (s.goOn t p, [])
      | _, _ => none
    | .run t => s.run Y.toWorld t
    | .ret t r =>
      match s.thread t with
      | .calling c k =>
        match Y.reply s.world c r with
        | some w => some ({ s with world := w }.goOn t (k r), [])
        | none => none
      | .ready _ => none

/-- What an event can do. -/
inductive Step (Y : System τ ε μ κ ρ ω) (s : State τ μ κ ρ ω) :
    Event τ ε ρ → State τ μ κ ρ ω → List (τ × κ) → Prop where
  | enter {t e a p} (ht : s.thread t = .ready (.pure a)) (he : Y.enter t e s.mem = some p) :
      Step Y s (.enter t e) (s.goOn t p) []
  | lock {t p} (ht : s.thread t = .ready (.lock p)) (ho : s.owner = none) :
      Step Y s (.run t) ({ s with owner := some (t, 1) }.goOn t p) []
  | relock {t p n} (ht : s.thread t = .ready (.lock p)) (ho : s.owner = some (t, n)) :
      Step Y s (.run t) ({ s with owner := some (t, n + 1) }.goOn t p) []
  | unlock {t p n} (ht : s.thread t = .ready (.unlock p)) (ho : s.owner = some (t, n + 1)) :
      Step Y s (.run t)
        ({ s with owner := if n = 0 then none else some (t, n) }.goOn t p) []
  | read {t k} (ht : s.thread t = .ready (.read k)) :
      Step Y s (.run t) (s.goOn t (k s.mem)) []
  | write {t f p} (ht : s.thread t = .ready (.write f p)) :
      Step Y s (.run t) ({ s with mem := f s.mem }.goOn t p) []
  | call {t c k} (ht : s.thread t = .ready (.call c k)) :
      Step Y s (.run t) (s.begin Y.toWorld t c k) [(t, c)]
  | ret {t c k r w} (ht : s.thread t = .calling c k) (hr : Y.reply s.world c r = some w) :
      Step Y s (.ret t r) ({ s with world := w }.goOn t (k r)) []

/-- The thread an event steps. -/
def Event.thread : Event τ ε ρ → τ
  | .enter t _ => t
  | .run t => t
  | .ret t _ => t

variable {Y : System τ ε μ κ ρ ω} {s s' : State τ μ κ ρ ω} {e : Event τ ε ρ} {o : List (τ × κ)}

theorem machine_step (h : Y.machine.step s e = some (s', o)) : Step Y s e s' o := by
  cases e with
  | enter t e =>
    simp only [System.machine] at h
    split at h
    · rename_i a p ht he
      cases h
      exact .enter ht he
    · cases h
  | run t =>
    simp only [System.machine, State.run] at h
    split at h
    · cases h
    · cases h
    · rename_i p ht
      split at h
      · rename_i ho
        cases h
        exact .lock ht ho
      · rename_i u n ho
        split at h
        · rename_i hu
          cases h
          exact .relock ht (hu ▸ ho)
        · cases h
    · rename_i p ht
      split at h
      · rename_i u n ho
        split at h
        · rename_i hu
          cases h
          exact .unlock ht (hu ▸ ho)
        · cases h
      · cases h
    · rename_i k ht
      cases h
      exact .read ht
    · rename_i f p ht
      cases h
      exact .write ht
    · rename_i c k ht
      cases h
      exact .call ht
  | ret t r =>
    simp only [System.machine] at h
    split at h
    · rename_i c k ht
      split at h
      · rename_i w hr
        cases h
        exact .ret ht hr
      · cases h
    · cases h

/-- The other threads stand where they stood. -/
theorem Step.other (h : Step Y s e s' o) {u : τ} (hu : u ≠ e.thread) :
    s'.thread u = s.thread u := by
  cases h <;> exact Function.update_of_ne hu _ _

/-! ## The writer's run -/

/-- The writer's obligation wherever it stands. -/
def Safe (W : World κ ρ ω) (I : μ → ω → Prop) (ok : κ → μ → ω → Prop) (m : μ) (w : ω) :
    Thread μ κ ρ → Prop
  | .ready p => p.wp W I ok (fun _ => I) m w
  | .calling c k => ∀ r w', W.reply w c r = some w' →
      I m w' ∧ (k r).wp W I ok (fun _ => I) m w'

variable {I : μ → ω → Prop} {ok : κ → μ → ω → Prop}

/-- **The writer's rule.** A step of the writer keeps its obligation and the
invariant, and begins a call only where the call is `ok`. -/
theorem Safe.step (h : Step Y s e s' o)
    (hs : Safe Y.toWorld I ok s.mem s.world (s.thread e.thread)) (hi : I s.mem s.world)
    (henter : ∀ x p, Y.enter e.thread x s.mem = some p →
      p.wp Y.toWorld I ok (fun _ => I) s.mem s.world) :
    Safe Y.toWorld I ok s'.mem s'.world (s'.thread e.thread) ∧ I s'.mem s'.world ∧
      ∀ x ∈ o, ok x.2 s.mem s.world := by
  cases h with
  | enter ht he =>
    simp only [Event.thread, State.goOn_thread]
    exact ⟨henter _ _ he, hi, by simp⟩
  | lock ht ho =>
    simp only [Event.thread, ht, State.goOn_thread] at hs ⊢
    exact ⟨hs, hi, by simp⟩
  | relock ht ho =>
    simp only [Event.thread, ht, State.goOn_thread] at hs ⊢
    exact ⟨hs, hi, by simp⟩
  | unlock ht ho =>
    simp only [Event.thread, ht, State.goOn_thread] at hs ⊢
    exact ⟨hs, hi, by simp⟩
  | read ht =>
    simp only [Event.thread, ht, State.goOn_thread] at hs ⊢
    exact ⟨hs, hi, by simp⟩
  | write ht =>
    simp only [Event.thread, ht, State.goOn_thread] at hs ⊢
    exact ⟨hs.2, hs.1, by simp⟩
  | call ht =>
    simp only [Event.thread, ht, State.begin_thread] at hs ⊢
    exact ⟨hs.2.2, hs.2.1, by simpa using hs.1⟩
  | ret ht hr =>
    simp only [Event.thread, ht, State.goOn_thread] at hs ⊢
    obtain ⟨hi', hk⟩ := hs _ _ hr
    exact ⟨hk, hi', by simp⟩

/-! ## The readers' runs -/

variable {R : κ → μ → Prop} {u : τ}

/-- What a reader does to the state: nothing, but for what its calls do. -/
structure Quiet (Y : System τ ε μ κ ρ ω) (s : State τ μ κ ρ ω) (e : Event τ ε ρ)
    (s' : State τ μ κ ρ ω) : Prop where
  mem : s'.mem = s.mem
  world : s'.world = s.world ∨
    ∃ c, (s.thread e.thread).pending = some c ∧
      (s'.world = Y.start s.world c ∨ ∃ r, Y.reply s.world c r = some s'.world)

omit [DecidableEq τ] in
/-- The call a reader makes next is on what it read just now. -/
theorem Prog.Guarded.pending {p : Prog μ κ ρ Unit} {d : Nat} {last : Option μ} {c : κ}
    (h : p.Guarded R d last) (hc : (Thread.ready p).pending = some c) :
    ∃ m, last = some m ∧ R c m := by
  cases p with
  | call c' k => cases hc; exact h.1
  | _ => simp [Thread.pending] at hc

omit [DecidableEq τ] in
/-- A reader with a call to make or to finish owns the monitor. -/
theorem State.Reader.owner {c : κ} (h : s.Reader R u) (hc : (s.thread u).pending = some c) :
    ∃ n, s.owner = some (u, n) := by
  obtain ⟨d, hd, h⟩ := h
  have hpos : 0 < d := by
    split at h
    · rename_i p ht
      obtain ⟨last, h⟩ := h
      rw [ht] at hc
      cases p with
      | call c' k => exact h.2.1
      | _ => simp [Thread.pending] at hc
    · exact h.1
  obtain ⟨n, rfl⟩ : ∃ n, d = n + 1 := ⟨d - 1, by omega⟩
  exact ⟨n + 1, hd⟩

/-- A step of another thread leaves a reader where it is. -/
theorem State.Reader.other (h : Step Y s e s' o) (hr : s.Reader R u) (hu : u ≠ e.thread) :
    s'.Reader R u := by
  obtain ⟨d, hd, hk⟩ := hr
  refine ⟨d, ?_, by rw [h.other hu]; exact hk⟩
  cases h with
  | lock ht ho =>
    cases d with
    | zero => intro n hn; simp [State.goOn] at hn; exact hu hn.1.symm
    | succ d => simp [State.Holds, ho] at hd
  | relock ht ho =>
    cases d with
    | zero => intro n hn; simp [State.goOn] at hn; exact hu hn.1.symm
    | succ d => simp [State.Holds, ho] at hd; exact absurd hd.1.symm hu
  | @unlock t p n ht ho =>
    cases d with
    | zero =>
      intro m hm
      simp only [State.goOn] at hm
      split at hm
      · cases hm
      · simp at hm; exact hu hm.1.symm
    | succ d => simp [State.Holds, ho] at hd; exact absurd hd.1.symm hu
  | _ => cases d <;> exact hd

/-- **The reader's rule.** A step of a reader keeps its discipline and is quiet;
the call it is then about to make it was about to make before, or it has just
read what the call is on. -/
theorem State.Reader.step (h : Step Y s e s' o) (hr : s.Reader R e.thread)
    (henter : ∀ x p, Y.enter e.thread x s.mem = some p → p.Guarded R 0 none) :
    s'.Reader R e.thread ∧ Quiet Y s e s' ∧
      ∀ c, (s'.thread e.thread).pending = some c →
        (s.thread e.thread).pending = some c ∨ R c s.mem := by
  obtain ⟨d, hd, hk⟩ := hr
  cases h with
  | enter ht he =>
    simp only [Event.thread, ht] at hd hk henter ⊢
    obtain ⟨-, rfl⟩ := hk
    have hp := henter _ _ he
    refine ⟨⟨0, hd, by simpa using ⟨none, hp⟩⟩, ⟨rfl, .inl rfl⟩, fun c hc => ?_⟩
    obtain ⟨m, hm, -⟩ := hp.pending (by simpa using hc)
    cases hm
  | @lock t p ht ho =>
    simp only [Event.thread, ht] at hd hk ⊢
    obtain ⟨_, (hk : p.Guarded R (d + 1) none)⟩ := hk
    obtain rfl : d = 0 := by
      cases d with
      | zero => rfl
      | succ d => simp [State.Holds, ho] at hd
    refine ⟨⟨1, rfl, by simpa using ⟨none, hk⟩⟩, ⟨rfl, .inl rfl⟩, fun c hc => ?_⟩
    obtain ⟨m, hm, -⟩ := hk.pending (by simpa using hc)
    cases hm
  | @relock t p n ht ho =>
    simp only [Event.thread, ht] at hd hk ⊢
    obtain ⟨_, (hk : p.Guarded R (d + 1) none)⟩ := hk
    obtain ⟨rfl⟩ : d = n := by
      cases d with
      | zero => exact absurd ho (hd n)
      | succ d => simpa [State.Holds, ho, eq_comm] using hd
    refine ⟨⟨d + 1, rfl, by simpa using ⟨none, hk⟩⟩, ⟨rfl, .inl rfl⟩, fun c hc => ?_⟩
    obtain ⟨m, hm, -⟩ := hk.pending (by simpa using hc)
    cases hm
  | @unlock t p n ht ho =>
    simp only [Event.thread, ht] at hd hk ⊢
    obtain ⟨_, k, rfl, hk⟩ := hk
    obtain rfl : k = n := by simpa [State.Holds, ho, eq_comm] using hd
    refine ⟨⟨k, ?_, by simpa using ⟨none, hk⟩⟩, ⟨rfl, .inl rfl⟩, fun c hc => ?_⟩
    · cases k with
      | zero => intro n; simp [State.goOn]
      | succ k => simp [State.Holds, State.goOn]
    · obtain ⟨m, hm, -⟩ := hk.pending (by simpa using hc)
      cases hm
  | read ht =>
    simp only [Event.thread, ht] at hd hk ⊢
    obtain ⟨_, hpos, hk⟩ := hk
    refine ⟨⟨d, hd, by simpa using ⟨some s.mem, hk s.mem⟩⟩, ⟨rfl, .inl rfl⟩, fun c hc => ?_⟩
    obtain ⟨m, hm, hR⟩ := (hk s.mem).pending (by simpa using hc)
    cases hm
    exact .inr hR
  | write ht =>
    simp only [Event.thread, ht] at hk
    exact hk.elim fun _ h => h.elim
  | call ht =>
    simp only [Event.thread, ht] at hd hk ⊢
    obtain ⟨_, -, hpos, hk⟩ := hk
    refine ⟨⟨d, hd, by simpa using ⟨hpos, hk⟩⟩, ⟨rfl, .inr ⟨_, by simp [Event.thread, ht,
      Thread.pending], .inl rfl⟩⟩, fun c hc => .inl ?_⟩
    simpa [Thread.pending] using hc
  | ret ht hr =>
    simp only [Event.thread, ht] at hd hk ⊢
    obtain ⟨hpos, hk⟩ := hk
    refine ⟨⟨d, hd, by simpa using ⟨none, hk _⟩⟩, ⟨rfl, .inr ⟨_, by simp [Event.thread, ht,
      Thread.pending], .inr ⟨_, hr⟩⟩⟩, fun c hc => ?_⟩
    obtain ⟨m, hm, -⟩ := (hk _).pending (by simpa using hc)
    cases hm

end

end Threads
