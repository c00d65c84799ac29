import Mathlib.Logic.Function.Basic
import Mathlib.Logic.Relation
import RetroLens.Lib.Runs

/-!
# Locks taken in order

* `Stmt μ`: a program by its steps on the mutexes `μ`. What it computes is left
  out, so a branch may go either way and a loop may run any number of times.
* `machine`: any number of threads, each at rest or inside a program. A wait on
  a condition gives its mutex back, sleeps, and takes the mutex again.
* `Stmt.safe`: what a program may hold where it begins, computed from where it
  may go: each mutex is taken above all that are held, only what is held is
  released, and who waits for something else than a mutex holds none.
* `run_sound`: threads that enter safe programs stay in order, in every run.
  Hence no cycle of threads each of which waits for the next (`Sound.acyclic`),
  and some holder of a wanted mutex can always go on (`Sound.moves`).
-/

namespace Locks

open Runs

inductive Stmt (μ : Type) where
  | work
  /-- Wait for other threads to end. -/
  | join
  | lock (m : μ)
  | unlock (m : μ)
  /-- Wait on a condition that goes with `m`. -/
  | wait (m : μ)
  | seq (p q : Stmt μ)
  | either (p q : Stmt μ)
  /-- Again and again, until a `brk` or a `ret`. -/
  | loop (p : Stmt μ)
  | brk
  | call (p : Stmt μ)
  | ret

namespace Stmt

variable {μ : Type}

def block : List (Stmt μ) → Stmt μ
  | [] => work
  | p :: ps => seq p (block ps)

/-- Only under a condition. -/
def opt (p : Stmt μ) : Stmt μ := either p work

/-- As long as a condition holds. -/
def whileDo (p : Stmt μ) : Stmt μ := loop (either p brk)

end Stmt

/-- What a thread has to do yet. -/
inductive Frame (μ : Type) where
  | exec (p : Stmt μ)
  /-- The end of a loop's body. -/
  | again (p : Stmt μ)
  /-- The end of a call. -/
  | done
  /-- In a wait, with `m` given back. -/
  | asleep (m : μ)

/-- Where a thread goes on, the innermost first. -/
abbrev Stack (μ : Type) := List (Frame μ)

namespace Stack

variable {μ : Type}

/-- Behind the innermost loop. -/
def leaveLoop : Stack μ → Stack μ
  | [] => []
  | .again _ :: k => k
  | _ :: k => leaveLoop k

/-- Behind the innermost call, or at the end. -/
def leaveCall : Stack μ → Stack μ
  | [] => []
  | .done :: k => k
  | _ :: k => leaveCall k

end Stack

structure State (τ μ : Type) where
  owner : μ → Option τ
  code : τ → Stack μ

inductive Event (τ ι : Type) where
  | enter (t : τ) (i : ι)
  /-- Thread `t` goes on, a branch taken as `left` says. -/
  | run (t : τ) (left : Bool)

/-- No thread is anywhere, and no mutex is taken. -/
def State.rest (τ μ : Type) : State τ μ := ⟨fun _ => none, fun _ => []⟩

/-! ## Safe programs -/

section Safe

/-- What may be held where a program ends, breaks out of a loop, and returns. -/
structure Exits (μ : Type) where
  next : List μ → Bool
  brk : List μ → Bool
  ret : List μ → Bool

/-- Nothing is held at the end of a thread's program. -/
def Exits.free (μ : Type) : Exits μ := ⟨List.isEmpty, fun _ => false, List.isEmpty⟩

variable {μ : Type} [DecidableEq μ] (rank : μ → Nat)

/-- With the mutexes `h` held the statement is in order, and leaves by the exits `e`. -/
def Stmt.safe : Stmt μ → Exits μ → List μ → Bool
  | .work, e, h => e.next h
  | .join, e, h => h.isEmpty && e.next h
  | .lock m, e, h => h.all (fun m' => rank m' < rank m) && e.next (m :: h)
  | .unlock m, e, h => h.contains m && e.next (h.filter (· != m))
  | .wait m, e, h => h == [m] && e.next [m]
  | .seq p q, e, h => p.safe { e with next := q.safe e } h
  | .either p q, e, h => p.safe e h && q.safe e h
  -- what is held at the loop's head is held there again
  | .loop p, e, h => p.safe { e with next := (· == h), brk := e.next } h
  | .brk, e, h => e.brk h
  | .call p, e, h => p.safe ⟨e.next, fun _ => false, e.next⟩ h
  | .ret, e, h => e.ret h

/-- A program in order that begins and ends with no mutex held. -/
def Stmt.Safe (p : Stmt μ) : Prop := p.safe rank (.free μ) [] = true

instance (p : Stmt μ) : Decidable (p.Safe rank) := inferInstanceAs (Decidable (_ = true))

/-- What may be held where the stack goes on, breaks and returns. -/
def Stack.exits : Stack μ → Exits μ
  | [] => .free μ
  | .exec p :: k => { exits k with next := p.safe rank (exits k) }
  | .again p :: k =>
    { exits k with next := (Stmt.loop p).safe rank (exits k), brk := (exits k).next }
  | .done :: k => ⟨(exits k).next, fun _ => false, (exits k).next⟩
  | .asleep m :: k => { exits k with next := fun h => h.isEmpty && (exits k).next [m] }

variable {rank} {p q : Stmt μ} {k : Stack μ} {e e' : Exits μ} {h : List μ}

/-- More exits, more starts. -/
theorem Stmt.safe_mono (hn : ∀ h, e.next h = true → e'.next h = true)
    (hb : ∀ h, e.brk h = true → e'.brk h = true) (hr : ∀ h, e.ret h = true → e'.ret h = true) :
    p.safe rank e h = true → p.safe rank e' h = true := by
  induction p generalizing e e' h with
  | work => exact hn h
  | join | lock _ | unlock _ | wait _ =>
    simp only [safe, Bool.and_eq_true]
    exact fun hp => ⟨hp.1, hn _ hp.2⟩
  | seq p q ihp ihq => exact ihp (fun _ => ihq hn hb hr) hb hr
  | either p q ihp ihq =>
    simp only [safe, Bool.and_eq_true]
    exact fun hp => ⟨ihp hn hb hr hp.1, ihq hn hb hr hp.2⟩
  | loop p ih => exact ih (fun _ => id) hn hr
  | brk => exact hb h
  | call p ih => exact ih hn (fun _ => id) hn
  | ret => exact hr h

/-- The body of a loop leads back to its head. -/
theorem Stack.again_next (hs : (Stack.exits rank (.again p :: k)).next h = true) :
    (Stack.exits rank (.exec p :: .again p :: k)).next h = true :=
  Stmt.safe_mono (e := { exits rank k with next := (· == h), brk := (exits rank k).next })
    (fun _ heq => beq_iff_eq.1 heq ▸ hs) (fun _ => id) (fun _ => id) hs

/-- A break lands behind its loop. -/
theorem Stack.leaveLoop_next (hs : (Stack.exits rank k).brk h = true) :
    (Stack.exits rank (leaveLoop k)).next h = true := by
  induction k with
  | nil => cases hs
  | cons f k ih =>
    cases f with
    | again p => exact hs
    | done => cases hs
    | exec p | asleep m => exact ih hs

/-- A return lands behind its call. -/
theorem Stack.leaveCall_next (hs : (Stack.exits rank k).ret h = true) :
    (Stack.exits rank (leaveCall k)).next h = true := by
  induction k with
  | nil => exact hs
  | cons f k ih =>
    cases f with
    | done => exact hs
    | exec p | again p | asleep m => exact ih hs

end Safe

/-! ## The machine -/

/-- Exactly the mutexes of `h` are thread `t`'s. -/
def State.Holds {τ μ : Type} (s : State τ μ) (t : τ) (h : List μ) : Prop :=
  ∀ m, m ∈ h ↔ s.owner m = some t

section Hands

variable {τ μ : Type} [DecidableEq μ] {s : State τ μ} {t u : τ} {m : μ} {h : List μ}

/-- The mutex `m` changes hands. -/
def State.give (s : State τ μ) (m : μ) (o : Option τ) : State τ μ :=
  { s with owner := Function.update s.owner m o }

/-- The hands of the others. -/
theorem State.Holds.give (hh : s.Holds u h) {o : Option τ} (hu : s.owner m ≠ some u)
    (ho : o ≠ some u) : (s.give m o).Holds u h := by
  intro m'
  rw [hh m']
  by_cases hm : m' = m
  · subst hm
    simp [State.give, hu, ho]
  · simp [State.give, Function.update_of_ne hm]

theorem State.Holds.lock (hh : s.Holds t h) : (s.give m (some t)).Holds t (m :: h) := by
  intro m'
  by_cases hm : m' = m
  · simp [State.give, hm]
  · simp [State.give, hm, hh m']

theorem State.Holds.unlock (hh : s.Holds t h) :
    (s.give m none).Holds t (h.filter (· != m)) := by
  intro m'
  by_cases hm : m' = m
  · simp [State.give, hm]
  · simp [State.give, hm, hh m']

end Hands

section Code

variable {τ μ : Type} [DecidableEq τ] {s : State τ μ} {t u : τ} {k : Stack μ} {h : List μ}

/-- Thread `t` goes on with `k`. -/
def State.goOn (s : State τ μ) (t : τ) (k : Stack μ) : State τ μ :=
  { s with code := Function.update s.code t k }

@[simp] theorem State.goOn_code : (s.goOn t k).code t = k := Function.update_self ..

theorem State.goOn_other (h : u ≠ t) : (s.goOn t k).code u = s.code u :=
  Function.update_of_ne h ..

theorem State.Holds.goOn (hh : s.Holds u h) : (s.goOn t k).Holds u h := hh

end Code

section Machine

variable {τ μ ι : Type} [DecidableEq τ] [DecidableEq μ]

/-- One step of thread `t`. -/
def State.run (s : State τ μ) (t : τ) (left : Bool) : Option (State τ μ) :=
  match s.code t with
  | [] => none
  | .exec .work :: k | .exec .join :: k => some (s.goOn t k)
  | .exec (.lock m) :: k =>
    if s.owner m = none then some ((s.give m (some t)).goOn t k) else none
  | .exec (.unlock m) :: k =>
    if s.owner m = some t then some ((s.give m none).goOn t k) else none
  | .exec (.wait m) :: k =>
    if s.owner m = some t then some ((s.give m none).goOn t (.asleep m :: k)) else none
  | .exec (.seq p q) :: k => some (s.goOn t (.exec p :: .exec q :: k))
  | .exec (.either p q) :: k => some (s.goOn t (.exec (if left then p else q) :: k))
  | .exec (.loop p) :: k | .again p :: k => some (s.goOn t (.exec p :: .again p :: k))
  | .exec .brk :: k => some (s.goOn t (Stack.leaveLoop k))
  | .exec (.call p) :: k => some (s.goOn t (.exec p :: .done :: k))
  | .exec .ret :: k => some (s.goOn t (Stack.leaveCall k))
  | .done :: k => some (s.goOn t k)
  | .asleep m :: k => some (s.goOn t (.exec (.lock m) :: k))

/-- Threads at rest enter programs, and threads go on. -/
def machine (body : ι → Stmt μ) : Machine (State τ μ) (Event τ ι) Empty where
  step s
    | .enter t i =>
      match s.code t with
      | [] => some (s.goOn t [.exec (body i)], [])
      | _ => none
    | .run t left => (s.run t left).map fun s' => (s', [])

/-- Every thread is in order from where it stands. -/
def Sound (rank : μ → Nat) (s : State τ μ) : Prop :=
  ∀ t, ∃ h, s.Holds t h ∧ (Stack.exits rank (s.code t)).next h = true

variable {rank : μ → Nat} {s s' : State τ μ} {t u : τ} {m : μ} {k : Stack μ} {h : List μ}

/-- A step of thread `t` to `k`, with `h` held after it. -/
theorem Sound.goOn (hs : Sound rank s) {h : List μ} (hh : s'.Holds t h)
    (hother : ∀ u ≠ t, ∀ h, s.Holds u h → s'.Holds u h)
    (hcode : s'.code = s.code) (hk : (Stack.exits rank k).next h = true) :
    Sound rank (s'.goOn t k) := by
  intro u
  by_cases hu : u = t
  · subst hu
    exact ⟨h, hh.goOn, by rwa [State.goOn_code]⟩
  · obtain ⟨h', hh', hk'⟩ := hs u
    exact ⟨h', (hother u hu h' hh').goOn, by rwa [State.goOn_other hu, hcode]⟩

/-- **A step keeps every thread in order.** -/
theorem Sound.run (hs : Sound rank s) {left : Bool} (hrun : s.run t left = some s') :
    Sound rank s' := by
  obtain ⟨h, hh, hk⟩ := hs t
  -- a step that takes and gives nothing
  have quiet : ∀ k, (Stack.exits rank k).next h = true → Sound rank (s.goOn t k) := fun k hk' =>
    hs.goOn hh (fun _ _ _ => id) rfl hk'
  have taken : ∀ {m u}, s.owner m = some t → u ≠ t → s.owner m ≠ some u := fun ho hu he =>
    hu (Option.some.inj (he.symm.trans ho))
  unfold State.run at hrun
  split at hrun <;> rename_i hc <;> rw [hc] at hk
  · cases hrun
  · cases hrun
    exact quiet _ hk
  · cases hrun
    simp only [Stack.exits, Stmt.safe, Bool.and_eq_true] at hk
    exact quiet _ hk.2
  · split at hrun <;> cases hrun
    rename_i ho
    simp only [Stack.exits, Stmt.safe, Bool.and_eq_true] at hk
    refine hs.goOn hh.lock (fun u hu h' hh' => hh'.give (by simp [ho]) ?_) rfl hk.2
    exact fun he => hu (Option.some.inj he).symm
  · split at hrun <;> cases hrun
    rename_i ho
    simp only [Stack.exits, Stmt.safe, Bool.and_eq_true] at hk
    exact hs.goOn hh.unlock (fun u hu h' hh' => hh'.give (taken ho hu) (by simp)) rfl hk.2
  · split at hrun <;> cases hrun
    rename_i m _ ho
    simp only [Stack.exits, Stmt.safe, Bool.and_eq_true, beq_iff_eq] at hk
    obtain ⟨rfl, hk⟩ := hk
    have hnone : [m].filter (· != m) = [] := by simp
    refine hs.goOn (hnone ▸ hh.unlock)
      (fun u hu h' hh' => hh'.give (taken ho hu) (by simp)) rfl ?_
    simpa [Stack.exits] using hk
  · cases hrun
    exact quiet _ hk
  · cases hrun
    simp only [Stack.exits, Stmt.safe, Bool.and_eq_true] at hk
    cases left with
    | true => exact quiet _ hk.1
    | false => exact quiet _ hk.2
  · cases hrun
    exact quiet _ (Stack.again_next hk)
  · cases hrun
    exact quiet _ (Stack.again_next hk)
  · cases hrun
    exact quiet _ (Stack.leaveLoop_next hk)
  · cases hrun
    exact quiet _ hk
  · cases hrun
    exact quiet _ (Stack.leaveCall_next hk)
  · cases hrun
    exact quiet _ hk
  · cases hrun
    simp only [Stack.exits, Bool.and_eq_true, List.isEmpty_iff] at hk
    obtain ⟨rfl, hk⟩ := hk
    exact quiet _ (by simpa [Stack.exits, Stmt.safe] using hk)

variable {body : ι → Stmt μ} {e : Event τ ι} {es : List (Event τ ι)} {l o : List Empty}

theorem Sound.step (hbody : ∀ i, (body i).Safe rank) (hs : Sound rank s)
    (h : (machine body).step s e = some (s', o)) : Sound rank s' := by
  cases e with
  | enter t i =>
    simp only [machine] at h
    split at h
    · rename_i hc
      cases h
      obtain ⟨h, hh, hk⟩ := hs t
      rw [hc] at hk
      obtain rfl : h = [] := List.isEmpty_iff.1 hk
      exact hs.goOn hh (fun _ _ _ => id) rfl (hbody i)
    · cases h
  | run t left =>
    obtain ⟨s₁, hrun, heq⟩ := Option.map_eq_some_iff.1 h
    cases heq
    exact hs.run hrun

/-- **Safe programs stay in order**, whatever the threads and their turns. -/
theorem run_sound (hbody : ∀ i, (body i).Safe rank)
    (h : Run (machine body) (.rest τ μ) es l s) : Sound rank s :=
  h.inv_state (fun _ => ⟨[], (fun _ => by simp [State.rest]), rfl⟩)
    fun _ _ _ _ _ hi _ hs => hi.step hbody hs

end Machine

/-! ## What order gives -/

section Order

variable {τ μ : Type} [DecidableEq μ] {rank : μ → Nat} {s : State τ μ} {t u : τ} {m m' : μ}
  {f : Frame μ} {k : Stack μ}

/-- Thread `t` cannot go on without `m`. -/
def State.Wants (s : State τ μ) (t : τ) (m : μ) : Prop := ∃ k, s.code t = .exec (.lock m) :: k

/-- Thread `t` waits for a mutex of thread `u`. -/
def State.WaitsFor (s : State τ μ) (t u : τ) : Prop := ∃ m, s.Wants t m ∧ s.owner m = some u

/-- To go on from here takes something of other threads that is no mutex. -/
def Frame.waits : Frame μ → Bool
  | .exec .join | .asleep _ => true
  | _ => false

/-- A mutex is wanted above all that are held. -/
theorem Sound.above (hs : Sound rank s) (hw : s.Wants t m) (ho : s.owner m' = some t) :
    rank m' < rank m := by
  obtain ⟨k, hc⟩ := hw
  obtain ⟨h, hh, hk⟩ := hs t
  rw [hc] at hk
  simp only [Stack.exits, Stmt.safe, Bool.and_eq_true, List.all_eq_true,
    decide_eq_true_eq] at hk
  exact hk.1 m' ((hh m').2 ho)

/-- A thread at rest, and one that waits for something else than a mutex, holds none. -/
theorem Sound.none_held (hs : Sound rank s)
    (hc : s.code t = [] ∨ ∃ f k, s.code t = f :: k ∧ f.waits = true) : s.owner m ≠ some t := by
  obtain ⟨h, hh, hk⟩ := hs t
  have hnil : h = [] := by
    rcases hc with hc | ⟨f, k, hc, hf⟩
    · rw [hc] at hk
      exact List.isEmpty_iff.1 hk
    · rw [hc] at hk
      unfold Frame.waits at hf
      split at hf
      · simp only [Stack.exits, Stmt.safe, Bool.and_eq_true, List.isEmpty_iff] at hk
        exact hk.1
      · simp only [Stack.exits, Bool.and_eq_true, List.isEmpty_iff] at hk
        exact hk.1
      · cases hf
  intro ho
  have := (hh m).2 ho
  rw [hnil] at this
  cases this

/-- Only its own mutex is held where a thread waits on a condition. -/
theorem Sound.wait_own (hs : Sound rank s) (hc : s.code t = .exec (.wait m) :: k) :
    s.owner m' = some t ↔ m' = m := by
  obtain ⟨h, hh, hk⟩ := hs t
  rw [hc] at hk
  simp only [Stack.exits, Stmt.safe, Bool.and_eq_true, beq_iff_eq] at hk
  rw [← hh m', hk.1, List.mem_singleton]

/-- Only what is held is released. -/
theorem Sound.unlock_own (hs : Sound rank s) (hc : s.code t = .exec (.unlock m) :: k) :
    s.owner m = some t := by
  obtain ⟨h, hh, hk⟩ := hs t
  rw [hc] at hk
  simp only [Stack.exits, Stmt.safe, Bool.and_eq_true] at hk
  exact (hh m).1 (by simpa using hk.1)

/-- A chain of waiting threads climbs. -/
theorem Sound.climbs (hs : Sound rank s) (h : Relation.TransGen s.WaitsFor t u) :
    ∃ m, s.Wants t m ∧ ∀ m', s.Wants u m' → rank m < rank m' := by
  induction h with
  | single h =>
    obtain ⟨m, hw, ho⟩ := h
    exact ⟨m, hw, fun m' hw' => hs.above hw' ho⟩
  | tail _ h ih =>
    obtain ⟨m, hw, hlt⟩ := ih
    obtain ⟨m₁, hw₁, ho⟩ := h
    exact ⟨m, hw, fun m' hw' => Nat.lt_trans (hlt m₁ hw₁) (hs.above hw' ho)⟩

/-- **No cycle** of threads, each waiting for a mutex of the next. -/
theorem Sound.acyclic (hs : Sound rank s) : ¬ Relation.TransGen s.WaitsFor t t := by
  intro h
  obtain ⟨m, hw, hlt⟩ := hs.climbs h
  exact absurd (hlt m hw) (Nat.lt_irrefl _)

/-- **Some holder goes on**: with a mutex taken, a thread that holds one has a step of its own. -/
theorem Sound.moves [DecidableEq τ] (hs : Sound rank s) {n : Nat} (hn : ∀ m, rank m ≤ n)
    (ho : s.owner m = some t) : ∃ u m' f k, s.owner m' = some u ∧ s.code u = f :: k ∧
      f.waits = false ∧ ∀ left, (s.run u left).isSome = true := by
  -- the induction is on how far `m` is from the top
  obtain ⟨d, hd⟩ : ∃ d, d = n - rank m := ⟨_, rfl⟩
  induction d using Nat.strongRecOn generalizing m t with
  | ind d ih =>
    have hfree : ¬ (s.code t = [] ∨ ∃ f k, s.code t = f :: k ∧ f.waits = true) := fun hc =>
      hs.none_held hc ho
    obtain ⟨f, k, hc⟩ : ∃ f k, s.code t = f :: k := by
      cases hc : s.code t with
      | nil => exact absurd (.inl hc) hfree
      | cons f k => exact ⟨f, k, rfl⟩
    have hf : f.waits = false := by
      by_contra hf
      exact hfree (.inr ⟨f, k, hc, by simpa using hf⟩)
    by_cases hblocked : ∃ m₁ u, f = .exec (.lock m₁) ∧ s.owner m₁ = some u
    · obtain ⟨m₁, u, rfl, ho₁⟩ := hblocked
      have hlt := hs.above ⟨k, hc⟩ ho
      have hle := hn m₁
      exact ih (n - rank m₁) (by omega) ho₁ rfl
    · refine ⟨t, m, f, k, ho, hc, hf, fun left => ?_⟩
      unfold State.run
      rw [hc]
      cases f with
      | asleep m => cases hf
      | again p | done => rfl
      | exec p =>
        cases p with
        | lock m₁ =>
          have hnone : s.owner m₁ = none := by
            by_contra hne
            obtain ⟨u, hu⟩ := Option.ne_none_iff_exists'.1 hne
            exact hblocked ⟨m₁, u, rfl, hu⟩
          simp [hnone]
        | unlock m₁ => simp [hs.unlock_own hc]
        | wait m₁ => simp [(hs.wait_own hc).2 rfl]
        | _ => rfl

end Order

end Locks
