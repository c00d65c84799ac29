import RetroLens.Lib.Runs

/-!
# A mailbox with one place

Any number of senders and one worker share a `Box`: a task is posted into the
free place, waits there, is taken by the worker and handed back. `Box.accepts`
is what a sender checks. The machine `box` logs what happens to every task;
`reach_counts` says that no task is lost, repeated or overtaken, and that the
box never holds two.
-/

namespace Mailbox

open Runs

universe u

structure Box (τ : Type u) where
  accepting : Bool := false
  pending : Option τ := none
  inUse : Option τ := none

namespace Box

variable {τ : Type u}

/-- The place is free, and open. -/
def accepts (b : Box τ) : Bool := b.accepting && b.pending.isNone && b.inUse.isNone

end Box

inductive Event (τ : Type u) where
  | post (task : τ)
  | take
  | giveBack
  | open' (accepting : Bool)

inductive Act (τ : Type u) where
  | posted (task : τ)
  | taken (task : τ)
  | returned (task : τ)

variable {τ : Type u}

def box : Machine (Box τ) (Event τ) (Act τ) where
  step b
    | .post task => if b.accepts then some ({ b with pending := some task }, [.posted task]) else none
    | .take =>
      match b.pending, b.inUse with
      | some task, none => some ({ b with pending := none, inUse := some task }, [.taken task])
      | _, _ => none
    | .giveBack => b.inUse.map fun task => ({ b with inUse := none }, [.returned task])
    | .open' accepting => some ({ b with accepting }, [])

namespace Act

def posted? : Act τ → Option τ
  | posted task => some task
  | _ => none

def taken? : Act τ → Option τ
  | taken task => some task
  | _ => none

def returned? : Act τ → Option τ
  | returned task => some task
  | _ => none

end Act

/-- The tasks posted, in order. -/
def posts (l : List (Act τ)) : List τ := l.filterMap Act.posted?

def takes (l : List (Act τ)) : List τ := l.filterMap Act.taken?

def returns (l : List (Act τ)) : List τ := l.filterMap Act.returned?

@[simp] theorem posts_append (l o : List (Act τ)) : posts (l ++ o) = posts l ++ posts o :=
  List.filterMap_append

@[simp] theorem takes_append (l o : List (Act τ)) : takes (l ++ o) = takes l ++ takes o :=
  List.filterMap_append

@[simp] theorem returns_append (l o : List (Act τ)) : returns (l ++ o) = returns l ++ returns o :=
  List.filterMap_append

/-- What the log and the box have to do with each other. -/
structure Counts (l : List (Act τ)) (b : Box τ) : Prop where
  posts_eq : posts l = takes l ++ b.pending.toList
  takes_eq : takes l = returns l ++ b.inUse.toList
  single : b.pending = none ∨ b.inUse = none

theorem counts_empty (accepting : Bool) : Counts [] ({ accepting } : Box τ) :=
  ⟨rfl, rfl, .inl rfl⟩

variable {l o : List (Act τ)} {b b' : Box τ}

theorem Counts.step {e : Event τ} (h : Counts l b) (hs : box.step b e = some (b', o)) :
    Counts (l ++ o) b' := by
  cases e with
  | post task =>
    simp only [box] at hs
    split at hs
    · rename_i ha
      cases hs
      simp only [Box.accepts, Bool.and_eq_true, Option.isNone_iff_eq_none] at ha
      obtain ⟨⟨-, hp⟩, hu⟩ := ha
      refine ⟨?_, ?_, .inr hu⟩
      · rw [posts_append, takes_append, h.posts_eq, hp]
        simp [posts, takes, Act.posted?, Act.taken?, List.filterMap_cons]
      · rw [takes_append, returns_append, h.takes_eq]
        simp [takes, returns, Act.taken?, Act.returned?, List.filterMap_cons]
    · cases hs
  | take =>
    simp only [box] at hs
    split at hs
    · rename_i task hp hu
      cases hs
      refine ⟨?_, ?_, .inl rfl⟩
      · rw [posts_append, takes_append, h.posts_eq, hp]
        simp [posts, takes, Act.posted?, Act.taken?, List.filterMap_cons]
      · rw [takes_append, returns_append, h.takes_eq, hu]
        simp [takes, returns, Act.taken?, Act.returned?, List.filterMap_cons]
    · cases hs
  | giveBack =>
    obtain ⟨task, hu, hs⟩ := Option.map_eq_some_iff.1 hs
    cases hs
    refine ⟨?_, ?_, .inr rfl⟩
    · rw [posts_append, takes_append, h.posts_eq]
      simp [posts, takes, Act.posted?, Act.taken?, List.filterMap_cons]
    · rw [takes_append, returns_append, h.takes_eq, hu]
      simp [takes, returns, Act.taken?, Act.returned?, List.filterMap_cons]
  | open' accepting =>
    cases hs
    rw [List.append_nil]
    exact ⟨h.posts_eq, h.takes_eq, h.single⟩

/-- **No task is lost, repeated or overtaken**: what was posted is what was taken and then the
task that waits; what was taken is what was returned and then the task in use. -/
theorem reach_counts {accepting : Bool} {es : List (Event τ)}
    (h : Run box ({ accepting } : Box τ) es l b) : Counts l b :=
  h.inv (counts_empty accepting) fun _ _ _ _ _ hi _ hs => hi.step hs

end Mailbox
