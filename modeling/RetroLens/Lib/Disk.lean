import Mathlib.Data.Set.Basic
import Mathlib.Logic.Function.Basic
import RetroLens.Lib.Text

/-!
# A card of files

* `World` — the files on a card, every card that the calls so far went through,
  the streams open on it, and `errno`.
* The calls, each with an `Outcome`: whether it succeeds, and what it leaves in
  `errno`. A call that changes a file changes one path at once, but for
  `rename`, which changes its two paths at once.
* `passed w w'` — the cards between two worlds, which a crash in between may leave.
* `Within S w w'` — from `w` to `w'` no card differs from `w`'s outside `S`.
-/

namespace Disk

open Text

variable {π : Type}

abbrev Card (π : Type) := π → Option Bytes

structure World (π : Type) where
  card : Card π
  /-- Every card since the start, oldest first. -/
  trail : List (Card π) := []
  streams : Int := 0
  errno : Int := 0

/-- What a call does. A call that succeeds may leave any value in `errno`. -/
inductive Outcome where
  | done (errno : Option Int := none)
  | fails (errno : Int)
  deriving DecidableEq, Repr

namespace Outcome

def ok : Outcome → Bool
  | done _ => true
  | fails _ => false

@[simp] theorem ok_done (errno : Option Int) : (done errno).ok = true := rfl

@[simp] theorem ok_fails (errno : Int) : (fails errno).ok = false := rfl

/-- `errno` after the call. -/
def after (errno : Int) : Outcome → Int
  | done e => e.getD errno
  | fails e => e

end Outcome

def enoent : Int := 2

namespace World

def note (o : Outcome) (w : World π) : World π := { w with errno := o.after w.errno }

/-- The card becomes `c`. -/
def become (c : Card π) (w : World π) : World π :=
  { w with card := c, trail := w.trail ++ [c] }

section

variable [DecidableEq π]

def put (p : π) (data : Option Bytes) (w : World π) : World π :=
  w.become (Function.update w.card p data)

/-- `fopen(p, "w")`: the file is there and empty. -/
def fopen (o : Outcome) (p : π) (w : World π) : Bool × World π :=
  if o.ok then (true, { (w.put p (some [])).note o with streams := w.streams + 1 })
  else (false, w.note o)

/-- `fflush` of a stream that `data` was written to; a failure leaves `torn`. -/
def fflush (o : Outcome) (torn : Bytes) (p : π) (data : Bytes) (w : World π) : Bool × World π :=
  (o.ok, (w.put p (some (if o.ok then data else torn))).note o)

/-- `fclose` closes the stream whatever it returns. -/
def fclose (o : Outcome) (w : World π) : Bool × World π :=
  (o.ok, { w.note o with streams := w.streams - 1 })

/-- `rename` replaces the target and drops the source at once. -/
def rename (o : Outcome) (source target : π) (w : World π) : Bool × World π :=
  match w.card source with
  | none => (false, { w with errno := enoent })
  | some data =>
    if o.ok then
      (true, (w.become (Function.update (Function.update w.card source none) target
        (some data))).note o)
    else (false, w.note o)

def unlink (o : Outcome) (p : π) (w : World π) : Bool × World π :=
  match w.card p with
  | none => (false, { w with errno := enoent })
  | some _ => if o.ok then (true, (w.put p none).note o) else (false, w.note o)

end

end World

/-- The cards that the calls between two worlds went through, with the first and the last. -/
def passed (w w' : World π) : Set (Card π) :=
  {c | c = w.card ∨ c = w'.card ∨ ∃ t, w'.trail = w.trail ++ t ∧ c ∈ t}

/-! ## Staying within a set of paths -/

structure Within (S : Set π) (w w' : World π) : Prop where
  card : ∀ p ∉ S, w'.card p = w.card p
  trail : ∃ t, w'.trail = w.trail ++ t ∧ ∀ c ∈ t, ∀ p ∉ S, c p = w.card p

variable {S T : Set π} {w w₁ w₂ : World π}

theorem Within.refl (S : Set π) (w : World π) : Within S w w :=
  ⟨fun _ _ => rfl, [], by simp, by simp⟩

theorem Within.trans (h : Within S w w₁) (h' : Within S w₁ w₂) : Within S w w₂ := by
  obtain ⟨hc, t, ht, htc⟩ := h
  obtain ⟨hc', t', ht', htc'⟩ := h'
  refine ⟨fun p hp => (hc' p hp).trans (hc p hp), t ++ t', by rw [ht', ht, List.append_assoc], ?_⟩
  intro c hmem p hp
  rcases List.mem_append.1 hmem with hmem | hmem
  · exact htc c hmem p hp
  · exact (htc' c hmem p hp).trans (hc p hp)

theorem Within.mono (h : Within S w w₁) (hST : S ⊆ T) : Within T w w₁ := by
  obtain ⟨hc, t, ht, htc⟩ := h
  exact ⟨fun p hp => hc p fun hs => hp (hST hs), t, ht,
    fun c hmem p hp => htc c hmem p fun hs => hp (hST hs)⟩

/-- A step that leaves the card and its trail alone is within any set. -/
theorem Within.of_eq (hc : w₁.card = w.card) (ht : w₁.trail = w.trail) : Within S w w₁ :=
  ⟨fun _ _ => by rw [hc], [], by simp [ht], by simp⟩

/-- The world's streams and `errno` do not matter to `Within`. -/
theorem Within.congr {w₁' : World π} (h : Within S w w₁) (hc : w₁'.card = w₁.card)
    (ht : w₁'.trail = w₁.trail) : Within S w w₁' :=
  ⟨by rw [hc]; exact h.card, by rw [ht]; exact h.trail⟩

/-- No card on the way differs from the first outside `S`. -/
theorem Within.passed (h : Within S w w₁) {c : Card π} (hc : c ∈ passed w w₁) :
    ∀ p ∉ S, c p = w.card p := by
  obtain ⟨hcard, t, ht, htc⟩ := h
  rcases hc with rfl | rfl | ⟨t', ht', hc⟩
  · exact fun _ _ => rfl
  · exact hcard
  · rw [ht] at ht'
    rw [← List.append_cancel_left ht'] at hc
    exact htc c hc

theorem note_within (o : Outcome) (w : World π) : Within S w (w.note o) := .of_eq rfl rfl

/-! ## Putting back -/

/-- `c'` is `c` again, but that paths of `T` may be empty. -/
def Restores (T : Set π) (c c' : Card π) : Prop := ∀ p, c' p = c p ∨ (p ∈ T ∧ c' p = none)

theorem Restores.refl (T : Set π) (c : Card π) : Restores T c c := fun _ => .inl rfl

theorem Restores.trans {c c₁ c₂ : Card π} (h : Restores T c c₁) (h' : Restores T c₁ c₂) :
    Restores T c c₂ := by
  intro p
  rcases h' p with hp | hp
  · rw [hp]
    exact h p
  · exact .inr hp

theorem Restores.mono {c c' : Card π} (h : Restores S c c') (hST : S ⊆ T) : Restores T c c' :=
  fun p => (h p).imp_right fun hp => ⟨hST hp.1, hp.2⟩

/-- Outside `T` nothing has changed. -/
theorem Restores.eq {c c' : Card π} (h : Restores T c c') {p : π} (hp : p ∉ T) : c' p = c p :=
  (h p).resolve_right fun ht => hp ht.1

@[simp] theorem note_card (o : Outcome) (w : World π) : (w.note o).card = w.card := rfl

@[simp] theorem note_trail (o : Outcome) (w : World π) : (w.note o).trail = w.trail := rfl

@[simp] theorem note_fails_errno (errno : Int) (w : World π) :
    (w.note (.fails errno)).errno = errno := rfl

@[simp] theorem note_streams (o : Outcome) (w : World π) : (w.note o).streams = w.streams := rfl

section

variable [DecidableEq π]

theorem Restores.update {c c' : Card π} (h : Restores T c c') (p : π) (x : Option Bytes) :
    Restores T (Function.update c p x) (Function.update c' p x) := by
  intro q
  by_cases hq : q = p
  · subst hq
    simp
  · simpa [hq] using h q

theorem restores_none {c : Card π} {p : π} (hp : p ∈ T) :
    Restores T c (Function.update c p none) := by
  intro q
  by_cases hq : q = p
  · subst hq
    exact .inr ⟨hp, by simp⟩
  · exact .inl (by simp [hq])

/-- A file put where none was, and taken away again. -/
theorem Restores.undo {c c' : Card π} {p : π} {x : Option Bytes}
    (h : Restores T (Function.update c p x) c') (hp : c p = none) :
    Restores T c (Function.update c' p none) := by
  have := h.update p none
  rwa [Function.update_idem, Function.update_eq_self_iff.2 hp.symm] at this

theorem put_within {p : π} {data : Option Bytes} (hp : p ∈ S) : Within S w (w.put p data) := by
  have hu : ∀ q ∉ S, Function.update w.card p data q = w.card q := fun q hq =>
    Function.update_of_ne (fun h => hq (by rwa [h])) _ _
  exact ⟨hu, [_], rfl, fun c hc => by rw [List.mem_singleton.1 hc]; exact hu⟩

@[simp] theorem put_card (p : π) (data : Option Bytes) (w : World π) :
    (w.put p data).card = Function.update w.card p data := rfl

@[simp] theorem put_streams (p : π) (data : Option Bytes) (w : World π) :
    (w.put p data).streams = w.streams := rfl

theorem unlink_within (o : Outcome) {p : π} (hp : p ∈ S) : Within S w (w.unlink o p).2 := by
  unfold World.unlink
  split
  · exact .of_eq rfl rfl
  · split
    · exact (put_within hp).congr rfl rfl
    · exact .of_eq rfl rfl

theorem unlink_other (o : Outcome) {p q : π} (h : q ≠ p) (w : World π) :
    (w.unlink o p).2.card q = w.card q :=
  (unlink_within (S := {p}) o rfl).card q h

theorem rename_within (o : Outcome) {p q : π} (hp : p ∈ S) (hq : q ∈ S) :
    Within S w (w.rename o p q).2 := by
  unfold World.rename
  split
  · exact .of_eq rfl rfl
  · split
    · rename_i data _ _
      have hu : ∀ x ∉ S, Function.update (Function.update w.card p none) q (some data) x =
          w.card x := fun x hx => by
        rw [Function.update_of_ne fun h => hx (by rwa [h]),
          Function.update_of_ne fun h => hx (by rwa [h])]
      exact ⟨hu, [_], rfl, fun c hc => by rw [List.mem_singleton.1 hc]; exact hu⟩
    · exact .of_eq rfl rfl

theorem fopen_within (o : Outcome) {p : π} (hp : p ∈ S) : Within S w (w.fopen o p).2 := by
  unfold World.fopen
  split
  · exact (put_within hp).congr rfl rfl
  · exact .of_eq rfl rfl

theorem unlink_card_eq (o : Outcome) (p : π) (w : World π) :
    (w.unlink o p).2.card = if o.ok then Function.update w.card p none else w.card := by
  unfold World.unlink
  split
  · rename_i h
    rw [Function.update_eq_self_iff.2 h.symm]
    exact (ite_self _).symm
  · split <;> rfl

/-- An `unlink` that does not fail on an existing file leaves none. -/
theorem unlink_card {o : Outcome} (ho : o.ok = true) (p : π) (w : World π) :
    (w.unlink o p).2.card = Function.update w.card p none := by
  rw [unlink_card_eq, if_pos ho]

@[simp] theorem unlink_streams (o : Outcome) (p : π) (w : World π) :
    (w.unlink o p).2.streams = w.streams := by
  unfold World.unlink
  split
  · rfl
  · split <;> rfl

end

end Disk
