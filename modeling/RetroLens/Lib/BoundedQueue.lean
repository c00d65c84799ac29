import Mathlib.Data.List.InsertIdx
import Mathlib.Tactic.Common

/-!
# Bounded newest-first queues

A `Queue α cap` holds at most `cap` items, newest first. `push` drops the
oldest item when there is no place, `newest` looks one up by its age and
`remove` takes one out. `ofOldest` is the queue of a list that keeps its items
oldest first, and carries the operations on such a list over.
-/

namespace BoundedQueue

universe u v

structure Queue (α : Type u) (cap : Nat) where
  items : List α
  bound : items.length ≤ cap

variable {α : Type u} {β : Type v} {cap : Nat}

namespace Queue

@[ext] theorem ext {q r : Queue α cap} (h : q.items = r.items) : q = r := by
  cases q
  cases r
  simpa using h

def size (q : Queue α cap) : Nat := q.items.length

def newest (i : Nat) (q : Queue α cap) : Option α := q.items[i]?

def push (x : α) (q : Queue α cap) : Queue α cap :=
  ⟨(x :: q.items).take cap, List.length_take_le ..⟩

def remove (i : Nat) (q : Queue α cap) : Queue α cap :=
  ⟨q.items.eraseIdx i, Nat.le_trans (List.length_eraseIdx_le ..) q.bound⟩

def map (f : α → β) (q : Queue α cap) : Queue β cap :=
  ⟨q.items.map f, by rw [List.length_map]; exact q.bound⟩

@[simp] theorem map_push (f : α → β) (x : α) (q : Queue α cap) :
    (q.push x).map f = (q.map f).push (f x) := by
  ext1
  simp [map, push, List.map_take]

@[simp] theorem map_remove (f : α → β) (i : Nat) (q : Queue α cap) :
    (q.remove i).map f = (q.map f).remove i := by
  ext1
  simp [map, remove, List.eraseIdx_map]

@[simp] theorem map_size (f : α → β) (q : Queue α cap) : (q.map f).size = q.size := by
  simp [map, size]

@[simp] theorem map_newest (f : α → β) (i : Nat) (q : Queue α cap) :
    (q.map f).newest i = (q.newest i).map f := by
  simp [map, newest]

theorem mem_push {x y : α} {q : Queue α cap} (h : y ∈ (q.push x).items) : y = x ∨ y ∈ q.items :=
  List.mem_cons.1 (List.mem_of_mem_take h)

theorem mem_remove {i : Nat} {y : α} {q : Queue α cap} (h : y ∈ (q.remove i).items) :
    y ∈ q.items := List.mem_of_mem_eraseIdx h

theorem newest_mem {i : Nat} {y : α} {q : Queue α cap} (h : q.newest i = some y) : y ∈ q.items :=
  List.mem_of_getElem? h

end Queue

/-! ## Lists that keep the oldest first -/

/-- The queue of a list with the oldest item first. -/
def ofOldest (l : List α) (h : l.length ≤ cap) : Queue α cap :=
  ⟨l.reverse, by rw [List.length_reverse]; exact h⟩

theorem mem_ofOldest {l : List α} {h : l.length ≤ cap} {x : α} :
    x ∈ (ofOldest l h).items ↔ x ∈ l := List.mem_reverse

theorem size_ofOldest {l : List α} (h : l.length ≤ cap) : (ofOldest l h).size = l.length :=
  List.length_reverse

theorem newest_ofOldest {l : List α} (h : l.length ≤ cap) {i : Nat} (hi : i < l.length) :
    (ofOldest l h).newest i = l[l.length - 1 - i]? := List.getElem?_reverse hi

/-- A list with a free place is pushed to at its end. -/
theorem push_ofOldest {l : List α} {h : l.length ≤ cap} (x : α)
    (h' : (l ++ [x]).length ≤ cap) : (ofOldest l h).push x = ofOldest (l ++ [x]) h' := by
  ext1
  simp only [ofOldest, Queue.push, List.reverse_append, List.reverse_singleton,
    List.singleton_append]
  apply List.take_of_length_le
  rwa [List.length_cons, List.length_reverse, ← List.length_singleton (a := x),
    ← List.length_append]

/-- A full list loses its first item. -/
theorem push_ofOldest_full {l : List α} (x y : α)
    (hl : (y :: l).length = cap) (h' : (l ++ [x]).length ≤ cap) :
    (ofOldest (y :: l) (Nat.le_of_eq hl)).push x = ofOldest (l ++ [x]) h' := by
  ext1
  simp only [ofOldest, Queue.push, List.reverse_append, List.reverse_cons]
  rw [← List.cons_append, List.take_left' (by simpa using hl)]
  rfl

theorem eraseIdx_reverse {l : List α} {i : Nat} (hi : i < l.length) :
    l.reverse.eraseIdx i = (l.eraseIdx (l.length - 1 - i)).reverse := by
  apply List.ext_getElem?
  intro j
  have hlen : (l.eraseIdx (l.length - 1 - i)).length = l.length - 1 :=
    List.length_eraseIdx_of_lt (by omega)
  by_cases hj : j < l.length - 1
  · rw [List.getElem?_reverse (by omega), hlen, List.getElem?_eraseIdx, List.getElem?_eraseIdx]
    by_cases hji : j < i
    · rw [if_pos hji, if_neg (by omega), List.getElem?_reverse (by omega)]
      congr 1
      omega
    · rw [if_neg hji, if_pos (by omega), List.getElem?_reverse (by omega)]
      congr 1
      omega
  · rw [List.getElem?_eq_none (by rw [List.length_eraseIdx_of_lt (by simpa using hi)]; simp; omega),
      List.getElem?_eq_none (by rw [List.length_reverse, hlen]; omega)]

theorem remove_ofOldest {l : List α} (h : l.length ≤ cap) {i : Nat} (hi : i < l.length)
    (h' : (l.eraseIdx (l.length - 1 - i)).length ≤ cap) :
    (ofOldest l h).remove i = ofOldest (l.eraseIdx (l.length - 1 - i)) h' := by
  ext1
  exact eraseIdx_reverse hi

end BoundedQueue
