import Mathlib.Data.List.OfFn

/-!
# Memory with bounds

A `Buffer` is an object of a fixed number of elements. Reading or writing
outside of it is undefined, which is `none` here, so that a computation that
returns `some` has touched nothing else.
-/

namespace RetroLens.Checked

/-- Memory of `n` elements. -/
structure Buffer (α : Type) (n : Nat) where
  cell : Fin n → α

namespace Buffer

variable {α : Type} {n : Nat}

def get (b : Buffer α n) (i : Int) : Option α :=
  if h : 0 ≤ i ∧ i < n then some (b.cell ⟨i.toNat, by omega⟩) else none

def set (b : Buffer α n) (i : Int) (value : α) : Option (Buffer α n) :=
  if 0 ≤ i ∧ i < n then some ⟨fun j => if (j : Int) = i then value else b.cell j⟩ else none

/-- `memcpy` of elements to the place `start`. -/
def copy (b : Buffer α n) (start : Nat) (data : List α) : Option (Buffer α n) :=
  if start + data.length ≤ n then
    some ⟨fun i =>
      if h : start ≤ i ∧ i - start < data.length then data[i.val - start] else b.cell i⟩
  else none

/-- The first `k` elements. -/
def front (b : Buffer α n) (k : Nat) : List α := (List.ofFn b.cell).take k

theorem get_inside (b : Buffer α n) (i : Fin n) : b.get (i : Nat) = some (b.cell i) :=
  dif_pos ⟨Int.natCast_nonneg _, Int.ofNat_lt.2 i.isLt⟩

theorem set_inside (b : Buffer α n) (i : Fin n) (value : α) :
    ∃ c, b.set (i : Nat) value = some c ∧ c.cell i = value ∧ ∀ j, j ≠ i → c.cell j = b.cell j := by
  refine ⟨_, if_pos ⟨Int.natCast_nonneg _, Int.ofNat_lt.2 i.isLt⟩, if_pos rfl, fun j hj => ?_⟩
  exact if_neg fun h => hj (Fin.ext (Int.ofNat_inj.1 h))

theorem front_zero (b : Buffer α n) : b.front 0 = [] := List.take_zero

theorem front_getElem? (b : Buffer α n) (k i : Nat) :
    (b.front k)[i]? = if h : i < k ∧ i < n then some (b.cell ⟨i, h.2⟩) else none := by
  unfold front
  by_cases hk : i < k
  · rw [List.getElem?_take_of_lt hk, List.getElem?_ofFn]
    simp only [hk, true_and]
  · rw [List.getElem?_take_eq_none (by omega), dif_neg (fun h => hk h.1)]

theorem front_length (b : Buffer α n) {k : Nat} (hk : k ≤ n) : (b.front k).length = k := by
  rw [front, List.length_take, List.length_ofFn]
  omega

theorem front_succ (b : Buffer α n) {k : Nat} (hk : k < n) :
    b.front (k + 1) = b.front k ++ [b.cell ⟨k, hk⟩] := by
  rw [front, List.take_add_one, List.getElem?_ofFn, dif_pos hk]
  rfl

theorem take_front (b : Buffer α n) {j k : Nat} (hj : j ≤ k) :
    (b.front k).take j = b.front j := by
  rw [front, List.take_take, Nat.min_eq_left hj]
  rfl

theorem copy_inside {b : Buffer α n} {start : Nat} {data : List α}
    (hroom : start + data.length ≤ n) :
    ∃ c, b.copy start data = some c ∧ ∀ i : Fin n, c.cell i =
      if h : start ≤ i ∧ i - start < data.length then data[i.val - start] else b.cell i :=
  ⟨_, if_pos hroom, fun _ => rfl⟩

/-- What is copied behind the first elements follows them. -/
theorem copy_front {b : Buffer α n} {front data : List α} (hb : b.front front.length = front)
    (hroom : front.length + data.length ≤ n) :
    ∃ c, b.copy front.length data = some c ∧
      c.front (front.length + data.length) = front ++ data := by
  obtain ⟨c, hcopy, hcell⟩ := copy_inside (b := b) hroom
  refine ⟨c, hcopy, List.ext_getElem? fun i => ?_⟩
  rw [front_getElem?]
  by_cases hi : i < front.length
  · have hget : (b.front front.length)[i]? = front[i]? := by rw [hb]
    rw [front_getElem?, dif_pos ⟨hi, by omega⟩] at hget
    rw [dif_pos ⟨by omega, by omega⟩, hcell, dif_neg (fun h => absurd h.1 (by simpa using hi)),
      hget, List.getElem?_append_left hi]
  · rw [List.getElem?_append_right (by omega)]
    by_cases hd : i - front.length < data.length
    · rw [dif_pos ⟨by omega, by omega⟩, hcell, dif_pos ⟨Nat.le_of_not_lt hi, hd⟩,
        List.getElem?_eq_getElem hd]
    · rw [dif_neg (by omega), List.getElem?_eq_none (by omega)]

theorem set_isSome (b : Buffer α n) (i : Int) (value : α) :
    (b.set i value).isSome ↔ 0 ≤ i ∧ i < n := by
  simp only [set, Option.isSome_ite]

theorem get_isSome (b : Buffer α n) (i : Int) : (b.get i).isSome ↔ 0 ≤ i ∧ i < n := by
  simp only [get, Option.isSome_dite]

/-- What is in an element once another one may have been written. -/
theorem set_cell {b c : Buffer α n} {i : Int} {value : α} (h : b.set i value = some c)
    (j : Fin n) : c.cell j = if (j : Int) = i then value else b.cell j := by
  unfold set at h
  split at h
  · cases h
    rfl
  · cases h

end Buffer

/-! ## Loops over memory -/

section Loops

variable {β : Type} {γ : Type} {f : β → γ → Option β} {l : List γ} {b c : β}

/-- What every pass keeps, the loop keeps. -/
theorem foldlM_keeps (P : β → Prop) (step : ∀ x ∈ l, ∀ b c, P b → f b x = some c → P c)
    (hb : P b) (h : l.foldlM f b = some c) : P c := by
  induction l generalizing b with
  | nil =>
    cases h
    exact hb
  | cons x l ih =>
    rw [List.foldlM_cons] at h
    obtain ⟨d, hd, hrest⟩ := Option.bind_eq_some_iff.1 h
    exact ih (fun y hy => step y (List.mem_cons_of_mem _ hy)) (step x List.mem_cons_self b d hb hd)
      hrest

/-- A loop stays inside of its memory exactly if every pass does. -/
theorem foldlM_isSome {q : γ → Prop} (step : ∀ x ∈ l, ∀ b, (f b x).isSome ↔ q x) :
    (l.foldlM f b).isSome ↔ ∀ x ∈ l, q x := by
  induction l generalizing b with
  | nil => exact ⟨fun _ x hx => absurd hx List.not_mem_nil, fun _ => rfl⟩
  | cons x l ih =>
    have hx := step x List.mem_cons_self b
    have hrest : ∀ d : β, (l.foldlM f d).isSome ↔ ∀ y ∈ l, q y := fun d =>
      ih fun y hy => step y (List.mem_cons_of_mem _ hy)
    rw [List.foldlM_cons, List.forall_mem_cons]
    cases hd : f b x with
    | none =>
      rw [hd] at hx
      exact ⟨fun h => absurd h Bool.false_ne_true, fun h => absurd (hx.2 h.1) Bool.false_ne_true⟩
    | some d =>
      rw [hd] at hx
      exact (hrest d).trans ⟨fun h => ⟨hx.1 rfl, h⟩, And.right⟩

end Loops

end RetroLens.Checked
