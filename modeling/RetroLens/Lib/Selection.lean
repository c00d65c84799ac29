import Mathlib.Data.List.Perm.Basic
import Mathlib.Order.Lattice

/-!
# The largest of a stream

`Largest key k seen kept`: of the elements seen so far, `kept` holds the `k`
with the largest keys, or all of them. It stays so when a new element takes a
free place, when it takes the place of a least one, and when it is no larger
than any that is kept.
-/

namespace RetroLens.Selection

open scoped List

variable {α β γ : Type} [LinearOrder β]

structure Largest (key : α → β) (k : Nat) (seen kept : List α) : Prop where
  length : kept.length = min k seen.length
  /-- What is left out is no larger than what is kept. -/
  parts : ∃ out, (kept ++ out).Perm seen ∧ ∀ x ∈ kept, ∀ y ∈ out, key y ≤ key x

namespace Largest

variable {key : α → β} {k i : Nat} {seen kept kept' : List α} {m x y : α}

theorem nil : Largest key k [] [] :=
  ⟨by simp, [], .refl _, fun _ h => by cases h⟩

/-- While there is room, all that is seen is kept. -/
theorem all_kept (h : Largest key k seen kept) (hk : seen.length ≤ k) : kept.Perm seen := by
  obtain ⟨out, hperm, -⟩ := h.parts
  have hlen := h.length
  have hout : out = [] := by
    have := hperm.length_eq
    rw [List.length_append] at this
    exact List.eq_nil_of_length_eq_zero (by omega)
  rwa [hout, List.append_nil] at hperm

/-- A free place. -/
theorem room (h : Largest key k seen kept) (hk : kept.length < k) :
    Largest key k (seen ++ [x]) (kept ++ [x]) := by
  have hlen := h.length
  have hperm := h.all_kept (by omega)
  refine ⟨?_, [], ?_, fun _ _ _ hy => by cases hy⟩
  · simp only [List.length_append, List.length_singleton]
    omega
  · rw [List.append_nil]
    exact hperm.append_right [x]

theorem set_perm (hi : kept[i]? = some m) : (kept.set i x ++ [m]).Perm (kept ++ [x]) := by
  obtain ⟨hlt, rfl⟩ := List.getElem?_eq_some_iff.1 hi
  calc kept.set i x ++ [kept[i]]
    _ ~ kept[i] :: kept.set i x := List.perm_append_singleton _ _
    _ ~ kept[i] :: x :: kept.eraseIdx i := (List.set_perm_cons_eraseIdx hlt x).cons _
    _ ~ x :: kept[i] :: kept.eraseIdx i := .swap ..
    _ ~ x :: kept := (List.getElem_cons_eraseIdx_perm hlt).cons _
    _ ~ kept ++ [x] := (List.perm_append_singleton _ _).symm

/-- A larger element in the place of a least one. -/
theorem replace (h : Largest key k seen kept) (hk : kept.length = k) (hi : kept[i]? = some m)
    (hmin : ∀ y ∈ kept, key m ≤ key y) (hx : key m < key x) :
    Largest key k (seen ++ [x]) (kept.set i x) := by
  obtain ⟨out, hperm, hout⟩ := h.parts
  have hlen := h.length
  refine ⟨?_, m :: out, ?_, fun a ha b hb => ?_⟩
  · simp only [List.length_set, List.length_append, List.length_singleton]
    omega
  · calc kept.set i x ++ m :: out
      _ = kept.set i x ++ [m] ++ out := by simp
      _ ~ kept ++ [x] ++ out := (set_perm hi).append_right out
      _ ~ kept ++ out ++ [x] := by
        rw [List.append_assoc, List.append_assoc]
        exact List.perm_append_comm.append_left kept
      _ ~ seen ++ [x] := hperm.append_right [x]
  · have hm : key m ≤ key a := by
      rcases List.mem_or_eq_of_mem_set ha with ha | rfl
      · exact hmin a ha
      · exact hx.le
    rcases List.mem_cons.1 hb with rfl | hb
    · exact hm
    · exact (hout m (List.mem_of_getElem? hi) b hb).trans hm

/-- An element that is no larger than any. -/
theorem skip (h : Largest key k seen kept) (hk : kept.length = k)
    (hx : ∀ y ∈ kept, key x ≤ key y) : Largest key k (seen ++ [x]) kept := by
  obtain ⟨out, hperm, hout⟩ := h.parts
  have hlen := h.length
  refine ⟨?_, out ++ [x], ?_, fun a ha b hb => ?_⟩
  · simp only [List.length_append, List.length_singleton]
    omega
  · rw [← List.append_assoc]
    exact hperm.append_right [x]
  · rcases List.mem_append.1 hb with hb | hb
    · exact hout a ha b hb
    · obtain rfl := List.mem_singleton.1 hb
      exact hx a ha

theorem perm (h : Largest key k seen kept) (hp : kept'.Perm kept) :
    Largest key k seen kept' := by
  obtain ⟨out, hperm, hout⟩ := h.parts
  exact ⟨hp.length_eq.trans h.length, out, (hp.append_right out).trans hperm,
    fun a ha => hout a (hp.mem_iff.1 ha)⟩

/-- What is kept has been seen. -/
theorem subset (h : Largest key k seen kept) (hx : x ∈ kept) : x ∈ seen := by
  obtain ⟨out, hperm, -⟩ := h.parts
  exact hperm.mem_iff.1 (List.mem_append_left out hx)

/-- What has been seen and is not kept is no larger than what is. -/
theorem left_out (h : Largest key k seen kept) (hx : x ∈ seen) (hn : x ∉ kept) (hy : y ∈ kept) :
    key x ≤ key y := by
  obtain ⟨out, hperm, hout⟩ := h.parts
  have hmem := List.mem_append.1 (hperm.mem_iff.2 hx)
  exact hout y hy x (hmem.resolve_left hn)

/-- What is seen once is kept at most once. -/
theorem nodup_map {f : α → γ} (h : Largest key k seen kept) (hn : (seen.map f).Nodup) :
    (kept.map f).Nodup := by
  obtain ⟨out, hperm, -⟩ := h.parts
  have hall := (hperm.map f).nodup_iff.2 hn
  rw [List.map_append] at hall
  exact (List.nodup_append.1 hall).1

end Largest

end RetroLens.Selection
