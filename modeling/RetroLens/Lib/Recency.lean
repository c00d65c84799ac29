import Mathlib.Data.List.Nodup

/-!
# The most recent of a stream

`mostRecent k l` is what a reader of `l` meets first: its first `k` elements
without repetition. Using an element moves it to the front or drops the last
(`use`), and that keeps the most recent of what was used (`foldl_use`).
-/

namespace RetroLens.Recency

variable {α : Type} [DecidableEq α]

/-- The first `k` different elements. -/
def mostRecent (k : Nat) (l : List α) : List α := l.eraseDups.take k

/-- `x` is used, with room for `k` elements. -/
def use (k : Nat) (kept : List α) (x : α) : List α := (x :: kept.erase x).take k

variable {k : Nat} {l m : List α} {x : α}

theorem length_others (a : α) (l : List α) : (l.filter fun b => !b == a).length < l.length + 1 :=
  Nat.lt_succ_of_le (List.length_filter_le _ _)

theorem eraseDups_filter (p : α → Bool) : ∀ l : List α,
    (l.filter p).eraseDups = l.eraseDups.filter p
  | [] => rfl
  | a :: l => by
    have := length_others a l
    have hrest := eraseDups_filter p (l.filter fun b => !b == a)
    rw [List.eraseDups_cons, List.filter_cons, List.filter_cons]
    by_cases hp : p a
    · rw [if_pos hp, if_pos hp, List.eraseDups_cons, ← hrest, List.filter_filter,
        List.filter_filter]
      simp only [Bool.and_comm]
    · rw [if_neg hp, if_neg hp, ← hrest, List.filter_filter]
      congr 1
      refine List.filter_congr fun b _ => ?_
      by_cases hb : b = a
      · subst hb
        simp [hp]
      · simp [hb]
termination_by l => l.length

theorem mem_eraseDups {a : α} : ∀ {l : List α}, a ∈ l.eraseDups ↔ a ∈ l
  | [] => by simp
  | b :: l => by
    have := length_others b l
    rw [List.eraseDups_cons, List.mem_cons, List.mem_cons, mem_eraseDups]
    by_cases hab : a = b <;> simp [hab]
termination_by l => l.length

theorem nodup_eraseDups : ∀ l : List α, l.eraseDups.Nodup
  | [] => List.nodup_nil
  | b :: l => by
    have := length_others b l
    rw [List.eraseDups_cons, List.nodup_cons, mem_eraseDups]
    exact ⟨by simp, nodup_eraseDups _⟩
termination_by l => l.length

theorem eraseDups_of_nodup (h : l.Nodup) : l.eraseDups = l := by
  induction l with
  | nil => rfl
  | cons a l ih =>
    obtain ⟨hmem, hl⟩ := List.nodup_cons.1 h
    rw [List.eraseDups_cons, List.filter_eq_self.2, ih hl]
    intro b hb
    have : b ≠ a := fun hba => hmem (hba ▸ hb)
    simp [this]

/-- A list that is short enough and repeats nothing is all most recent. -/
theorem mostRecent_self (h : l.Nodup) (hk : l.length ≤ k) : mostRecent k l = l := by
  rw [mostRecent, eraseDups_of_nodup h, List.take_of_length_le hk]

theorem mostRecent_nodup (k : Nat) (l : List α) : (mostRecent k l).Nodup :=
  (nodup_eraseDups l).sublist (List.take_sublist _ _)

/-- Behind the front there is room for one less, whether `x` was among the first or not. -/
theorem take_filter_take (h : m.Nodup) :
    ((m.take (k + 1)).filter (· ≠ x)).take k = (m.filter (· ≠ x)).take k := by
  induction m generalizing k with
  | nil => rfl
  | cons a m ih =>
    obtain ⟨hmem, hm⟩ := List.nodup_cons.1 h
    rw [List.take_succ_cons]
    by_cases hax : a = x
    · subst hax
      have hself : ∀ l : List α, l.Sublist m → l.filter (· ≠ a) = l := fun l hl =>
        List.filter_eq_self.2 fun b hb => by
          have : b ≠ a := fun hba => hmem (hba ▸ hl.subset hb)
          simpa using this
      rw [List.filter_cons_of_neg (by simp), List.filter_cons_of_neg (by simp),
        hself _ (List.take_sublist _ _), hself _ (.refl m), List.take_take, Nat.min_self]
    · rw [List.filter_cons_of_pos (by simpa using hax), List.filter_cons_of_pos (by simpa using hax)]
      cases k with
      | zero => rfl
      | succ k => rw [List.take_succ_cons, List.take_succ_cons, ih hm]

theorem use_mostRecent (hk : 0 < k) (l : List α) (x : α) :
    use k (mostRecent k l) x = mostRecent k (x :: l) := by
  obtain ⟨k, rfl⟩ := Nat.exists_eq_add_one_of_ne_zero (Nat.ne_of_gt hk)
  have hfilter : (l.filter fun b => !b == x) = l.filter (· ≠ x) :=
    List.filter_congr fun b _ => by by_cases hb : b = x <;> simp [hb]
  have hbne : (fun b => b != x) = fun b => decide (b ≠ x) := by
    funext b
    by_cases hb : b = x <;> simp [hb]
  rw [use, (mostRecent_nodup (k + 1) l).erase_eq_filter, mostRecent, mostRecent,
    List.eraseDups_cons, hfilter, eraseDups_filter, List.take_succ_cons, List.take_succ_cons, hbne]
  exact congrArg _ (take_filter_take (nodup_eraseDups l))

theorem mostRecent_head (hk : 0 < k) (l : List α) (x : α) :
    (mostRecent k (x :: l)).head? = some x := by
  obtain ⟨k, rfl⟩ := Nat.exists_eq_add_one_of_ne_zero (Nat.ne_of_gt hk)
  rw [mostRecent, List.eraseDups_cons]
  rfl

/-- **What is kept is the most recent of all that was used**, by anything that does what `use`
does to such a list. -/
theorem foldl_use {f : List α → α → List α} (hk : 0 < k)
    (hf : ∀ kept x, kept.Nodup → kept.length ≤ k → f kept x = use k kept x) (xs l : List α) :
    xs.foldl f (mostRecent k l) = mostRecent k (xs.reverse ++ l) := by
  induction xs generalizing l with
  | nil => rfl
  | cons x xs ih =>
    rw [List.foldl_cons, hf _ _ (mostRecent_nodup k l) (List.length_take_le ..),
      use_mostRecent hk, ih, List.reverse_cons, List.append_assoc]
    rfl

end RetroLens.Recency
