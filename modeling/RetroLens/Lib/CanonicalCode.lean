import RetroLens.Lib.Bits

/-!
# Canonical codes

A canonical code is given by how many code words there are of each length: the
words of one length follow each other, and behind the last of them, lengthened
by a zero, the words of the next length begin. `num i` is how many words are
`i + 1` bits long.

`kraft n` is how many words of `n` bits begin with a code word. Where a stream
begins with a code word, a search from the shortest length on meets no other
before it (`Codes.longer`).
-/

namespace RetroLens.CanonicalCode

open Bits

variable (num : Nat → Nat)

/-- How many words of `n` bits begin with a code word. -/
def kraft : Nat → Nat
  | 0 => 0
  | n + 1 => 2 * kraft n + num n

/-- The first code word of `i + 1` bits. -/
def first (i : Nat) : Nat := 2 * kraft num i

/-- How many code words are `n` bits long or shorter. -/
def offset : Nat → Nat
  | 0 => 0
  | n + 1 => offset n + num n

/-- A word of `n` bits begins with the code word number `k` of `i + 1` bits. -/
structure Covers (n word i k : Nat) : Prop where
  short : i < n
  lt : k < num i
  eq : word / 2 ^ (n - (i + 1)) = first num i + k

/-- The stream begins with the code word number `k` of `i + 1` bits. -/
structure Codes (s : BitStream) (i k : Nat) : Prop where
  lt : k < num i
  eq : number s (i + 1) = first num i + k

variable {num} {s : BitStream} {i j k l m n w : Nat}

theorem kraft_succ (num : Nat → Nat) (n : Nat) : kraft num (n + 1) = first num n + num n := rfl

theorem kraft_scale (num : Nat → Nat) (h : m ≤ n) : kraft num m * 2 ^ (n - m) ≤ kraft num n := by
  induction n, h using Nat.le_induction with
  | base => rw [Nat.sub_self, Nat.pow_zero, Nat.mul_one]
  | succ n hn ih =>
    rw [Nat.succ_sub hn, Nat.pow_succ, ← Nat.mul_assoc, kraft]
    omega

theorem kraft_le (h : m ≤ n) : kraft num m ≤ kraft num n :=
  Nat.le_trans (Nat.le_mul_of_pos_right _ (Nat.two_pow_pos _)) (kraft_scale num h)

theorem offset_le (h : m ≤ n) : offset num m ≤ offset num n := by
  induction n, h using Nat.le_induction with
  | base => exact Nat.le_refl _
  | succ n hn ih => exact Nat.le_trans ih (Nat.le_add_right ..)

theorem offset_add_lt (hi : i < n) (hk : k < num i) : offset num i + k < offset num n := by
  have hle : offset num (i + 1) ≤ offset num n := offset_le hi
  rw [offset] at hle
  omega

theorem num_le_offset (h : i < n) : num i ≤ offset num n := by
  have hle : offset num (i + 1) ≤ offset num n := offset_le h
  rw [offset] at hle
  omega

/-! ## The code word a stream begins with -/

/-- The number of a shorter beginning. -/
theorem number_div (h : m ≤ n) : number s n / 2 ^ (n - m) = number s m := by
  obtain ⟨d, rfl⟩ := Nat.exists_eq_add_of_le h
  rw [number_add, Nat.add_sub_cancel_left, Nat.mul_comm, Nat.mul_add_div (Nat.two_pow_pos d),
    Nat.div_eq_of_lt (number_lt _ _), Nat.add_zero]

theorem covers_number : Covers num n (number s n) i k ↔ i < n ∧ Codes num s i k := by
  constructor
  · rintro ⟨hi, hk, heq⟩
    exact ⟨hi, hk, by rwa [number_div hi] at heq⟩
  · rintro ⟨hi, hk, heq⟩
    exact ⟨hi, hk, by rwa [number_div hi]⟩

theorem Codes.lt_kraft (h : Codes num s i k) : number s (i + 1) < kraft num (i + 1) := by
  rw [h.eq, kraft_succ]
  exact Nat.add_lt_add_left h.lt _

/-- **No shorter code word** is what the stream begins with. -/
theorem Codes.longer (h : Codes num s i k) (hj : j < i) :
    kraft num (j + 1) ≤ number s (j + 1) := by
  by_contra hlt
  have hfirst : first num i ≤ number s (i + 1) := h.eq ▸ Nat.le_add_right ..
  have hscale : kraft num (j + 1) * 2 ^ (i - j) ≤ first num i := by
    have hkraft := kraft_scale num (show j + 1 ≤ i from hj)
    have hpow : 2 ^ (i - j) = 2 ^ (i - (j + 1)) * 2 := by
      rw [← Nat.pow_succ]
      congr 1
      omega
    rw [hpow, first, ← Nat.mul_assoc, Nat.mul_comm 2]
    exact Nat.mul_le_mul_right _ hkraft
  have hdiv : number s (i + 1) / 2 ^ (i - j) = number s (j + 1) := by
    rw [← number_div (show j + 1 ≤ i + 1 by omega)]
    congr 2
    omega
  have hle : kraft num (j + 1) ≤ number s (i + 1) / 2 ^ (i - j) :=
    (Nat.le_div_iff_mul_le (Nat.two_pow_pos _)).2 (Nat.le_trans hscale hfirst)
  rw [hdiv] at hle
  exact hlt hle

/-- The code word itself is what a stream that begins with it codes. -/
theorem codes_of_starts (hk : k < num i) (hroom : kraft num (i + 1) ≤ 2 ^ (i + 1))
    (h : Starts s (word (i + 1) (first num i + k))) : Codes num s i k := by
  refine ⟨hk, number_word h ?_⟩
  rw [kraft_succ] at hroom
  omega

end RetroLens.CanonicalCode
