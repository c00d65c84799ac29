import Mathlib.Data.Nat.Bitwise
import RetroLens.Lib.Text

/-!
# Bits, the most significant first

Bytes and code words as sequences of bits. A `BitStream` never ends, so that
what a reader delivers needs no case for its end; `Starts` says which bits come
next, and `number` is what a reader of `n` bits makes of them.
-/

namespace RetroLens.Bits

open Text

abbrev BitStream := Nat → Bool

/-- The stream after its first `n` bits. -/
def skip (n : Nat) (s : BitStream) : BitStream := fun i => s (i + n)

/-- The number that the first `n` bits are. -/
def number (s : BitStream) : Nat → Nat
  | 0 => 0
  | n + 1 => 2 * number s n + (s n).toNat

/-- The bits of `v` in `w` places. -/
def word : Nat → Nat → List Bool
  | 0, _ => []
  | w + 1, v => v.testBit w :: word w v

/-- The stream begins with `l`. -/
def Starts (s : BitStream) (l : List Bool) : Prop := ∀ i (h : i < l.length), s i = l[i]

/-- The bits of a stream of bytes. -/
def ofBytes (b : Nat → UInt8) : BitStream := fun i => (b (i / 8)).toBitVec.getMsbD (i % 8)

/-- The bits of a byte string. -/
def bytesBits (l : Bytes) : List Bool := l.flatMap fun b => word 8 b.toNat

variable {s : BitStream} {l l' : List Bool} {m n v w : Nat}

@[simp] theorem skip_zero (s : BitStream) : skip 0 s = s := rfl

theorem skip_skip (m n : Nat) (s : BitStream) : skip n (skip m s) = skip (m + n) s := by
  funext i
  simp only [skip]
  congr 1
  omega

theorem number_lt (s : BitStream) (n : Nat) : number s n < 2 ^ n := by
  induction n with
  | zero => exact Nat.one_pos
  | succ n ih =>
    have hbit : (s n).toNat ≤ 1 := Bool.toNat_le _
    simp only [number, Nat.pow_succ]
    omega

theorem number_add (s : BitStream) (m n : Nat) :
    number s (m + n) = number s m * 2 ^ n + number (skip m s) n := by
  induction n with
  | zero => simp [number]
  | succ n ih =>
    have hbit : skip m s n = s (m + n) := by rw [skip, Nat.add_comm]
    rw [← Nat.add_assoc, number, number, ih, hbit, Nat.pow_succ]
    ring

theorem number_congr {s' : BitStream} (h : ∀ i < n, s i = s' i) : number s n = number s' n := by
  induction n with
  | zero => rfl
  | succ n ih => rw [number, number, ih fun i hi => h i (by omega), h n (by omega)]

/-- The number of the upper bits of a machine word. -/
theorem number_msb {w : Nat} (x : BitVec w) {n : Nat} (hn : n ≤ w) :
    number x.getMsbD n = x.toNat / 2 ^ (w - n) := by
  induction n with
  | zero => rw [number, Nat.sub_zero, Nat.div_eq_of_lt x.isLt]
  | succ n ih =>
    have hbit : x.getMsbD n = x.toNat.testBit (w - (n + 1)) := by
      rw [BitVec.getMsbD_eq_getLsbD, decide_eq_true (by omega), Bool.true_and, BitVec.getLsbD]
      congr 1
      omega
    have hpow : 2 ^ (w - n) = 2 ^ (w - (n + 1)) * 2 := by
      rw [← Nat.pow_succ]
      congr 1
      omega
    rw [number, ih (by omega), hbit, Nat.toNat_testBit, hpow, ← Nat.div_div_eq_div_mul]
    omega

/-! ## What a stream begins with -/

theorem starts_nil (s : BitStream) : Starts s [] := fun _ h => absurd h (Nat.not_lt_zero _)

theorem starts_append : Starts s (l ++ l') ↔ Starts s l ∧ Starts (skip l.length s) l' := by
  constructor
  · intro h
    refine ⟨fun i hi => ?_, fun i hi => ?_⟩
    · rw [h i (by rw [List.length_append]; omega), List.getElem_append_left hi]
    · rw [skip, h (i + l.length) (by rw [List.length_append]; omega),
        List.getElem_append_right (by omega)]
      congr 1
      omega
  · rintro ⟨hl, hl'⟩ i hi
    rw [List.length_append] at hi
    by_cases hlt : i < l.length
    · rw [List.getElem_append_left hlt, hl i hlt]
    · have hrest := hl' (i - l.length) (by omega)
      rw [skip, Nat.sub_add_cancel (by omega)] at hrest
      rw [List.getElem_append_right (by omega), hrest]

@[simp] theorem word_length (w v : Nat) : (word w v).length = w := by
  induction w with
  | zero => rfl
  | succ w ih => rw [word, List.length_cons, ih]

theorem word_getElem (h : n < (word w v).length) : (word w v)[n] = v.testBit (w - 1 - n) := by
  induction w generalizing n with
  | zero => exact absurd h (Nat.not_lt_zero _)
  | succ w ih =>
    cases n with
    | zero => rfl
    | succ n =>
      simp only [word, List.getElem_cons_succ]
      rw [ih]
      congr 1
      omega

/-- **A stream that begins with a code word reads as its number.** -/
theorem number_of_starts (h : Starts s (word w v)) : number s w = v % 2 ^ w := by
  have hmsb : ∀ i < w, s i = (BitVec.ofNat w v).getMsbD i := fun i hi => by
    rw [h i (by rwa [word_length]), word_getElem, BitVec.getMsbD_eq_getLsbD,
      decide_eq_true hi, Bool.true_and, BitVec.getLsbD_ofNat, decide_eq_true (by omega),
      Bool.true_and]
  rw [number_congr hmsb, number_msb _ (Nat.le_refl w), Nat.sub_self, Nat.pow_zero, Nat.div_one,
    BitVec.toNat_ofNat]

theorem number_word (h : Starts s (word w v)) (hv : v < 2 ^ w) : number s w = v := by
  rw [number_of_starts h, Nat.mod_eq_of_lt hv]

/-! ## Bytes -/

theorem skip_ofBytes (b : Nat → UInt8) (k : Nat) :
    skip (8 * k) (ofBytes b) = ofBytes fun i => b (i + k) := by
  funext i
  simp only [skip, ofBytes]
  rw [Nat.add_mul_div_left _ _ (by decide), Nat.add_mul_mod_self_left]

theorem ofBytes_starts_word (b : Nat → UInt8) : Starts (ofBytes b) (word 8 (b 0).toNat) := by
  intro i hi
  rw [word_length] at hi
  rw [word_getElem, ofBytes, Nat.div_eq_of_lt hi, Nat.mod_eq_of_lt hi, BitVec.getMsbD_eq_getLsbD,
    decide_eq_true hi, Bool.true_and]
  rfl

@[simp] theorem bytesBits_nil : bytesBits [] = [] := rfl

@[simp] theorem bytesBits_cons (c : UInt8) (l : Bytes) :
    bytesBits (c :: l) = word 8 c.toNat ++ bytesBits l := rfl

theorem bytesBits_append (l l' : Bytes) :
    bytesBits (l ++ l') = bytesBits l ++ bytesBits l' := List.flatMap_append

/-- A stream of bytes begins with the bits of the bytes it begins with. -/
theorem ofBytes_starts {b : Nat → UInt8} {l : Bytes} (h : ∀ i (hi : i < l.length), b i = l[i]) :
    Starts (ofBytes b) (bytesBits l) := by
  induction l generalizing b with
  | nil => exact starts_nil _
  | cons c l ih =>
    have hc : b 0 = c := h 0 (by rw [List.length_cons]; omega)
    rw [bytesBits_cons, starts_append, word_length, ← hc]
    refine ⟨ofBytes_starts_word b, ?_⟩
    have hskip := skip_ofBytes b 1
    rw [Nat.mul_one] at hskip
    rw [hskip]
    exact ih fun i hi => h (i + 1) (by rw [List.length_cons]; omega)

end RetroLens.Bits
