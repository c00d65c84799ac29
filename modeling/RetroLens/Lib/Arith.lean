import Mathlib.Data.Int.Basic
import RetroLens.Lib.Checked

/-!
# Checked int arithmetic

Signed arithmetic out of the range of `int` is undefined, and so is a zero
divisor: both are `none` here, as an access outside of a `Buffer` is. `loop` is
a `for` from zero. A computation that returns `some` has a defined meaning in
all its steps.
-/

namespace RetroLens.Checked

/-! ## Operations -/

/-- A value that an `int` can have. -/
def Fits (z : Int) : Prop := -2147483648 ≤ z ∧ z ≤ 2147483647

instance (z : Int) : Decidable (Fits z) := inferInstanceAs (Decidable (_ ∧ _))

def int (z : Int) : Option Int := if Fits z then some z else none

def add (a b : Int) : Option Int := int (a + b)

def sub (a b : Int) : Option Int := int (a - b)

def mul (a b : Int) : Option Int := int (a * b)

/-- `a / b`. -/
def div (a b : Int) : Option Int := if b = 0 then none else int (a.tdiv b)

/-- `a % b`, undefined where `a / b` is. -/
def mod (a b : Int) : Option Int := (div a b).map fun _ => a.tmod b

theorem int_of_fits {z : Int} (h : Fits z) : int z = some z := if_pos h

theorem div_of_fits {a b : Int} (hb : b ≠ 0) (h : Fits (a.tdiv b)) : div a b = some (a.tdiv b) := by
  rw [div, if_neg hb, int_of_fits h]

theorem mod_of_fits {a b : Int} (hb : b ≠ 0) (h : Fits (a.tdiv b)) : mod a b = some (a.tmod b) := by
  rw [mod, div_of_fits hb h]
  rfl

/-- Division by anything but -1 and 0 stays in range. -/
theorem fits_tdiv {a b : Int} (ha : Fits a) (hb : 0 < b) : Fits (a.tdiv b) := by
  have hn := Int.natAbs_tdiv_le_natAbs a b
  obtain ⟨hlo, hhi⟩ := ha
  rcases Int.le_total 0 a with hpos | hneg
  · constructor <;> omega
  · have hneg := Int.tdiv_nonneg (a := -a) (b := b) (by omega) (by omega)
    rw [Int.neg_tdiv] at hneg
    constructor <;> omega

/-! ## On natural numbers -/

section

variable {a b : Nat}

theorem fits_nat (h : a ≤ 2147483647) : Fits (a : Int) := by
  constructor <;> omega

theorem add_nat (h : a + b ≤ 2147483647) : add (a : Int) b = some ((a + b : Nat) : Int) :=
  int_of_fits (fits_nat h)

theorem sub_nat (hb : b ≤ a) (h : a ≤ 2147483647) :
    sub (a : Int) b = some ((a - b : Nat) : Int) := by
  rw [Int.ofNat_sub hb]
  exact int_of_fits (Int.ofNat_sub hb ▸ fits_nat (by omega))

theorem mul_nat (h : a * b ≤ 2147483647) : mul (a : Int) b = some ((a * b : Nat) : Int) :=
  int_of_fits (by rw [← Int.natCast_mul]; exact fits_nat h)

theorem div_nat (hb : 0 < b) (h : a ≤ 2147483647) :
    div (a : Int) b = some ((a / b : Nat) : Int) := by
  rw [Int.ofNat_tdiv]
  exact div_of_fits (by omega) (fits_tdiv (fits_nat h) (by omega))

end

/-! ## Loops -/

section

variable {σ : Type} {body : Nat → σ → Option σ} {n : Nat} {s : σ}

/-- `for (int i = 0; i < n; i++)`. -/
def loop : Nat → (Nat → σ → Option σ) → σ → Option σ
  | 0, _, s => some s
  | n + 1, body, s => (loop n body s).bind (body n)

/-- A loop whose states are known before each iteration. -/
theorem loop_eq (f : Nat → σ) (h0 : f 0 = s) (hstep : ∀ i < n, body i (f i) = some (f (i + 1))) :
    loop n body s = some (f n) := by
  induction n with
  | zero => rw [loop, h0]
  | succ n ih =>
    rw [loop, ih fun i hi => hstep i (Nat.lt_succ_of_lt hi), Option.bind_some]
    exact hstep n (Nat.lt_succ_self n)

theorem loop_congr {other : Nat → σ → Option σ} (h : ∀ i < n, ∀ s, body i s = other i s) :
    loop n body s = loop n other s := by
  induction n with
  | zero => rfl
  | succ n ih =>
    rw [loop, loop, ih fun i hi => h i (Nat.lt_succ_of_lt hi)]
    exact congrArg _ (funext fun t => h n (Nat.lt_succ_self n) t)

/-- A loop of which each iteration is defined under a condition of its own. -/
theorem loop_ite {G : Nat → Prop} [DecidablePred G] (f : Nat → σ) (h0 : f 0 = s)
    (hstep : ∀ i < n, body i (f i) = if G i then some (f (i + 1)) else none) :
    loop n body s = if ∀ i < n, G i then some (f n) else none := by
  induction n with
  | zero => rw [loop, h0, if_pos (by simp)]
  | succ n ih =>
    rw [loop, ih fun i hi => hstep i (Nat.lt_succ_of_lt hi)]
    by_cases hall : ∀ i < n, G i
    · rw [if_pos hall, Option.bind_some, hstep n (Nat.lt_succ_self n)]
      by_cases hn : G n
      · rw [if_pos hn, if_pos fun i hi => (Nat.lt_succ_iff_lt_or_eq.1 hi).elim (hall i)
          fun h => h ▸ hn]
      · rw [if_neg hn, if_neg fun h => hn (h n (Nat.lt_succ_self n))]
    · rw [if_neg hall, if_neg fun h => hall fun i hi => h i (Nat.lt_succ_of_lt hi)]
      rfl

/-- What each iteration keeps, if it is defined wherever this holds, the loop keeps. -/
theorem loop_keeps (Inv : Nat → σ → Prop) (h0 : Inv 0 s)
    (hstep : ∀ i < n, ∀ s, Inv i s → ∃ s', body i s = some s' ∧ Inv (i + 1) s') :
    ∃ s', loop n body s = some s' ∧ Inv n s' := by
  induction n with
  | zero => exact ⟨s, rfl, h0⟩
  | succ n ih =>
    obtain ⟨t, ht, hinv⟩ := ih fun i hi => hstep i (Nat.lt_succ_of_lt hi)
    rw [loop, ht]
    exact hstep n (Nat.lt_succ_self n) t hinv

end

/-! ## Rows of pixels -/

namespace Buffer

variable {α : Type} {n : Nat}

theorem set_nat {b : Buffer α n} {i : Nat} (hi : i < n) (value : α) :
    b.set (i : Nat) value = some ⟨fun j => if j.val = i then value else b.cell j⟩ := by
  rw [set, if_pos ⟨Int.natCast_nonneg _, Int.ofNat_lt.2 hi⟩]
  simp only [Int.natCast_inj]

theorem get_nat {b : Buffer α n} {i : Nat} (hi : i < n) : b.get (i : Nat) = some (b.cell ⟨i, hi⟩) :=
  b.get_inside ⟨i, hi⟩

/-- `b` with the rows before `y`, and the first `x` pixels of row `y`, painted: a row
begins every `stride` elements and has `width` pixels. -/
def raster (value : Nat → Nat → α) (stride width y x : Nat) (b : Buffer α n) : Buffer α n :=
  ⟨fun j =>
    if j.val % stride < width ∧
        (j.val / stride < y ∨ j.val / stride = y ∧ j.val % stride < x) then
      value (j.val / stride) (j.val % stride)
    else b.cell j⟩

variable {value : Nat → Nat → α} {stride width height y x : Nat} {b : Buffer α n}

theorem raster_zero : b.raster value stride width 0 0 = b := by
  simp [raster]

theorem raster_row :
    b.raster value stride width y width = b.raster value stride width (y + 1) 0 := by
  have hcond (r c : Nat) : (c < width ∧ (r < y ∨ r = y ∧ c < width)) ↔
      (c < width ∧ (r < y + 1 ∨ r = y + 1 ∧ c < 0)) := by omega
  simp only [raster, hcond]

theorem place_iff {j : Nat} (hx : x < stride) :
    j = y * stride + x ↔ j / stride = y ∧ j % stride = x := by
  constructor
  · rintro rfl
    rw [Nat.mul_comm, Nat.mul_add_div (by omega), Nat.mul_add_mod, Nat.div_eq_of_lt hx,
      Nat.mod_eq_of_lt hx]
    exact ⟨rfl, rfl⟩
  · rintro ⟨rfl, rfl⟩
    rw [Nat.mul_comm]
    exact (Nat.div_add_mod j stride).symm

/-- One more pixel. -/
theorem raster_set (hwidth : width ≤ stride) (hx : x < width) (hn : y * stride + x < n) :
    (b.raster value stride width y x).set ((y * stride + x : Nat) : Int) (value y x) =
      some (b.raster value stride width y (x + 1)) := by
  rw [set_nat hn]
  refine congrArg some (congrArg Buffer.mk (funext fun j => ?_))
  simp only [place_iff (Nat.lt_of_lt_of_le hx hwidth)]
  by_cases hj : j.val / stride = y ∧ j.val % stride = x
  · rw [if_pos hj, if_pos ⟨by omega, .inr ⟨hj.1, by omega⟩⟩, hj.1, hj.2]
  · rw [if_neg hj]
    simp only [raster]
    have hcond : (j.val % stride < width ∧
        (j.val / stride < y ∨ j.val / stride = y ∧ j.val % stride < x)) ↔
        (j.val % stride < width ∧
          (j.val / stride < y ∨ j.val / stride = y ∧ j.val % stride < x + 1)) := by omega
    simp only [hcond]

/-- Two nested loops that set one pixel each time paint the rows. -/
theorem loop_raster {body : Nat → Buffer α n → Option (Buffer α n)} (hwidth : width ≤ stride)
    (hroom : ∀ y < height, ∀ x < width, y * stride + x < n)
    (hbody : ∀ y < height, ∀ p, body y p =
      loop width (fun x p => p.set ((y * stride + x : Nat) : Int) (value y x)) p) :
    loop height body b = some (b.raster value stride width height 0) := by
  refine loop_eq (fun y => b.raster value stride width y 0) raster_zero fun y hy => ?_
  rw [hbody y hy, ← raster_row]
  exact loop_eq (fun x => b.raster value stride width y x) rfl fun x hx =>
    raster_set hwidth hx (hroom y hy x hx)

end Buffer

end RetroLens.Checked
