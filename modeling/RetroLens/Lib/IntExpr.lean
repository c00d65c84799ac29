import RetroLens.Lib.Arith

/-!
# Expressions of int

An expression that C computes in `int` is undefined as soon as one of its
operations is. `Eval e v n` says that `e` is defined, that its value is `v` and
that `v` is at most `n` in absolute value: one lemma an operation, so that the
bound of an expression follows from the bounds of its variables.
-/

namespace RetroLens.Checked

structure IntExpr where
  value : Option Int

namespace IntExpr

/-- A variable or a constant. -/
@[coe] def var (v : Int) : IntExpr := ⟨some v⟩

instance : Coe Int IntExpr := ⟨var⟩

instance : Coe Nat IntExpr := ⟨fun n => var n⟩

instance (n : Nat) : OfNat IntExpr n := ⟨var n⟩

/-- Both operands, then the operation. -/
def apply (op : Int → Int → Option Int) (e f : IntExpr) : IntExpr :=
  ⟨e.value.bind fun v => f.value.bind fun w => op v w⟩

instance : Add IntExpr := ⟨apply add⟩

instance : Sub IntExpr := ⟨apply sub⟩

instance : Mul IntExpr := ⟨apply mul⟩

instance : Div IntExpr := ⟨apply div⟩

instance : Mod IntExpr := ⟨apply mod⟩

instance : Neg IntExpr := ⟨fun e => apply sub (var 0) e⟩

/-- `>>`, which rounds towards minus infinity. -/
instance : HShiftRight IntExpr Nat IntExpr := ⟨fun e k => ⟨e.value.map fun v : Int => v >>> k⟩⟩

end IntExpr

open IntExpr

/-- `e` is defined, with the value `v`, which is not above `n`. -/
structure Eval (e : IntExpr) (v : Int) (n : Nat) : Prop where
  value : e.value = some v
  bound : v.natAbs ≤ n

namespace Eval

variable {e f : IntExpr} {v w : Int} {m n k : Nat}

theorem bind {α : Type} (he : Eval e v n) (k : Int → Option α) : (e.value >>= k) = k v := by
  rw [he.value]
  rfl

theorem fits_natAbs (h : v.natAbs ≤ 2147483647) : Fits v := by
  constructor <;> omega

theorem var (h : v.natAbs ≤ n) : Eval (v : IntExpr) v n := ⟨rfl, h⟩

theorem lit (k : Nat) : Eval (OfNat.ofNat k : IntExpr) (OfNat.ofNat k : Int) k :=
  ⟨rfl, Nat.le_of_eq (Int.natAbs_natCast k)⟩

theorem nat (k : Nat) : Eval (k : IntExpr) (k : Int) k :=
  ⟨rfl, Nat.le_of_eq (Int.natAbs_natCast k)⟩

theorem mono (he : Eval e v m) (h : m ≤ n) : Eval e v n := ⟨he.value, he.bound.trans h⟩

theorem apply {op : Int → Int → Option Int} {z : Int} (he : Eval e v m) (hf : Eval f w n)
    (hop : op v w = some z) (hz : z.natAbs ≤ k) : Eval (apply op e f) z k :=
  ⟨by rw [IntExpr.apply, he.value, hf.value]; exact hop, hz⟩

theorem add (he : Eval e v m) (hf : Eval f w n) (h : m + n ≤ 2147483647) :
    Eval (e + f) (v + w) (m + n) := by
  have hz : (v + w).natAbs ≤ m + n :=
    (Int.natAbs_add_le v w).trans (Nat.add_le_add he.bound hf.bound)
  exact he.apply hf (int_of_fits (fits_natAbs (hz.trans h))) hz

theorem sub (he : Eval e v m) (hf : Eval f w n) (h : m + n ≤ 2147483647) :
    Eval (e - f) (v - w) (m + n) := by
  have hz : (v - w).natAbs ≤ m + n :=
    (Int.natAbs_sub_le v w).trans (Nat.add_le_add he.bound hf.bound)
  exact he.apply hf (int_of_fits (fits_natAbs (hz.trans h))) hz

/-- What is left of a value stays below it. -/
theorem sub_le (he : Eval e v m) (hf : Eval f w n) (hw : 0 ≤ w ∧ w ≤ v) (h : m ≤ 2147483647) :
    Eval (e - f) (v - w) m := by
  have hv := he.bound
  have hz : (v - w).natAbs ≤ m := by omega
  exact he.apply hf (int_of_fits (fits_natAbs (hz.trans h))) hz

theorem neg (he : Eval e v m) (h : m ≤ 2147483647) : Eval (-e) (-v) m := by
  have hz : (0 - v).natAbs ≤ m := by rw [Int.zero_sub, Int.natAbs_neg]; exact he.bound
  rw [← Int.zero_sub]
  exact (var (Nat.le_refl _)).apply he (int_of_fits (fits_natAbs (hz.trans h))) hz

theorem mul (he : Eval e v m) (hf : Eval f w n) (h : m * n ≤ 2147483647) :
    Eval (e * f) (v * w) (m * n) := by
  have hz : (v * w).natAbs ≤ m * n := by
    rw [Int.natAbs_mul]
    exact Nat.mul_le_mul he.bound hf.bound
  exact he.apply hf (int_of_fits (fits_natAbs (hz.trans h))) hz

/-- Division by a variable that is known to be positive. -/
theorem quot (he : Eval e v m) (hf : Eval f w n) (hw : 0 < w) (h : m ≤ 2147483647) :
    Eval (e / f) (v.tdiv w) m := by
  have hz : (v.tdiv w).natAbs ≤ m := (Int.natAbs_tdiv_le_natAbs v w).trans he.bound
  exact he.apply hf (div_of_fits (by omega) (fits_natAbs (hz.trans h))) hz

theorem div (he : Eval e v m) (k : Nat) (h : 0 < k ∧ m ≤ 2147483647) :
    Eval (e / (OfNat.ofNat k : IntExpr)) (v.tdiv (OfNat.ofNat k)) (m / k) :=
  ⟨(he.quot (lit k) (Int.natCast_pos.2 h.1) h.2).value,
    (Int.natAbs_tdiv v k).trans_le (Nat.div_le_div_right he.bound)⟩

theorem mod (he : Eval e v m) (hf : Eval f w n) (hw : 0 < w) (h : m ≤ 2147483647) :
    Eval (e % f) (v.tmod w) n := by
  have hz : (v.tdiv w).natAbs ≤ m := (Int.natAbs_tdiv_le_natAbs v w).trans he.bound
  have hb : (v.tmod w).natAbs ≤ n := by
    rw [Int.natAbs_tmod]
    exact (Nat.mod_lt _ (by omega)).le.trans hf.bound
  exact he.apply hf (mod_of_fits (by omega) (fits_natAbs (hz.trans h))) hb

theorem shiftRight (he : Eval e v m) (k : Nat) : Eval (e >>> k) (v >>> k) m := by
  refine ⟨congrArg (Option.map fun v : Int => v >>> k) he.value, ?_⟩
  rw [Int.shiftRight_eq_div_pow]
  exact (Int.natAbs_ediv_le_natAbs _ _).trans he.bound

end Eval

theorem add_value (u v : Int) : (u + v : IntExpr).value = int (u + v) := rfl

/-- A sum of three variables is defined when both its sums fit. -/
theorem sum_value (u v w : Int) :
    (u + v + w : IntExpr).value =
      if Fits (u + v) ∧ Fits (u + v + w) then some (u + v + w) else none := by
  show (int (u + v)).bind (fun z => int (z + w)) = _
  unfold int
  by_cases hfirst : Fits (u + v)
  · rw [if_pos hfirst, Option.bind_some]
    simp only [hfirst, true_and]
  · rw [if_neg hfirst, if_neg fun h => hfirst h.1]
    rfl

end RetroLens.Checked
