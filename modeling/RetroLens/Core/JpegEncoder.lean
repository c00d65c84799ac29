import RetroLens.Lib.Text

/-!
# The bounded JPEG sink

`encodeJpeg` hands the vendored encoder a callback that copies its output into
a fixed buffer. The encoder is seen as the chunks it writes and the result it
returns.
-/

namespace RetroLens.Core

open Text

structure EncoderRun where
  chunks : List Bytes
  result : Bool
  deriving DecidableEq, Repr

structure EncoderTarget where
  output : Bytes
  capacity : Nat
  overflow : Bool
  deriving DecidableEq, Repr

def writeEncoded (target : EncoderTarget) (data : Bytes) : EncoderTarget :=
  if target.overflow then target
  else if data.length > target.capacity - target.output.length then
    { target with overflow := true }
  else { target with output := target.output ++ data }

/-- The encoded bytes, or `none` where `encodeJpeg` returns false. -/
def encodeJpeg (run : EncoderRun) (capacity : Nat) : Option Bytes :=
  let target := run.chunks.foldl writeEncoded { output := [], capacity, overflow := false }
  if !run.result || target.overflow || target.output.length < 4 then none
  else some target.output

variable {target : EncoderTarget} {chunk : Bytes} {chunks : List Bytes}

theorem overflow_sticky (h : target.overflow = true) (chunks : List Bytes) :
    chunks.foldl writeEncoded target = target := by
  induction chunks with
  | nil => rfl
  | cons chunk chunks ih =>
    have hstep : writeEncoded target chunk = target := if_pos h
    rw [List.foldl_cons, hstep, ih]

/-- After its chunks, a sink that had room holds them all or has overflowed. -/
theorem foldl_writeEncoded (h : target.overflow = false)
    (hroom : target.output.length ≤ target.capacity) (chunks : List Bytes) :
    if (target.output ++ chunks.flatten).length ≤ target.capacity then
      chunks.foldl writeEncoded target =
        { target with output := target.output ++ chunks.flatten }
    else (chunks.foldl writeEncoded target).overflow = true := by
  induction chunks generalizing target with
  | nil => simp [hroom]
  | cons chunk chunks ih =>
    rw [List.foldl_cons]
    by_cases hfit : chunk.length > target.capacity - target.output.length
    · have hstep : writeEncoded target chunk = { target with overflow := true } := by
        simp only [writeEncoded, h, Bool.false_eq_true, if_false, if_pos hfit]
      rw [hstep, overflow_sticky rfl, if_neg]
      simp only [List.length_append, List.flatten_cons]
      omega
    · have hstep : writeEncoded target chunk =
          { target with output := target.output ++ chunk } := by
        simp only [writeEncoded, h, Bool.false_eq_true, if_false, if_neg hfit]
      have hlen : (target.output ++ chunk).length ≤ target.capacity := by
        rw [List.length_append]
        omega
      have hrest := @ih { target with output := target.output ++ chunk } h hlen
      rw [List.append_assoc] at hrest
      rw [hstep, List.flatten_cons]
      exact hrest

/-- The encoder's output is kept whole or not at all. -/
theorem encodeJpeg_eq_some {run : EncoderRun} {capacity : Nat} {data : Bytes} :
    encodeJpeg run capacity = some data ↔
      run.result = true ∧ run.chunks.flatten = data ∧ 4 ≤ data.length ∧
        data.length ≤ capacity := by
  have hfold := @foldl_writeEncoded { output := [], capacity, overflow := false } rfl
    (Nat.zero_le _) run.chunks
  simp only [List.nil_append] at hfold
  simp only [encodeJpeg]
  by_cases hfit : run.chunks.flatten.length ≤ capacity
  · rw [if_pos hfit] at hfold
    simp only [hfold, Bool.or_false, Bool.or_eq_true, Bool.not_eq_true', decide_eq_true_eq,
      Option.ite_none_left_eq_some, not_or, Bool.not_eq_false, Option.some.injEq]
    constructor
    · rintro ⟨⟨hresult, hlen⟩, rfl⟩
      exact ⟨hresult, rfl, by omega, hfit⟩
    · rintro ⟨hresult, rfl, hlen, -⟩
      exact ⟨⟨hresult, by omega⟩, rfl⟩
  · rw [if_neg hfit] at hfold
    simp only [hfold, Bool.or_true, Bool.true_or, if_true, reduceCtorEq, false_iff]
    rintro ⟨-, rfl, -, hle⟩
    exact hfit hle

theorem encodeJpeg_length {run : EncoderRun} {capacity : Nat} {data : Bytes}
    (h : encodeJpeg run capacity = some data) : 4 ≤ data.length :=
  (encodeJpeg_eq_some.1 h).2.2.1

end RetroLens.Core
