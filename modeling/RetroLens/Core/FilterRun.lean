import Mathlib.Logic.Function.Iterate
import RetroLens.Core.FilterSteps

/-!
# The loops, step by step

The loops of `processFrame` over the checked effects. A run keeps the random
state, the tear of each row and the pixels written, in order. It is defined
exactly when the places it computes are values of `int`, and it then writes the
unchecked output, each pixel once.
-/

namespace RetroLens.Core

open Checked

/-- What a run has done so far. -/
structure FilterRun where
  random : UInt32
  tears : List Int
  writes : List (Nat × Pixel)
  deriving DecidableEq, Repr

/-- `output[i] = p`. -/
def FilterRun.write (run : FilterRun) (size : Nat) (i : Int) (p : Pixel) : Option FilterRun :=
  if 0 ≤ i ∧ i < size then some { run with writes := run.writes ++ [(i.toNat, p)] } else none

/-- `(int)(timestampMs / 31)`. -/
def FilterArgs.phase (a : FilterArgs) : Int := (Int32.ofInt (a.timestampMs.toInt.tdiv 31)).toInt

namespace Steps

variable (a : FilterArgs)

/-- From the pixel read to the noise. -/
def effects (s : Site) (c : Rgb) : Option Rgb := do
  let c ← grade a s c
  let c ← mono a c
  let c ← thermal a s c
  let c ← edge a s c
  let c ← dither a s (a.cga s c)
  let c ← halftone a s c
  let c ← asciiArt a s c
  let c ← posterize a c
  let c ← temporal a s c
  bloom a s c

def filterPixel (jitterX tear sy : Int) (y x : Nat) (run : FilterRun) : Option FilterRun := do
  let sx ← snap a a.width (← (x + jitterX + tear : IntExpr).value)
  let c := (← fetch a.source (← (sy * a.width + sx : IntExpr).value)).rgb
  let s : Site := ⟨x, y, ← grey c⟩
  let (random, c) ← noise a (← effects a s c) run.random
  let run := { run with random }
  run.write (a.width * a.height) (← (y * a.width + x : IntExpr).value) c.pixel

def tears (y : Nat) : Option Bool :=
  if a.has fxTear then do
    return (← ((y + a.phase) % 47 : IntExpr).value) < 3
  else some false

def filterRow (jitterX jitterY : Int) (y : Nat) (run : FilterRun) : Option FilterRun := do
  let sy ← snap a a.height (← (y + jitterY : IntExpr).value)
  let torn ← tears a y
  let random := if torn then nextRandom run.random else run.random
  let tear ← (if torn then (random.toNat % 23 : Nat) - 11 else 0 : IntExpr).value
  loop a.width (filterPixel a jitterX tear sy y) { run with random, tears := run.tears ++ [tear] }

def output : Option FilterRun :=
  if a.has fxJitter then do
    let random := nextRandom a.start
    let jitterX ← ((random.toNat % 7 : Nat) - 3 : IntExpr).value
    let random := nextRandom random
    let jitterY ← ((random.toNat % 5 : Nat) - 2 : IntExpr).value
    loop a.height (filterRow a jitterX jitterY) ⟨random, [], []⟩
  else loop a.height (filterRow a 0 0) ⟨a.start, [], []⟩

end Steps

/-- The arguments of a call. -/
def FilterArgs.ofCall (source : List Pixel) (previous : Option (List Pixel)) (width height : Nat)
    (preset : Preset) (intensity : Int) (seed : UInt32) (timestampMs : Int64) : FilterArgs :=
  let intensity := if intensity < 0 then 0 else intensity
  let intensity := if intensity > 100 then 100 else intensity
  { source, previous, width, height, preset, amount := intensity, seed, timestampMs }

/-! ## A pixel -/

namespace Steps

variable {a : FilterArgs} {s : Site} {c : Rgb} {x y : Nat}

theorem effects_yields (ha : a.Valid) (hs : s.Inside a) (hc : c.Within 255) :
    Yields (effects a s c) (a.bloom s (a.temporal s (a.posterize (a.asciiArt s (a.halftone s
      (a.dither s (a.cga s (a.edge s (a.thermal s (a.mono (a.grade s c))))))))))) 6001231 := by
  have hgrade := grade_yields ha hs.grey hc
  have hmono := mono_yields ha hgrade.within
  have hthermal := thermal_yields (a := a) hs.grey hmono.within
  have hedge := edge_yields ha hs hthermal.within
  have hdither := dither_yields (a := a) (s := s) (cga_within (a := a) (s := s) hedge.within)
  have hhalftone := halftone_yields ha hs hdither.within
  have hascii := asciiArt_yields ha hs hhalftone.within
  have hposterize := posterize_yields ha hascii.within
  have htemporal := temporal_yields ha hs hposterize.within
  unfold effects
  rw [hgrade.bind, hmono.bind, hthermal.bind, hedge.bind, hdither.bind, hhalftone.bind,
    hascii.bind, hposterize.bind, htemporal.bind]
  exact bloom_yields ha hs.grey htemporal.within

theorem write_place (hx : x < a.width) (hy : y < a.height) (run : FilterRun)
    (p : Pixel) : run.write (a.width * a.height) ((y * a.width + x : Nat) : Int) p =
      some { run with writes := run.writes ++ [(y * a.width + x, p)] } := by
  rw [FilterRun.write, if_pos ⟨Int.natCast_nonneg _, Int.ofNat_lt.2 (place_lt hx hy)⟩,
    Int.toNat_natCast]

theorem filterPixel_eq (ha : a.Valid) (hx : x < a.width) (hy : y < a.height) {sy : Nat}
    (hsy : sy < a.height) (jitterX tear : Int) (run : FilterRun) :
    filterPixel a jitterX tear sy y x run =
      if Fits (x + jitterX) ∧ Fits (x + jitterX + tear) then
        let r := a.filterPixel sy (jitterX + tear) y run.random x
        some { run with random := r.1, writes := run.writes ++ [(y * a.width + x, r.2)] }
      else none := by
  rw [filterPixel, sum_value]
  by_cases hfits : Fits (x + jitterX) ∧ Fits (x + jitterX + tear)
  · obtain ⟨sx, hsx, hsnap, hpure⟩ := snap_eq ha ⟨ha.width, width_le ha⟩ (x + jitterX + tear)
    have hc := rgb_within (a.at' sx sy)
    have heffects := effects_yields ha (s := ⟨x, y, luma (a.at' sx sy)⟩)
      ⟨hx, hy, luma_within _⟩ hc
    rw [if_pos hfits, if_pos hfits]
    simp only [Option.bind_eq_bind, Option.bind_some, hsnap, (place_eval ha hsx hsy).value,
      source_place ha hsx hsy, grey_pixel, heffects.value, noise_eq ha heffects.within,
      (place_eval ha hx hy).value, write_place hx hy, FilterArgs.filterPixel, ← Int.add_assoc,
      hpure]
    rfl
  · rw [if_neg hfits, if_neg hfits]
    rfl

end Steps

/-! ## A row -/

section

variable {β : Type} {f : UInt32 → Nat → UInt32 × β} {random : UInt32}

theorem scan_append (l : List Nat) (i : Nat) :
    FilterArgs.scan f random (l ++ [i]) =
      ((f (FilterArgs.scan f random l).1 i).1,
        (FilterArgs.scan f random l).2 ++ [(f (FilterArgs.scan f random l).1 i).2]) := by
  induction l generalizing random with
  | nil => rfl
  | cons j l ih => simp only [List.cons_append, FilterArgs.scan, ih]

theorem scan_range_succ (n : Nat) :
    FilterArgs.scan f random (List.range (n + 1)) =
      ((f (FilterArgs.scan f random (List.range n)).1 n).1,
        (FilterArgs.scan f random (List.range n)).2 ++
          [(f (FilterArgs.scan f random (List.range n)).1 n).2]) := by
  rw [List.range_succ, scan_append]

end

namespace FilterArgs

variable (a : FilterArgs)

/-- The random state after the draw that a torn row begins with. -/
def torn (random : UInt32) (y : Nat) : UInt32 := if a.tears y then nextRandom random else random

/-- The displacement of a row. -/
def tear (random : UInt32) (y : Nat) : Int :=
  if a.tears y then (((a.torn random y).toNat % 23 : Nat) : Int) - 11 else 0

/-- The pixels of a row at their places. -/
def placed (y : Nat) (row : List Pixel) : List (Nat × Pixel) :=
  row.mapIdx fun x p => (y * a.width + x, p)

/-- The sums of a row are values of `int`. -/
structure RowFits (jitterX jitterY tear : Int) (y : Nat) : Prop where
  row : Fits (y + jitterY)
  phase : a.has fxTear → Fits (y + a.phase)
  columns : ∀ x < a.width, Fits (x + jitterX) ∧ Fits (x + jitterX + tear)

theorem row_eq (jitterX jitterY : Int) (random : UInt32) (y : Nat) :
    a.filterRow jitterX jitterY random y =
      scan (a.filterPixel (a.snap a.height (y + jitterY)) (jitterX + a.tear random y) y)
        (a.torn random y) (List.range a.width) := rfl

variable {a} {jitterX jitterY t : Int} {y : Nat}

theorem rowFits_iff : a.RowFits jitterX jitterY t y ↔
    Fits (y + jitterY) ∧ (a.has fxTear → Fits (y + a.phase)) ∧
      ∀ x < a.width, Fits (x + jitterX) ∧ Fits (x + jitterX + t) :=
  ⟨fun h => ⟨h.row, h.phase, h.columns⟩, fun h => ⟨h.1, h.2.1, h.2.2⟩⟩

instance : Decidable (a.RowFits jitterX jitterY t y) := decidable_of_iff _ rowFits_iff.symm

theorem placed_append (row : List Pixel) (p : Pixel) :
    a.placed y (row ++ [p]) = a.placed y row ++ [(y * a.width + row.length, p)] :=
  List.mapIdx_concat

end FilterArgs

namespace Steps

variable {a : FilterArgs} {y : Nat}

/-- Whether a row is torn is known when its phase is a value of `int`. -/
theorem tears_eq (y : Nat) :
    tears a y = if a.has fxTear → Fits (y + a.phase) then some (a.tears y) else none := by
  unfold tears FilterArgs.tears
  cases a.has fxTear with
  | false => rfl
  | true =>
    by_cases hphase : Fits (y + a.phase)
    · have hsum : Eval (y + a.phase : IntExpr) (y + a.phase) 2147483648 := by
        refine (Eval.nat y).apply (Eval.var (Nat.le_refl _)) (int_of_fits hphase) ?_
        have := hphase.1
        have := hphase.2
        omega
      have hmod : Eval ((y + a.phase) % 47 : IntExpr) (((y : Int) + a.phase).tmod 47) _ :=
        hsum.apply (Eval.lit 47) (mod_of_fits (by decide) (fits_tdiv hphase (by decide)))
          (Nat.le_refl _)
      rw [if_pos rfl, if_pos fun _ => hphase, hmod.bind]
      rfl
    · have hsum : (y + a.phase : IntExpr).value = none := if_neg hphase
      rw [if_pos rfl, if_neg fun h => hphase (h rfl)]
      show (((y + a.phase : IntExpr).value.bind _).bind _) = none
      rw [hsum]
      rfl

theorem tear_eval (random : UInt32) (y : Nat) :
    Eval (if a.tears y then ((a.torn random y).toNat % 23 : Nat) - 11 else 0 : IntExpr)
      (a.tear random y) 33 := by
  unfold FilterArgs.tear
  split
  · exact ((Eval.nat _).mono (show _ ≤ 22 by omega)).sub (.lit 11) (by decide)
  · exact (Eval.lit 0).mono (by decide)

theorem loop_pixels (ha : a.Valid) (hy : y < a.height) {sy : Nat} (hsy : sy < a.height)
    (jitterX tear : Int) (run : FilterRun) :
    loop a.width (filterPixel a jitterX tear sy y) run =
      if ∀ x < a.width, Fits (x + jitterX) ∧ Fits (x + jitterX + tear) then
        let r := FilterArgs.scan (a.filterPixel sy (jitterX + tear) y) run.random
          (List.range a.width)
        some { run with random := r.1, writes := run.writes ++ a.placed y r.2 }
      else none := by
  let g := a.filterPixel sy (jitterX + tear) y
  let after (x : Nat) : FilterRun :=
    { run with
      random := (FilterArgs.scan g run.random (List.range x)).1
      writes := run.writes ++ a.placed y (FilterArgs.scan g run.random (List.range x)).2 }
  have hstart : after 0 = run := by simp [after, FilterArgs.scan, FilterArgs.placed]
  refine loop_ite after hstart fun x hx => ?_
  rw [filterPixel_eq ha hx hy hsy]
  simp only [after, scan_range_succ, FilterArgs.placed_append, scan_length, List.length_range,
    List.append_assoc, g]

theorem filterRow_eq (ha : a.Valid) (hy : y < a.height) (jitterX jitterY : Int) (run : FilterRun) :
    filterRow a jitterX jitterY y run =
      if a.RowFits jitterX jitterY (a.tear run.random y) y then
        let r := a.filterRow jitterX jitterY run.random y
        some ⟨r.1, run.tears ++ [a.tear run.random y], run.writes ++ a.placed y r.2⟩
      else none := by
  simp only [FilterArgs.rowFits_iff]
  rw [filterRow, add_value, int]
  by_cases hrow : Fits (y + jitterY)
  · obtain ⟨sy, hsy, hsnap, hpure⟩ := snap_eq ha ⟨ha.height, height_le ha⟩ (y + jitterY)
    rw [if_pos hrow, tears_eq]
    simp only [Option.bind_eq_bind, Option.bind_some, hsnap]
    by_cases hphase : a.has fxTear → Fits (y + a.phase)
    · have htorn : (if a.tears y then nextRandom run.random else run.random) =
        a.torn run.random y := rfl
      rw [if_pos hphase, Option.bind_some, htorn, (tear_eval (a := a) run.random y).value,
        Option.bind_some, loop_pixels ha hy hsy]
      have hcolumns (P : Prop) :
          (Fits (y + jitterY) ∧ (a.has fxTear → Fits (y + a.phase)) ∧ P) ↔ P :=
        ⟨fun h => h.2.2, fun h => ⟨hrow, hphase, h⟩⟩
      simp only [hcolumns, a.row_eq jitterX jitterY, hpure]
    · rw [if_neg hphase, if_neg fun h => hphase h.2.1]
      rfl
  · rw [if_neg hrow, if_neg fun h => hrow h.1]
    rfl

end Steps

/-! ## The random numbers -/

namespace FilterArgs

variable (a : FilterArgs)

def jitterX : Int :=
  if a.has fxJitter then (((nextRandom a.start).toNat % 7 : Nat) : Int) - 3 else 0

def jitterY : Int :=
  if a.has fxJitter then (((nextRandom (nextRandom a.start)).toNat % 5 : Nat) : Int) - 2 else 0

/-- How many random numbers are drawn before row `y`. -/
def draws : Nat → Nat
  | 0 => if a.has fxJitter then 2 else 0
  | y + 1 => draws y + (if a.tears y then 1 else 0) + if a.preset.noise ≠ 0 then a.width else 0

/-- The displacement of row `y`, by the number that it draws. -/
def tearAt (y : Nat) : Int := a.tear (nextRandom^[a.draws y] a.start) y

/-- The rows before `y`, and the random state there. -/
def upTo (y : Nat) : UInt32 × List (List Pixel) :=
  scan (a.filterRow a.jitterX a.jitterY) (nextRandom^[a.draws 0] a.start) (List.range y)

theorem upTo_succ (y : Nat) :
    a.upTo (y + 1) = ((a.filterRow a.jitterX a.jitterY (a.upTo y).1 y).1,
      (a.upTo y).2 ++ [(a.filterRow a.jitterX a.jitterY (a.upTo y).1 y).2]) := scan_range_succ y

theorem upTo_length (y : Nat) : (a.upTo y).2.length = y :=
  (scan_length _ _ _).trans List.length_range

theorem output_rows : a.output = (a.upTo a.height).2.flatten := by
  unfold output upTo jitterX jitterY draws
  split <;> rfl

theorem scan_draws {β : Type} {f : UInt32 → Nat → UInt32 × β} {k : Nat}
    (h : ∀ random i, (f random i).1 = nextRandom^[k] random) (random : UInt32) (n : Nat) :
    (scan f random (List.range n)).1 = nextRandom^[n * k] random := by
  induction n with
  | zero => simp [scan]
  | succ n ih =>
    rw [scan_range_succ, h, ih, Nat.succ_mul, Nat.add_comm, Function.iterate_add_apply]

theorem filterPixel_draws (sy shift : Int) (y : Nat) (random : UInt32) (x : Nat) :
    (a.filterPixel sy shift y random x).1 =
      nextRandom^[if a.preset.noise ≠ 0 then 1 else 0] random := by
  simp only [filterPixel, noise]
  split <;> rfl

/-- **The random states before the rows are of one sequence.** -/
theorem upTo_random (y : Nat) : (a.upTo y).1 = nextRandom^[a.draws y] a.start := by
  induction y with
  | zero => rfl
  | succ y ih =>
    have htorn : a.torn (a.upTo y).1 y =
        nextRandom^[a.draws y + if a.tears y then 1 else 0] a.start := by
      rw [Nat.add_comm, Function.iterate_add_apply, ← ih]
      unfold torn
      split <;> rfl
    rw [upTo_succ, row_eq, scan_draws (a.filterPixel_draws _ _ y), htorn,
      ← Function.iterate_add_apply, draws]
    congr 1
    split <;> omega

/-! ## The frame -/

/-- Rows at their places. -/
def image (rows : List (List Pixel)) : List (Nat × Pixel) := (rows.mapIdx a.placed).flatten

theorem image_append (rows : List (List Pixel)) (row : List Pixel) :
    a.image (rows ++ [row]) = a.image rows ++ a.placed rows.length row := by
  simp [image, List.mapIdx_concat]

/-- The run of the whole frame. -/
def whole : FilterRun :=
  ⟨(a.upTo a.height).1, (List.range a.height).map a.tearAt, a.image (a.upTo a.height).2⟩

end FilterArgs

namespace Steps

variable {a : FilterArgs}

theorem loop_rows (ha : a.Valid) :
    loop a.height (filterRow a a.jitterX a.jitterY) ⟨nextRandom^[a.draws 0] a.start, [], []⟩ =
      if ∀ y < a.height, a.RowFits a.jitterX a.jitterY (a.tearAt y) y then some a.whole
      else none := by
  let after (y : Nat) : FilterRun :=
    ⟨(a.upTo y).1, (List.range y).map a.tearAt, a.image (a.upTo y).2⟩
  refine loop_ite after rfl fun y hy => ?_
  have htear : a.tear (a.upTo y).1 y = a.tearAt y := congrArg (a.tear · y) (a.upTo_random y)
  rw [filterRow_eq ha hy]
  simp only [after, htear, a.upTo_succ, List.range_succ, List.map_append, List.map_cons,
    List.map_nil, FilterArgs.image_append, a.upTo_length]

/-- A draw less half of its range. -/
theorem jitter_eval (random : UInt32) (k half : Nat) (h : 0 < k ∧ k ≤ 7 ∧ half ≤ 3) :
    Eval ((random.toNat % k : Nat) - (OfNat.ofNat half : IntExpr))
      (((random.toNat % k : Nat) : Int) - (OfNat.ofNat half : Int)) 10 := by
  have hdraw := Nat.mod_lt random.toNat h.1
  exact ((Eval.nat (random.toNat % k)).sub (.lit half) (by omega)).mono (by omega)

/-- **A run is defined exactly when the sums of its rows fit.** -/
theorem output_eq (ha : a.Valid) :
    output a =
      if ∀ y < a.height, a.RowFits a.jitterX a.jitterY (a.tearAt y) y then some a.whole
      else none := by
  rw [← loop_rows ha]
  unfold output FilterArgs.jitterX FilterArgs.jitterY FilterArgs.draws
  split
  · have hx := jitter_eval (nextRandom a.start) 7 3 (by decide)
    have hy := jitter_eval (nextRandom (nextRandom a.start)) 5 2 (by decide)
    dsimp only
    rw [hx.bind, hy.bind]
    rfl
  · rfl

end Steps

namespace FilterArgs

variable (a : FilterArgs)

theorem placed_places (y : Nat) (row : List Pixel) :
    (a.placed y row).map Prod.fst = (List.range row.length).map (y * a.width + ·) := by
  refine List.ext_getElem (by simp [placed]) fun i hi _ => ?_
  simp [placed]

theorem placed_pixels (y : Nat) (row : List Pixel) : (a.placed y row).map Prod.snd = row := by
  refine List.ext_getElem (by simp [placed]) fun i hi _ => ?_
  simp [placed]

/-- The rows are written from place to place. -/
theorem image_places (y : Nat) :
    (a.image (a.upTo y).2).map Prod.fst = List.range (y * a.width) := by
  induction y with
  | zero => simp [image, upTo, scan]
  | succ y ih =>
    have hrow : (a.filterRow a.jitterX a.jitterY (a.upTo y).1 y).2.length = a.width :=
      (scan_length _ _ _).trans List.length_range
    rw [upTo_succ, image_append, List.map_append, ih, placed_places, upTo_length, hrow,
      Nat.succ_mul, List.range_add]

theorem image_pixels (y : Nat) :
    (a.image (a.upTo y).2).map Prod.snd = (a.upTo y).2.flatten := by
  induction y with
  | zero => simp [image, upTo, scan]
  | succ y ih =>
    rw [upTo_succ, image_append, List.map_append, ih, placed_pixels, List.flatten_append]
    simp

/-- **A whole run writes each pixel of the output once, in order.** -/
theorem whole_writes :
    a.whole.writes.map Prod.fst = List.range (a.width * a.height) ∧
      a.whole.writes.map Prod.snd = a.output := by
  refine ⟨?_, ?_⟩
  · rw [Nat.mul_comm]
    exact a.image_places a.height
  · rw [output_rows]
    exact a.image_pixels a.height

end FilterArgs

/-- The checked run and the unchecked function agree wherever the run is defined. -/
theorem Steps.output_writes {a : FilterArgs} (ha : a.Valid) {run : FilterRun}
    (h : Steps.output a = some run) :
    run.writes.map Prod.fst = List.range (a.width * a.height) ∧
      run.writes.map Prod.snd = a.output := by
  rw [Steps.output_eq ha] at h
  split at h
  · cases h
    exact a.whole_writes
  · cases h

theorem processPixels_ofCall (source : List Pixel) (previous : Option (List Pixel))
    (width height : Nat) (preset : Preset) (intensity : Int) (seed : UInt32)
    (timestampMs : Int64) :
    processPixels source previous width height preset intensity seed timestampMs =
      (FilterArgs.ofCall source previous width height preset intensity seed timestampMs).output :=
  rfl

end RetroLens.Core
