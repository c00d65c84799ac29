import RetroLens.Worker.DisplayProbe

/-!
# Every size of the display probe

`Drawn d` says that `d` is defined on every screen: no access leaves the screen
or a frame, no `int` overflows and no divisor is zero. All of
`renderDisplayProbe` is, but for the bar that sweeps over the page before the
first frame, which divides by the width less four.
-/

namespace RetroLens.Display

open Text RetroLens.Core Checked
open Camera.SequenceMetrics (SequenceProbeMetrics Update calculateSequenceProbeMetrics)

/-! ## Statements that are defined everywhere -/

section

variable {n : Nat} {α : Type} {c : Prop} [Decidable c] {d e : Draw n} {l : List (Draw n)}

def Drawn (d : Draw n) : Prop := ∀ pixels, ∃ pixels', d pixels = some pixels'

theorem drawn_skip : Drawn (some : Draw n) := fun pixels => ⟨pixels, rfl⟩

theorem Drawn.ite (hd : Drawn d) (he : Drawn e) : Drawn (if c then d else e) := by
  split
  · exact hd
  · exact he

theorem Drawn.drawIf (hd : Drawn d) : Drawn (drawIf c d) := hd.ite drawn_skip

/-- A value that the statement needs is defined. -/
theorem Drawn.bind {x : Option α} {v : α} {f : α → Draw n} (hx : x = some v) (hf : Drawn (f v)) :
    Drawn fun pixels => x >>= fun v => f v pixels := by
  subst hx
  exact hf

theorem Drawn.andThen (hd : Drawn d) (he : Drawn e) : Drawn fun pixels => d pixels >>= e := by
  intro pixels
  obtain ⟨pixels', h⟩ := hd pixels
  obtain ⟨pixels'', h'⟩ := he pixels'
  exact ⟨pixels'', (congrArg (· >>= e) h).trans h'⟩

theorem Drawn.draws (h : l.Forall Drawn) : Drawn (draws l) := by
  induction l with
  | nil => exact drawn_skip
  | cons d l ih =>
    obtain ⟨hd, hl⟩ := (List.forall_cons _ _ _).1 h
    exact hd.andThen (ih hl)

theorem Drawn.span {first last : Int} {body : Int → Draw n}
    (h : ∀ i, first ≤ i → i < last → Drawn (body i)) : Drawn (span first last body) := by
  intro pixels
  have hstep : ∀ i < (last - first).toNat, ∀ s, True → ∃ s', body (first + i) s = some s' ∧ True :=
    fun i hi s _ => by
      obtain ⟨s', hs⟩ := h (first + i) (by omega) (by omega) s
      exact ⟨s', hs, trivial⟩
  obtain ⟨pixels', hrun, -⟩ := loop_keeps (fun _ _ => True) (s := pixels) trivial hstep
  exact ⟨pixels', hrun⟩

/-- A statement that is defined nowhere spoils all of them. -/
theorem draws_none (hd : d ∈ l) (h : ∀ pixels, d pixels = none) (pixels : Canvas n) :
    draws l pixels = none := by
  induction l generalizing pixels with
  | nil => cases hd
  | cons a l ih =>
    rw [Display.draws, List.foldlM_cons]
    rcases List.mem_cons.1 hd with rfl | hd
    · rw [h]
      rfl
    · cases a pixels with
      | none => rfl
      | some pixels => exact ih hd pixels

end

/-! ## The drawing functions -/

section

variable {w h : Nat} {x y : Int} {color : UInt16}

/-- The sizes of a screen. -/
structure Sized (w h : Nat) : Prop where
  width : 1 ≤ w ∧ w ≤ 32767
  height : 1 ≤ h ∧ h ≤ 32767

theorem set_drawn (hs : Sized w h) (hx : 0 ≤ x ∧ x < w) (hy : 0 ≤ y ∧ y < h) (value : UInt16) :
    Drawn (fun pixels : Canvas (w * h) => do pixels.set (← add (← mul y w) x) value) := by
  obtain ⟨a, rfl⟩ := Int.eq_ofNat_of_zero_le hx.1
  obtain ⟨b, rfl⟩ := Int.eq_ofNat_of_zero_le hy.1
  have ha : a < w := by omega
  have hb : b < h := by omega
  have hplace : b * w + a < w * h := by
    have hrow : (b + 1) * w ≤ h * w := Nat.mul_le_mul_right _ hb
    rw [Nat.succ_mul, Nat.mul_comm h w] at hrow
    omega
  have hsize : w * h ≤ 32767 * 32767 := Nat.mul_le_mul hs.width.2 hs.height.2
  refine .bind (mul_nat (by omega)) (.bind (add_nat (by omega)) fun pixels => ?_)
  exact ⟨_, Buffer.set_nat hplace value⟩

theorem pixel_drawn (hs : Sized w h) (x y : Int) (color : UInt16) :
    Drawn (n := w * h) (pixel w h x y color) := by
  intro pixels
  unfold pixel
  split
  · rename_i hin
    exact set_drawn hs ⟨hin.1, hin.2.1⟩ hin.2.2 color pixels
  · exact ⟨pixels, rfl⟩

/-- The clipping keeps a rectangle on the screen, whatever its bounds. -/
theorem rectangle_drawn (hs : Sized w h) (left top right bottom : Int) (color : UInt16) :
    Drawn (n := w * h) (rectangle w h left top right bottom color) := by
  unfold rectangle
  refine .span fun y hy hy' => .span fun x hx hx' => set_drawn hs ?_ ?_ color
  · refine ⟨?_, ?_⟩
    · split at hx <;> omega
    · split at hx' <;> omega
  · refine ⟨?_, ?_⟩
    · split at hy <;> omega
    · split at hy' <;> omega

/-- A place at which a text may start. -/
def Start (x y : Int) : Prop := (0 ≤ x ∧ x ≤ 40000) ∧ 0 ≤ y ∧ y ≤ 40000

instance (x y : Int) : Decidable (Start x y) := inferInstanceAs (Decidable (_ ∧ _))

theorem drawGlyph_drawn (hs : Sized w h) (hp : Start x y) (rows : List Nat) (color : UInt16) :
    Drawn (n := w * h) (drawGlyph w h x y rows color) := by
  obtain ⟨hx, hy⟩ := hp
  refine .span fun row hr hr' => .span fun column hc hc' => .drawIf ?_
  exact .bind (int_of_fits ⟨by omega, by omega⟩)
    (.bind (int_of_fits ⟨by omega, by omega⟩) (pixel_drawn hs _ _ color))

theorem drawCharacter_drawn (hs : Sized w h) (hp : Start x y) (character : UInt8)
    (color : UInt16) : Drawn (n := w * h) (drawCharacter w h x y character color) := by
  unfold drawCharacter
  split
  · exact drawGlyph_drawn hs hp _ color
  · exact drawn_skip

/-- A text moves to the right only while it is on the screen. -/
theorem text_drawn (hs : Sized w h) (hp : Start x y) (value : Bytes) (color : UInt16) :
    Drawn (n := w * h) (text w h x y value color) := by
  induction value generalizing x with
  | nil => exact drawn_skip
  | cons character rest ih =>
    obtain ⟨hx, hy⟩ := hp
    intro pixels
    obtain ⟨pixels', hglyph⟩ := drawCharacter_drawn hs ⟨hx, hy⟩ character color pixels
    rw [text]
    simp only [hglyph, Option.bind_eq_bind, Option.bind_some,
      show add x 6 = some (x + 6) from int_of_fits ⟨by omega, by omega⟩,
      show add (x + 6) 5 = some (x + 6 + 5) from int_of_fits ⟨by omega, by omega⟩]
    split
    · exact ⟨pixels', rfl⟩
    · rename_i hin
      have := hs.width
      exact ih ⟨by omega, hy⟩ pixels'

theorem shadowedText_drawn (hs : Sized w h) (hx : 0 ≤ x ∧ x < 40000) (hy : 0 ≤ y ∧ y < 40000)
    (value : Bytes) (color shadow : UInt16) :
    Drawn (n := w * h) (shadowedText w h x y value color shadow) := by
  refine .bind (int_of_fits ⟨by omega, by omega⟩) (.bind (int_of_fits ⟨by omega, by omega⟩) ?_)
  exact .andThen (text_drawn hs ⟨by omega, by omega⟩ _ _)
    (text_drawn hs ⟨by omega, by omega⟩ _ _)

end

/-! ## The pages -/

/-- The metrics that the worker keeps in range. -/
structure FilterProbeMetrics.InRange (f : FilterProbeMetrics) : Prop where
  selectedPreset : InCatalogue f.selectedPreset.toInt
  parameterIndex : 0 ≤ f.parameterIndex.toInt ∧ f.parameterIndex.toInt < 4
  parameterValue : -100 ≤ f.parameterValue.toInt ∧ f.parameterValue.toInt ≤ 100
  galleryPhotoCount : 0 ≤ f.galleryPhotoCount.toInt ∧
    f.galleryPhotoCount.toInt ≤ Store.kMaxPhotoEntries
  galleryIndex : f.galleryIndex.toInt = 0 ∨
    0 ≤ f.galleryIndex.toInt ∧ f.galleryIndex.toInt < f.galleryPhotoCount.toInt

namespace Scene

variable {c : Scene} {w h : Nat} {x y : Int}

/-- The scene is drawn on a screen of `w` by `h` pixels. -/
structure Sized (c : Scene) (w h : Nat) : Prop extends Display.Sized w h where
  screenWidth : c.width = w
  screenHeight : c.height = h

theorem Sized.rectangle (hc : c.Sized w h) (left top right bottom : Int) (color : UInt16) :
    Drawn (n := w * h) (c.rectangle left top right bottom color) := by
  unfold Scene.rectangle
  rw [hc.screenWidth, hc.screenHeight]
  exact rectangle_drawn hc.toSized left top right bottom color

theorem Sized.text (hc : c.Sized w h) (hp : Start x y) (value : Bytes) (color : UInt16) :
    Drawn (n := w * h) (c.text x y value color) := by
  unfold Scene.text
  rw [hc.screenWidth, hc.screenHeight]
  exact text_drawn hc.toSized hp value color

theorem readPixel_inside (frame : Frame) {i : Nat} (hi : i < 4800) :
    ∃ p, readPixel frame (i : Nat) = some p := by
  have hlen : i < frame.pixels.length := by
    rw [frame.size]
    exact hi
  refine ⟨frame.pixels[i], ?_⟩
  rw [readPixel, if_pos (Int.natCast_nonneg i), Int.toNat_natCast, List.getElem?_eq_getElem hlen]

/-- Scaling by the screen's size stays in the frame. -/
theorem frameArea_drawn (hc : c.Sized w h) (frame : Frame) :
    Drawn (n := w * h) (c.frameArea frame) := by
  have hw := hc.width
  have hh := hc.height
  unfold frameArea
  rw [hc.screenWidth, hc.screenHeight]
  refine .span fun y hy hy' => ?_
  obtain ⟨b, rfl⟩ := Int.eq_ofNat_of_zero_le hy
  have hb : b < h := by omega
  have hrow : b * kFrameHeight / h < kFrameHeight :=
    Nat.div_lt_of_lt_mul (Nat.mul_lt_mul_of_pos_right hb (by decide))
  have hscale : b * kFrameHeight ≤ 32767 * 60 := Nat.mul_le_mul (by omega) (by decide)
  refine .bind (mul_nat (by omega)) (.bind (div_nat hh.1 (by omega)) (.span fun x hx hx' => ?_))
  obtain ⟨a, rfl⟩ := Int.eq_ofNat_of_zero_le hx
  have ha : a < w := by omega
  have hcolumn : a * kFrameWidth / w < kFrameWidth :=
    Nat.div_lt_of_lt_mul (Nat.mul_lt_mul_of_pos_right ha (by decide))
  have hscale' : a * kFrameWidth ≤ 32767 * 80 := Nat.mul_le_mul (by omega) (by decide)
  have hline : b * kFrameHeight / h * kFrameWidth ≤ 59 * 80 :=
    Nat.mul_le_mul (Nat.le_of_lt_succ hrow) (by decide)
  have hcolumn' : a * kFrameWidth / w ≤ 79 := Nat.le_of_lt_succ hcolumn
  have hhalf : div (w : Int) 2 = some ((w / 2 : Nat) : Int) :=
    div_nat (b := 2) (by omega) (by omega)
  refine .bind (mul_nat (by omega)) (.bind (div_nat hw.1 (by omega)) (.bind hhalf
    (.bind (mul_nat (by omega)) (.bind (add_nat (by omega)) ?_))))
  obtain ⟨source, hsource⟩ := readPixel_inside
    (if !c.galleryScene && c.filter.compare && decide ((a : Int) < ((w / 2 : Nat) : Int)) then
      c.original.getD frame else frame)
    (i := b * kFrameHeight / h * kFrameWidth + a * kFrameWidth / w) (by omega)
  exact .bind hsource (set_drawn hc.toSized ⟨by omega, by omega⟩ ⟨by omega, by omega⟩ _)

theorem galleryPage_drawn (hc : c.Sized w h) (hf : c.filter.InRange) :
    Drawn (n := w * h) c.galleryPage := by
  have hcount := hf.galleryPhotoCount
  have hindex := hf.galleryIndex
  have hmax : (Store.kMaxPhotoEntries : Int) = 48 := rfl
  have htitle : Drawn (n := w * h) (shadowedText c.width c.height 3 3 (ascii "PHOTO GALLERY")
      accent background) := by
    rw [hc.screenWidth, hc.screenHeight]
    exact shadowedText_drawn hc.toSized (by omega) (by omega) _ _ _
  exact .draws ⟨hc.rectangle _ _ _ _ _, htitle,
    .ite (hc.text (by decide) _ _) (.ite (.bind (int_of_fits ⟨by omega, by omega⟩)
      (hc.text (by decide) _ _)) (hc.text (by decide) _ _)),
    hc.rectangle _ _ _ _ _,
    .drawIf (.draws ⟨hc.text (by decide) _ _, hc.text (by decide) _ _⟩),
    .ite (hc.text (by decide) _ _) (hc.text (by decide) _ _)⟩

theorem parameterText_some (hf : c.filter.InRange) : ∃ shown, c.parameterText = some shown := by
  obtain ⟨hindex0, hindex⟩ := hf.parameterIndex
  have hname : kParameters[c.filter.parameterIndex.toInt.toNat]? = some _ :=
    List.getElem?_eq_getElem (show _ < 4 by omega)
  rw [parameterText]
  simp only [if_pos hindex0, hname, Option.bind_eq_bind, Option.bind_some]
  exact ⟨_, rfl⟩

theorem bar_some (hf : c.filter.InRange) : ∃ bar, c.bar = some bar ∧ 0 ≤ bar ∧ bar ≤ 100 := by
  have hvalue := hf.parameterValue
  have hbar : ∃ bar, (if c.filter.parameterIndex = 0 then some c.filter.parameterValue.toInt
      else add 50 c.filter.parameterValue.toInt) = some bar := by
    split
    · exact ⟨_, rfl⟩
    · exact ⟨_, int_of_fits ⟨by omega, by omega⟩⟩
  obtain ⟨bar, hbar⟩ := hbar
  refine ⟨_, by rw [Scene.bar, hbar, Option.map_some], ?_⟩
  split
  · omega
  · split <;> omega

theorem controlsPage_drawn (hc : c.Sized w h) (hf : c.filter.InRange) :
    Drawn (n := w * h) c.controlsPage := by
  obtain ⟨parameter, hparameter⟩ := parameterText_some hf
  obtain ⟨bar, hbar, hbar0, hbar1⟩ := bar_some hf
  exact .draws ⟨hc.rectangle _ _ _ _ _, hc.text (by decide) _ _, hc.text (by decide) _ _,
    .bind hparameter (hc.text (by decide) _ _), hc.rectangle _ _ _ _ _,
    .bind hbar (.bind (int_of_fits ⟨by omega, by omega⟩) (hc.rectangle _ _ _ _ _)),
    hc.text (by decide) _ _, hc.text (by decide) _ _⟩

theorem browserPage_drawn (hc : c.Sized w h) (hf : c.filter.InRange) :
    Drawn (n := w * h) c.browserPage := by
  have hselected := hf.selectedPreset
  have hcount : presetCount = 70 := presetCount_eq
  unfold InCatalogue at hselected
  have hrow : Drawn (n := w * h) (span (-2) 3 fun row pixels => do
      let selected ← add (← add c.filter.selectedPreset.toInt row) presetCount
      let index ← mod selected presetCount
      let y ← add 18 (← mul (← add row 2) 14)
      c.text 3 y ((presetName index).take 17) (if row = 0 then accent else warm) pixels) := by
    refine .span fun row hr hr' => ?_
    refine .bind (int_of_fits ⟨by omega, by omega⟩) (.bind (int_of_fits ⟨by omega, by omega⟩)
      (.bind (mod_of_fits (by omega) (fits_tdiv ⟨by omega, by omega⟩ (by omega))) ?_))
    refine .bind (int_of_fits ⟨by omega, by omega⟩) (.bind (int_of_fits ⟨by omega, by omega⟩)
      (.bind (int_of_fits ⟨by omega, by omega⟩) (hc.text ⟨by omega, by omega⟩ _ _)))
  exact .draws ⟨hc.rectangle _ _ _ _ _, hc.text (by decide) _ _, hrow⟩

theorem kibibytes_some {m : SequenceProbeMetrics}
    (h : 0 ≤ m.lastJpegBytes ∧ m.lastJpegBytes ≤ 262144) : ∃ k, kibibytes m = some k := by
  have hsum : add m.lastJpegBytes 1023 = some _ := int_of_fits ⟨by omega, by omega⟩
  have hdiv : div (m.lastJpegBytes + 1023) 1024 = some _ :=
    div_of_fits (by omega) (fits_tdiv ⟨by omega, by omega⟩ (by omega))
  rw [kibibytes, hsum]
  exact ⟨_, hdiv⟩

theorem tenthsText_some {tenths : Int} (h : Checked.Fits tenths) :
    ∃ shown, tenthsText tenths = some shown := by
  have hfits : Checked.Fits (tenths.tdiv 10) := fits_tdiv h (by omega)
  rw [tenthsText, div_of_fits (by omega) hfits, mod_of_fits (by omega) hfits]
  exact ⟨_, rfl⟩

theorem fits_int32 (value : Int32) : Checked.Fits value.toInt :=
  ⟨value.le_toInt, Int.le_of_lt_add_one value.toInt_lt⟩

/-- The metrics of the sequence that the scene can be given. -/
structure Measured (m : SequenceProbeMetrics) : Prop where
  received : 0 ≤ m.receivedFrames ∧ m.receivedFrames ≤ 2147483647
  released : 0 ≤ m.releasedFrames ∧ m.releasedFrames ≤ 2147483647
  lastJpegBytes : 0 ≤ m.lastJpegBytes ∧ m.lastJpegBytes ≤ 262144
  fpsTenths : 0 ≤ m.fpsTenths ∧ m.fpsTenths ≤ 999

theorem diagnosticsPage_drawn (hc : c.Sized w h) (hm : Measured c.sequence) (outstanding : Int) :
    Drawn (n := w * h) (c.diagnosticsPage outstanding) := by
  obtain ⟨fps, hfps⟩ := tenthsText_some (fits_int32 c.filter.processedFpsTenths)
  obtain ⟨k, hk⟩ := kibibytes_some hm.lastJpegBytes
  exact .draws ⟨hc.rectangle _ _ _ _ _, hc.text (by decide) _ _,
    .bind hfps (hc.text (by decide) _ _), hc.text (by decide) _ _,
    .bind hk (hc.text (by decide) _ _), hc.text (by decide) _ _, hc.text (by decide) _ _,
    hc.text (by decide) _ _⟩

theorem cameraPage_drawn (hc : c.Sized w h) : Drawn (n := w * h) c.cameraPage :=
  .draws ⟨hc.rectangle _ _ _ _ _, hc.text (by decide) _ _, .drawIf (hc.text (by decide) _ _),
    hc.rectangle _ _ _ _ _, hc.text (by decide) _ _, hc.text (by decide) _ _,
    .drawIf (hc.text (by decide) _ _)⟩

/-- Half of a dimension of the screen. -/
theorem half_some {size : Nat} {v : Int} (hv : v = size) (hsize : size ≤ 32767) :
    ∃ half : Int, div v 2 = some half ∧ 0 ≤ half ∧ half ≤ 32767 := by
  rw [hv]
  exact ⟨_, div_nat (b := 2) (by omega) (by omega), by omega, by omega⟩

/-- A distance from the center. -/
def Near (d : Int) : Prop := -100 ≤ d ∧ d ≤ 100

instance (d : Int) : Decidable (Near d) := inferInstanceAs (Decidable (_ ∧ _))

theorem focusMark_drawn (hc : c.Sized w h) {left top right bottom : Int}
    (hn : Near left ∧ Near top ∧ Near right ∧ Near bottom) :
    Drawn (n := w * h) (c.focusMark left top right bottom) := by
  obtain ⟨x, hx, hx0, hx1⟩ := half_some hc.screenWidth hc.width.2
  obtain ⟨y, hy, hy0, hy1⟩ := half_some hc.screenHeight hc.height.2
  unfold Near at hn
  exact .bind hx (.bind hy (.bind (int_of_fits ⟨by omega, by omega⟩)
    (.bind (int_of_fits ⟨by omega, by omega⟩) (.bind (int_of_fits ⟨by omega, by omega⟩)
      (.bind (int_of_fits ⟨by omega, by omega⟩) (hc.rectangle _ _ _ _ _))))))

/-- Over a frame and in the gallery every statement is defined. -/
theorem framePage_drawn (hc : c.Sized w h) (hf : c.filter.InRange) (hm : Measured c.sequence)
    (outstanding : Int) (imbalance : Bool) :
    Drawn (n := w * h) (c.framePage outstanding imbalance) := by
  obtain ⟨x, hx, hx0, hx1⟩ := half_some hc.screenWidth hc.width.2
  have hcompare : Drawn (n := w * h) (draws [c.text 2 14 (ascii "ORIGINAL") warm,
      fun pixels => do c.text (← add (← div c.width 2) 3) 14 (ascii "RETROLENS") accent pixels]) :=
    .draws ⟨hc.text (by decide) _ _, .bind hx (.bind (int_of_fits ⟨by omega, by omega⟩)
      (hc.text ⟨by omega, by omega⟩ _ _))⟩
  refine .draws ⟨?frame, .ite (galleryPage_drawn hc hf) (.ite (controlsPage_drawn hc hf)
    (.ite (browserPage_drawn hc hf) (.ite (diagnosticsPage_drawn hc hm _)
      (.drawIf (cameraPage_drawn hc))))),
    .drawIf hcompare, ?message,
    .drawIf (.draws ⟨hc.rectangle _ _ _ _ _, hc.text (by decide) _ _⟩),
    .drawIf (.draws ⟨focusMark_drawn hc (by decide), focusMark_drawn hc (by decide),
      focusMark_drawn hc (by decide), focusMark_drawn hc (by decide)⟩)⟩
  case frame =>
    split
    · exact frameArea_drawn hc _
    · exact drawn_skip
  case message =>
    split
    · exact .drawIf (.draws ⟨hc.rectangle _ _ _ _ _, hc.text (by decide) _ _⟩)
    · exact drawn_skip

/-! ## The page before the first frame -/

theorem barRight_some (hc : c.Sized w h) :
    ∃ right, c.barRight = some right ∧ -8 ≤ right ∧ right ≤ 111 := by
  have hw := hc.width
  unfold barRight
  rw [hc.screenWidth]
  split
  · exact ⟨111, rfl, by omega, by omega⟩
  · exact ⟨_, int_of_fits ⟨by omega, by omega⟩, by omega, by omega⟩

theorem barWidth_some {right : Int} (hr : -8 ≤ right ∧ right ≤ 111) :
    ∃ width, barWidth right = some width ∧ 0 ≤ width ∧ width ≤ 102 := by
  unfold barWidth barLeft
  split
  · obtain ⟨room, hroom⟩ := Int.eq_ofNat_of_zero_le (show 0 ≤ right - 9 by omega)
    have hsub : sub right 9 = some (room : Int) := by
      rw [← hroom]
      exact int_of_fits ⟨by omega, by omega⟩
    have hdiv : div (room : Int) 6 = some ((room / 6 : Nat) : Int) :=
      div_nat (b := 6) (by omega) (by omega)
    rw [hsub]
    exact ⟨_, hdiv, by omega, by omega⟩
  · exact ⟨0, rfl, by omega, by omega⟩

/-- Where a bar begins, or the one before it ends. -/
theorem barEdge_some {width index : Int} (hw : 0 ≤ width ∧ width ≤ 102)
    (hi : 0 ≤ index ∧ index ≤ 6) :
    mul index width = some (index * width) ∧
      add barLeft (index * width) = some (barLeft + index * width) := by
  have hlow : 0 ≤ index * width := Int.mul_nonneg hi.1 hw.1
  have hhigh : index * width ≤ 6 * 102 := Int.mul_le_mul hi.2 hw.2 hw.1 (by omega)
  unfold barLeft
  exact ⟨int_of_fits ⟨by omega, by omega⟩, int_of_fits ⟨by omega, by omega⟩⟩

theorem barEnd_some (right : Int) {width index : Int} (hw : 0 ≤ width ∧ width ≤ 102)
    (hi : 0 ≤ index ∧ index < 6) : ∃ e, barEnd right width index = some e := by
  unfold barEnd
  split
  · exact ⟨right, rfl⟩
  · have hnext : add index 1 = some (index + 1) := int_of_fits ⟨by omega, by omega⟩
    obtain ⟨hscaled, hend⟩ := barEdge_some hw (show 0 ≤ index + 1 ∧ index + 1 ≤ 6 by omega)
    rw [hnext]
    simp only [Option.bind_eq_bind, Option.bind_some, hscaled]
    exact ⟨_, hend⟩

theorem colorBars_drawn (hc : c.Sized w h) : Drawn (n := w * h) c.colorBars := by
  obtain ⟨right, hright, hr0, hr1⟩ := barRight_some hc
  obtain ⟨width, hwidth, hw0, hw1⟩ := barWidth_some ⟨hr0, hr1⟩
  refine .bind hright (.bind hwidth (.span fun index hi hi' => ?_))
  obtain ⟨e, he⟩ := barEnd_some right ⟨hw0, hw1⟩ ⟨hi, hi'⟩
  obtain ⟨hscaled, hleft⟩ := barEdge_some ⟨hw0, hw1⟩ ⟨hi, hi'.le⟩
  exact .bind hscaled (.bind hleft (.bind he (hc.rectangle _ _ _ _ _)))

theorem analytical_some (hm : Measured c.sequence) : ∃ shown, c.analytical = some shown := by
  obtain ⟨k, hk⟩ := kibibytes_some hm.lastJpegBytes
  have hfps := hm.fpsTenths
  obtain ⟨fps, hfps⟩ :=
    tenthsText_some (show Checked.Fits c.sequence.fpsTenths from ⟨by omega, by omega⟩)
  unfold analytical
  simp only [hk, hfps, Option.bind_eq_bind, Option.bind_some]
  split <;> exact ⟨_, rfl⟩

theorem statusTexts_drawn (hc : c.Sized w h) (hm : Measured c.sequence) (outstanding : Int)
    (imbalance : Bool) : Drawn (n := w * h) (c.statusTexts outstanding imbalance) := by
  obtain ⟨shown, hshown⟩ := analytical_some hm
  exact .draws ⟨hc.text (by decide) _ _, hc.text (by decide) _ _, hc.text (by decide) _ _,
    .bind hshown (hc.text (by decide) _ _)⟩

theorem border_drawn (hc : c.Sized w h) : Drawn (n := w * h) c.border := by
  have hw := hc.width
  have hleft : ∃ left, c.borderLeft = some left := by
    unfold borderLeft
    rw [hc.screenWidth]
    split
    · exact ⟨118, rfl⟩
    · exact ⟨_, int_of_fits ⟨by omega, by omega⟩⟩
  obtain ⟨left, hleft⟩ := hleft
  exact .draws ⟨hc.rectangle _ _ _ _ _, hc.rectangle _ _ _ _ _, hc.rectangle _ _ _ _ _,
    .bind hleft (hc.rectangle _ _ _ _ _)⟩

/-- The place of the sweeping bar can be computed. -/
def SweepFits (width frameNumber : Int) : Prop :=
  4 < width ∨ width < 4 ∧
    (UInt32.ofInt frameNumber * 7 % UInt32.ofInt (width - 4)).toInt32.toInt ≤ 2147483643

theorem toNat_ofInt (z : Int) : (UInt32.ofInt z).toNat = (z % 4294967296).toNat := by
  rw [UInt32.ofInt, UInt32.toNat_ofNat']
  exact Nat.mod_eq_of_lt (by omega)

theorem ofInt_ne_zero {z : Int} (hz : z % 4294967296 ≠ 0) : UInt32.ofInt z ≠ 0 := by
  intro h
  have := congrArg UInt32.toNat h
  rw [toNat_ofInt, UInt32.toNat_zero] at this
  omega

/-- A remainder by a small divisor is small as an `int` too. -/
theorem remainder_small {k : Int} (hk : 0 < k ∧ k ≤ 116) (v : UInt32) :
    0 ≤ (v % UInt32.ofInt k).toInt32.toInt ∧ (v % UInt32.ofInt k).toInt32.toInt ≤ 116 := by
  have hd : (UInt32.ofInt k).toNat = k.toNat := by
    rw [toNat_ofInt, Int.emod_eq_of_lt (by omega) (by omega)]
  have hlt : (v % UInt32.ofInt k).toNat < k.toNat := by
    rw [UInt32.toNat_mod, hd]
    exact Nat.mod_lt _ (by omega)
  have hcast : (v % UInt32.ofInt k).toInt32.toInt = (v % UInt32.ofInt k).toNat :=
    BitVec.toInt_eq_toNat_of_lt (show 2 * (v % UInt32.ofInt k).toNat < 2 ^ 32 by omega)
  omega

theorem sweepOffset_some (c : Scene) {k : Int} (hk : k % 4294967296 ≠ 0) :
    c.sweepOffset k = some (UInt32.ofInt c.frameNumber * 7 % UInt32.ofInt k).toInt32.toInt :=
  if_neg (ofInt_ne_zero hk)

/-- On a screen wider than four pixels the bar is near the left edge. -/
theorem sweep_wide (hc : c.Sized w h) (hw : 4 < w) :
    ∃ k offset, c.sweepWidth = some k ∧ c.sweepOffset k = some offset ∧ 0 ≤ offset ∧
      offset ≤ 116 := by
  have hmax := hc.width
  unfold sweepWidth
  rw [hc.screenWidth]
  split
  · have hsmall := remainder_small (k := 116) (by omega) (UInt32.ofInt c.frameNumber * 7)
    exact ⟨116, _, rfl, sweepOffset_some c (by omega), hsmall⟩
  · have hsmall := remainder_small (k := (w : Int) - 4) (by omega)
      (UInt32.ofInt c.frameNumber * 7)
    exact ⟨_, _, int_of_fits ⟨by omega, by omega⟩, sweepOffset_some c (by omega), hsmall⟩

/-- On one narrower than four, the divisor wraps around. -/
theorem sweep_narrow (hc : c.Sized w h) (hw : w < 4) :
    c.sweepWidth = some (c.width - 4) ∧ c.sweepOffset (c.width - 4) =
      some (UInt32.ofInt c.frameNumber * 7 % UInt32.ofInt (c.width - 4)).toInt32.toInt := by
  have hmin := hc.width
  have hnot : ¬ c.width > 120 := by rw [hc.screenWidth]; omega
  refine ⟨?_, sweepOffset_some c (by rw [hc.screenWidth]; omega)⟩
  rw [sweepWidth, if_neg hnot, hc.screenWidth]
  exact int_of_fits ⟨by omega, by omega⟩

theorem sweepBar_drawn (hc : c.Sized w h) (hs : SweepFits c.width c.frameNumber) :
    Drawn (n := w * h) c.sweepBar := by
  rcases hs with hwide | ⟨hnarrow, hfits⟩
  · rw [hc.screenWidth] at hwide
    obtain ⟨k, offset, hk, hoffset, h0, h1⟩ := sweep_wide hc (by omega)
    exact .bind hk (.bind hoffset (.bind (int_of_fits ⟨by omega, by omega⟩)
      (.bind (int_of_fits ⟨by omega, by omega⟩) (hc.rectangle _ _ _ _ _))))
  · obtain ⟨hk, hoffset⟩ := sweep_narrow hc (by rw [hc.screenWidth] at hnarrow; omega)
    generalize (UInt32.ofInt c.frameNumber * 7 % UInt32.ofInt (c.width - 4)).toInt32 = offset at *
    have hmin := (fits_int32 offset).1
    exact .bind hk (.bind hoffset (.bind (int_of_fits ⟨by omega, by omega⟩)
      (.bind (int_of_fits ⟨by omega, by omega⟩) (hc.rectangle _ _ _ _ _))))

theorem sweepBar_none (hc : c.Sized w h) (hs : ¬ SweepFits c.width c.frameNumber)
    (pixels : Canvas (w * h)) : c.sweepBar pixels = none := by
  unfold SweepFits at hs
  by_cases hfour : w = 4
  · have hk : c.sweepWidth = some 0 := by
      rw [sweepWidth, hc.screenWidth, hfour]
      rfl
    have hoffset : c.sweepOffset 0 = none := by
      rw [sweepOffset]
      exact if_pos (by decide)
    simp [sweepBar, hk, hoffset]
  · rw [hc.screenWidth] at hs
    obtain ⟨hk, hoffset⟩ := sweep_narrow hc (by omega)
    rw [hc.screenWidth] at hk hoffset
    unfold sweepBar
    simp only [hk, hoffset, Option.bind_eq_bind, Option.bind_some]
    generalize (UInt32.ofInt c.frameNumber * 7 % UInt32.ofInt ((w : Int) - 4)).toInt32 = offset at *
    by_cases hsum : Checked.Fits (2 + offset.toInt)
    · have hbig : ¬ Checked.Fits (2 + offset.toInt + 2) := fun hfits => hs (.inr ⟨by omega, by
        have := hfits.2
        omega⟩)
      rw [show add 2 offset.toInt = some _ from int_of_fits hsum, Option.bind_some,
        show add (2 + offset.toInt) 2 = none from if_neg hbig]
      rfl
    · rw [show add 2 offset.toInt = none from if_neg hsum]
      rfl

/-! ## The whole screen -/

theorem measured_calculate {u : Update} (hr : Checked.Fits u.receivedFrames)
    (hl : Checked.Fits u.releasedFrames) :
    Measured (calculateSequenceProbeMetrics u) := by
  have hpos (z : Int) : 0 ≤ Camera.SequenceMetrics.atLeastZero z := by
    unfold Camera.SequenceMetrics.atLeastZero
    split <;> omega
  have hmax {z : Int} (hz : Checked.Fits z) : Camera.SequenceMetrics.atLeastZero z ≤ 2147483647 := by
    unfold Camera.SequenceMetrics.atLeastZero
    have := hz.2
    split <;> omega
  refine ⟨⟨hpos _, hmax hr⟩, ⟨hpos _, hmax hl⟩, ?_, ?_⟩
  · have hbytes := hpos u.lastJpegBytes
    simp only [calculateSequenceProbeMetrics]
    split <;> omega
  · have hframes := hpos u.receivedFrames
    simp only [calculateSequenceProbeMetrics]
    split
    · rename_i htimes
      have hdiv := Int.ediv_nonneg (a := (Camera.SequenceMetrics.atLeastZero u.receivedFrames - 1)
        * 10000) (b := u.lastTimestampMs - u.firstTimestampMs) (by omega) (by omega)
      split <;> omega
    · omega

theorem outstanding_some (hm : Measured c.sequence) :
    sub c.sequence.receivedFrames c.sequence.releasedFrames =
      some (c.sequence.receivedFrames - c.sequence.releasedFrames) := by
  have hr := hm.received
  have hl := hm.released
  exact int_of_fits ⟨by omega, by omega⟩

/-- What is left of `renderDisplayProbe` once the screen is cleared. -/
theorem render_eq (hc : c.Sized w h) (hm : Measured c.sequence) (pixels : Canvas (w * h)) :
    ∃ (outstanding : Int) (cleared : Canvas (w * h)), c.renderDisplayProbe pixels =
      (c.page outstanding cleared).map fun pixels => (true, pixels) := by
  have hw := hc.width
  have hh := hc.height
  obtain ⟨cleared, hcleared⟩ := hc.rectangle 0 0 c.width c.height background pixels
  have hsize : ¬ (c.width ≤ 0 ∨ c.height ≤ 0) := by
    rw [hc.screenWidth, hc.screenHeight]
    omega
  refine ⟨c.sequence.receivedFrames - c.sequence.releasedFrames, cleared, ?_⟩
  unfold renderDisplayProbe
  rw [if_neg hsize, hcleared]
  simp only [Option.bind_eq_bind, Option.bind_some, outstanding_some hm]
  exact (Option.map_eq_bind ..).symm

theorem idlePage_drawn (hc : c.Sized w h) (hm : Measured c.sequence)
    (hs : SweepFits c.width c.frameNumber) (outstanding : Int) (imbalance : Bool) :
    Drawn (n := w * h) (c.idlePage outstanding imbalance) :=
  .draws ⟨colorBars_drawn hc, statusTexts_drawn hc hm _ _, sweepBar_drawn hc hs, border_drawn hc⟩

theorem idlePage_none (hc : c.Sized w h) (hs : ¬ SweepFits c.width c.frameNumber)
    (outstanding : Int) (imbalance : Bool) (pixels : Canvas (w * h)) :
    c.idlePage outstanding imbalance pixels = none :=
  draws_none (d := c.sweepBar) (by simp) (sweepBar_none hc hs) pixels

/-- Before the first frame nothing is drawn at all where the bar has no place. -/
theorem render_none (hc : c.Sized w h) (hm : Measured c.sequence)
    (hidle : (c.filter.hasFrame || c.galleryScene) = false)
    (hs : ¬ SweepFits c.width c.frameNumber) (pixels : Canvas (w * h)) :
    c.renderDisplayProbe pixels = none := by
  obtain ⟨outstanding, cleared, heq⟩ := render_eq hc hm pixels
  rw [heq, page, hidle]
  simp only [Bool.false_eq_true, if_false, idlePage_none hc hs, Option.map_none]

theorem render_drawn (hc : c.Sized w h) (hf : c.filter.InRange) (hm : Measured c.sequence)
    (hs : (c.filter.hasFrame || c.galleryScene) = true ∨ SweepFits c.width c.frameNumber)
    (pixels : Canvas (w * h)) :
    ∃ pixels', c.renderDisplayProbe pixels = some (true, pixels') := by
  obtain ⟨outstanding, cleared, heq⟩ := render_eq hc hm pixels
  have hpage : Drawn (n := w * h) (c.page outstanding) := by
    unfold page
    split
    · exact framePage_drawn hc hf hm _ _
    · rename_i hidle
      exact idlePage_drawn hc hm (hs.resolve_left hidle) _ _
  obtain ⟨pixels', hdrawn⟩ := hpage cleared
  exact ⟨pixels', by rw [heq, hdrawn, Option.map_some]⟩

/-- **The screen is drawn without undefined behaviour exactly if it shows a frame or
the gallery, or the bar on its first page can be placed.** -/
theorem renderDisplayProbe_iff (hc : c.Sized w h) (hf : c.filter.InRange) {u : Update}
    (hr : Checked.Fits u.receivedFrames) (hl : Checked.Fits u.releasedFrames)
    (hu : c.sequence = calculateSequenceProbeMetrics u) (pixels : Canvas (w * h)) :
    (∃ pixels', c.renderDisplayProbe pixels = some (true, pixels')) ↔
      c.filter.hasFrame = true ∨ c.galleryScene = true ∨ SweepFits c.width c.frameNumber := by
  have hm : Measured c.sequence := hu ▸ measured_calculate hr hl
  rw [← or_assoc, ← Bool.or_eq_true]
  constructor
  · rintro ⟨pixels', hrun⟩
    by_contra hnot
    obtain ⟨hpage, hs⟩ := not_or.1 hnot
    rw [render_none hc hm (Bool.eq_false_iff.2 hpage) hs] at hrun
    cases hrun
  · exact fun hs => render_drawn hc hf hm hs pixels

/-! ## Two screens -/

/-- The metrics before the first frame. -/
def firstMetrics : FilterProbeMetrics :=
  { hasFrame := false, decodeError := false, droppedFrames := 0, decodeFailures := 0, decodeMs := 0
    filterMs := 0, processedFpsTenths := 0, selectedPreset := 0, parameterIndex := 0
    parameterValue := 100, scene := 0, controlsVisible := true, compare := false, favorite := false
    focusActive := false, photoStatus := 0, photoSavedCount := 0, photoFailedCount := 0
    galleryPhotoCount := 0, galleryIndex := 0, galleryPreset := 0, galleryHasThumbnail := false
    photoStorageState := 7, photoStorageAttempts := 0, photoWriteStage := 0, photoWriteError := 0 }

def noSequence : Update := ⟨0, 0, 0, 0, 0, 0⟩

def firstScene (width height : Int) : Scene :=
  { width, height, frameNumber := 1, sequence := calculateSequenceProbeMetrics noSequence
    original := none, filtered := none, galleryThumbnail := none, filter := firstMetrics }

theorem firstMetrics_inRange : firstMetrics.InRange := by
  refine ⟨?_, by decide, by decide, by decide, .inl rfl⟩
  exact ⟨by decide, by decide⟩

theorem renderDisplayProbe_screen :
    ∃ pixels', (firstScene 240 180).renderDisplayProbe (⟨fun _ => 0⟩ : Canvas (240 * 180)) =
      some (true, pixels') :=
  have hc : (firstScene 240 180).Sized 240 180 := ⟨⟨by omega, by omega⟩, rfl, rfl⟩
  (renderDisplayProbe_iff hc firstMetrics_inRange (u := noSequence) ⟨by decide, by decide⟩
    ⟨by decide, by decide⟩ rfl _).2 (.inr (.inr (.inl (by decide))))

/-- A screen of four columns divides by zero. -/
theorem four_columns_undefined :
    (firstScene 4 4).Sized 4 4 ∧ (firstScene 4 4).filter.InRange ∧
      ∀ pixels : Canvas (4 * 4), (firstScene 4 4).renderDisplayProbe pixels = none := by
  have hc : (firstScene 4 4).Sized 4 4 := ⟨⟨by omega, by omega⟩, rfl, rfl⟩
  have hs : ¬ SweepFits (firstScene 4 4).width (firstScene 4 4).frameNumber := by
    rintro (h | h)
    · exact absurd h (by decide)
    · exact absurd h.1 (by decide)
  exact ⟨hc, firstMetrics_inRange, render_none hc
    (measured_calculate ⟨by decide, by decide⟩ ⟨by decide, by decide⟩) (by decide) hs⟩

end Scene

end RetroLens.Display
