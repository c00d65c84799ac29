import RetroLens.Jpeg.Scan

/-!
# The pixels of an MCU

A block of a reduced decode is one sample. `samples` are those of an MCU; what
`pjpeg_decode_mcu` makes of the buffers follows from them and from what the
buffers held (`decodeBlocks_samples`). It writes the first byte of each block
that `picojpeg.h` documents and leaves the others (`paint_fillBuffers`), so that
the calls for a whole JPEG return what `JpegBlocks` says they do
(`picoJpeg_blocks`).
-/

namespace RetroLens.Jpeg

open Text Bits Checked Comps RetroLens.Core

/-- The samples of the blocks, as they are decoded. -/
def samples : List Nat → Pj (List UInt8)
  | [] => pure []
  | componentID :: org => do
    decodeCoeffs componentID
    let s ← Comp.get
    let rest ← samples org
    pure (descaled (s.coeffBuf 0) :: rest)

/-- The buffers once samples are in them, those of block `mcuBlock` and the following. -/
def paint (reduce : UInt8) (scan : ScanType) : Nat → List UInt8 → Mcu → Mcu
  | _, [], buf => buf
  | mcuBlock, c :: cs, buf =>
    paint reduce scan (mcuBlock + 1) cs (transformBlockReduce reduce scan mcuBlock c buf)

def Pico.withMcu (s : Pico) (buf : Mcu) : Pico := { s with mcuBuf := buf }

/-- Everything but the buffers is the same. -/
def SameButMcu (s s' : Pico) : Prop := s.withMcu s'.mcuBuf = s'

variable {s s' s₁ s₂ : Pico} {buf : Mcu} {α : Type} {n : Nat}

theorem sameButMcu_with (s : Pico) (buf : Mcu) : SameButMcu s (s.withMcu buf) := rfl

theorem sameButMcu_blind : Blind SameButMcu where
  reader h := by rw [← h]; rfl
  tables h := by rw [← h]; rfl
  next h reader := by
    rw [SameButMcu, ← h]
    rfl

theorem decodeDC_sim (componentID : Nat) :
    Sim SameButMcu (decodeDC componentID) (decodeDC componentID) := by
  refine Sim.get fun s s' h => ?_
  rw [SameButMcu] at h
  rw [← h]
  refine (decodeSymbol_sim sameButMcu_blind _).bind fun symbol =>
    (receive_sim sameButMcu_blind _).bind fun x => Sim.modify fun u u' hu => ?_
  rw [SameButMcu] at hu ⊢
  rw [← hu]
  rfl

theorem skipACs_sim (t : Fin 4) (n k : Nat) :
    Sim SameButMcu (skipACs t n k) (skipACs t n k) := by
  induction n generalizing k with
  | zero => exact Sim.pure ()
  | succ n ih =>
    refine Sim.ite (fun _ => ?_) fun _ => Sim.pure ()
    refine (decodeSymbol_sim sameButMcu_blind t).bind fun _ =>
      (receive_sim sameButMcu_blind _).bind fun _ => ?_
    refine Sim.ite (fun _ => ?_) fun _ => ?_
    · exact Sim.ite (fun _ => (Sim.check _ _).bind fun _ => ih _) fun _ => ih _
    · exact Sim.ite (fun _ => (Sim.check _ _).bind fun _ => ih _) fun _ => Sim.pure ()

theorem decodeCoeffs_sim (componentID : Nat) :
    Sim SameButMcu (decodeCoeffs componentID) (decodeCoeffs componentID) := by
  refine (decodeDC_sim componentID).bind fun _ => Sim.get fun s s' h => ?_
  have hscan : s.scan = s'.scan := by rw [← h]; rfl
  rw [hscan]
  exact skipACs_sim _ 63 1

theorem samples_sim (org : List Nat) : Sim SameButMcu (samples org) (samples org) := by
  induction org with
  | nil => exact Sim.pure []
  | cons componentID org ih =>
    refine (decodeCoeffs_sim componentID).bind fun _ => Sim.get fun s s' h => ?_
    have hcoeff : s.coeffBuf 0 = s'.coeffBuf 0 := by rw [← h]; rfl
    rw [hcoeff]
    exact ih.bind fun rest => Sim.pure _

theorem nextChar_sim : Sim SameButMcu nextChar nextChar := by
  intro s s' h
  rw [SameButMcu] at h
  rw [← h]
  exact .done _ rfl

theorem seekRestart_sim (i : Nat) : Sim SameButMcu (seekRestart i) (seekRestart i) := by
  induction i with
  | zero => exact Sim.fail _
  | succ i ih => exact nextChar_sim.bind fun _ => Sim.ite (fun _ => Sim.pure _) fun _ => ih

theorem skipRestart_sim (i : Nat) : Sim SameButMcu (skipRestart i) (skipRestart i) := by
  induction i with
  | zero => exact Sim.fail _
  | succ i ih => exact nextChar_sim.bind fun _ => Sim.ite (fun _ => Sim.pure _) fun _ => ih

/-- A change that neither reads nor writes the buffers. -/
theorem modify_sim {g : Pico → Pico} (h : ∀ s b, g (s.withMcu b) = (g s).withMcu b) :
    Sim SameButMcu (Comp.modify g : Pj Unit) (Comp.modify g) := by
  refine Sim.modify fun s s' hs => ?_
  rw [SameButMcu] at hs ⊢
  rw [← hs, h]
  rfl

theorem processRestart_sim : Sim SameButMcu processRestart processRestart := by
  refine (seekRestart_sim _).bind fun i => (skipRestart_sim i).bind fun c =>
    Sim.get fun s s' h => ?_
  have hrestarts : s.restarts = s'.restarts := by rw [← h]; rfl
  rw [hrestarts]
  exact (Sim.check _ _).bind fun _ => modify_sim fun _ _ => rfl

theorem countRestarts_sim : Sim SameButMcu countRestarts countRestarts := by
  refine Sim.get fun s s' h => ?_
  have hrestarts : s.restarts = s'.restarts := by rw [← h]; rfl
  have htake : Sim SameButMcu takeRestart takeRestart := modify_sim fun _ _ => rfl
  rw [hrestarts]
  exact Sim.ite (fun _ => Sim.ite (fun _ => processRestart_sim.bind fun _ => htake)
    fun _ => htake) fun _ => Sim.pure ()

theorem countMcu_sim : Sim SameButMcu countMcu countMcu := by
  refine modify_sim fun s b => ?_
  show (if s.numMCUSRemainingX - 1 = 0 then _ else _) = _
  split <;> rfl

/-! ## The blocks of an MCU -/

/-- A computation that is blind to the buffers comes out as it does with others in them. -/
theorem done_with {m : Pj α} {a : α} (hm : Sim SameButMcu m m) (h : m s = .done a s₁)
    (buf : Mcu) : ∃ b, m (s.withMcu buf) = .done a (s₁.withMcu b) := by
  have hrel := hm s (s.withMcu buf) (sameButMcu_with s buf)
  rw [h] at hrel
  generalize m (s.withMcu buf) = o at hrel ⊢
  cases hrel with
  | done _ hs => exact ⟨_, by rw [hs]⟩

theorem fail_with {m : Pj α} {e : Status} (hm : Sim SameButMcu m m) (h : m s = .fail e s₁)
    (buf : Mcu) : ∃ b, m (s.withMcu buf) = .fail e (s₁.withMcu b) := by
  have hrel := hm s (s.withMcu buf) (sameButMcu_with s buf)
  rw [h] at hrel
  generalize m (s.withMcu buf) = o at hrel ⊢
  cases hrel with
  | fail _ hs => exact ⟨_, by rw [hs]⟩

/-- The blocks of an MCU are decoded where their samples are, and then painted. -/
theorem decodeBlocks_samples (org : List Nat) (b : Nat) (hs : s.TablesSafe) :
    (∀ cs s₁, samples org s = .done cs s₁ → decodeBlocks org b s =
      .done () (s₁.withMcu (paint s.reduce s.layout.scanType b cs s.mcuBuf))) ∧
    (∀ e s₁, samples org s = .fail e s₁ → ∃ b', decodeBlocks org b s =
      .fail e (s₁.withMcu b')) := by
  induction org generalizing b s with
  | nil =>
    refine ⟨fun cs s₁ h => ?_, fun e s₁ h => by cases h⟩
    cases h
    rfl
  | cons componentID org ih =>
    have hcoeffs := decodeCoeffs_decodes componentID s hs
    cases hout : decodeCoeffs componentID s with
    | stop why =>
      unfold Ensures at hcoeffs
      rw [hout] at hcoeffs
      exact hcoeffs.elim
    | fail e s₂ =>
      simp only [samples, decodeBlocks, decodeBlock, bind_apply, hout, Outcome.bind]
      refine ⟨fun cs s₁ h => (by cases h), fun e' s₁ h => ⟨s₂.mcuBuf, ?_⟩⟩
      cases h
      rfl
    | done value s₂ =>
      obtain ⟨hsafe, hsame⟩ := hcoeffs.done hout
      have hblocks : decodeBlocks (componentID :: org) b s = decodeBlocks org (b + 1)
          (s₂.withMcu (transformBlockReduce s.reduce s.layout.scanType b
            (descaled (s₂.coeffBuf 0)) s.mcuBuf)) := by
        rw [← hsame.reduce, ← hsame.layout, ← hsame.mcuBuf]
        simp only [decodeBlocks, decodeBlock, bind_apply, hout, Outcome.bind]
        rfl
      generalize hbuf : transformBlockReduce s.reduce s.layout.scanType b
        (descaled (s₂.coeffBuf 0)) s.mcuBuf = buf at hblocks
      obtain ⟨ihdone, ihfail⟩ := ih (s := s₂.withMcu buf) (b + 1) hsafe
      have hsamples : samples (componentID :: org) s =
          (samples org s₂).bind fun rest => pure (descaled (s₂.coeffBuf 0) :: rest) := by
        simp only [samples, bind_apply, hout, Outcome.bind]
        rfl
      rw [hsamples, hblocks]
      cases hrest : samples org s₂ with
      | stop why => exact ⟨fun cs s₁ h => (by cases h), fun e s₁ h => (by cases h)⟩
      | fail e s₃ =>
        refine ⟨fun cs s₁ h => (by cases h), fun e' s₁ h => ?_⟩
        cases h
        obtain ⟨b', hrest'⟩ := fail_with (samples_sim org) hrest buf
        obtain ⟨b'', hfail⟩ := ihfail e _ hrest'
        exact ⟨b'', hfail⟩
      | done rest s₃ =>
        refine ⟨fun cs s₁ h => ?_, fun e s₁ h => (by cases h)⟩
        cases h
        obtain ⟨b', hrest'⟩ := done_with (samples_sim org) hrest buf
        rw [ihdone rest _ hrest', paint, hbuf]
        show Outcome.done () (s₃.withMcu (paint s₂.reduce s₂.layout.scanType (b + 1) rest buf)) = _
        rw [hsame.reduce, hsame.layout]

theorem samples_length (org : List Nat) {cs : List UInt8} (h : samples org s = .done cs s₁) :
    cs.length = org.length := by
  induction org generalizing s s₁ cs with
  | nil =>
    cases h
    rfl
  | cons componentID org ih =>
    rw [samples] at h
    obtain ⟨_, s₂, -, h⟩ := bind_eq_done.1 h
    obtain ⟨_, s₂', -, h⟩ := bind_eq_done.1 h
    obtain ⟨rest, s₃, hrest, h⟩ := bind_eq_done.1 h
    cases h
    rw [List.length_cons, List.length_cons, ih hrest]

/-! ## What is painted -/

/-- The pixel of a block of an MCU with these samples: behind the luminance come the two colour
differences. -/
def blockOf (scan : ScanType) (cs : List UInt8) (col row : Nat) : Pixel :=
  let y := cs.getD (row * (scan.mcuWidth / 8) + col) 0
  let cb := cs.getD (lumaOffsets scan).length 0
  let cr := cs.getD ((lumaOffsets scan).length + 1) 0
  if scan = .grayscale then ⟨y, y, y⟩
  else
    ⟨addAndClamp y (crR cr), subAndClamp (subAndClamp y (cbG cb)) (crG cr),
      addAndClamp y (cbB cb)⟩

theorem documented_iff (scan : ScanType) (offset : Nat) :
    documented scan offset = true ↔ offset ∈ lumaOffsets scan := by
  simp only [documented, Bool.and_eq_true, decide_eq_true_eq]
  cases scan <;>
    simp only [ScanType.mcuWidth, ScanType.mcuHeight, lumaOffsets, List.mem_cons,
      List.not_mem_nil, or_false] <;>
    omega

/-- A colour difference reaches each block of the luminance once. -/
theorem addCb_foldl (c : UInt8) {offsets : List Nat} (hnodup : offsets.Nodup) (buf : Mcu) :
    (offsets.foldl (addCb c) buf).r = buf.r ∧ ∀ offset,
      (offsets.foldl (addCb c) buf).g offset =
          (if offset ∈ offsets then subAndClamp (buf.g offset) (cbG c) else buf.g offset) ∧
        (offsets.foldl (addCb c) buf).b offset =
          if offset ∈ offsets then addAndClamp (buf.b offset) (cbB c) else buf.b offset := by
  induction offsets generalizing buf with
  | nil => exact ⟨rfl, fun offset => ⟨rfl, rfl⟩⟩
  | cons o offsets ih =>
    obtain ⟨ho, hnodup⟩ := List.nodup_cons.1 hnodup
    obtain ⟨hr, hrest⟩ := ih hnodup (addCb c buf o)
    refine ⟨hr, fun offset => ?_⟩
    obtain ⟨hg, hb⟩ := hrest offset
    rw [List.foldl_cons, hg, hb]
    by_cases heq : offset = o
    · subst heq
      simp only [if_neg ho, List.mem_cons, true_or, if_true, addCb, Function.update_self, and_self]
    · simp only [addCb, Function.update_of_ne heq, List.mem_cons, heq, false_or, and_self]

theorem addCr_foldl (c : UInt8) {offsets : List Nat} (hnodup : offsets.Nodup) (buf : Mcu) :
    (offsets.foldl (addCr c) buf).b = buf.b ∧ ∀ offset,
      (offsets.foldl (addCr c) buf).r offset =
          (if offset ∈ offsets then addAndClamp (buf.r offset) (crR c) else buf.r offset) ∧
        (offsets.foldl (addCr c) buf).g offset =
          if offset ∈ offsets then subAndClamp (buf.g offset) (crG c) else buf.g offset := by
  induction offsets generalizing buf with
  | nil => exact ⟨rfl, fun offset => ⟨rfl, rfl⟩⟩
  | cons o offsets ih =>
    obtain ⟨ho, hnodup⟩ := List.nodup_cons.1 hnodup
    obtain ⟨hb, hrest⟩ := ih hnodup (addCr c buf o)
    refine ⟨hb, fun offset => ?_⟩
    obtain ⟨hr, hg⟩ := hrest offset
    rw [List.foldl_cons, hr, hg]
    by_cases heq : offset = o
    · subst heq
      simp only [if_neg ho, List.mem_cons, true_or, if_true, addCr, Function.update_self, and_self]
    · simp only [addCr, Function.update_of_ne heq, List.mem_cons, heq, false_or, and_self]

/-- The blocks of the luminance, written one after the other. -/
def setLumas (buf : Mcu) (offsets : List Nat) (cs : List UInt8) : Mcu :=
  (offsets.zip cs).foldl (fun buf p => setLuma p.2 buf p.1) buf

theorem paint_luma {scan : ScanType} (hscan : scan ≠ .grayscale) (ys : List UInt8)
    (cs : List UInt8) (b : Nat) (hb : b + ys.length = (lumaOffsets scan).length) (buf : Mcu) :
    paint 1 scan b (ys ++ cs) buf =
      paint 1 scan (b + ys.length) cs (setLumas buf ((lumaOffsets scan).drop b) ys) := by
  induction ys generalizing b buf with
  | nil =>
    rw [List.nil_append, List.length_nil, Nat.add_zero, setLumas, List.zip_nil_right]
    rfl
  | cons y ys ih =>
    rw [List.length_cons] at hb
    have hlt : b < (lumaOffsets scan).length := by omega
    have hblock : transformBlockReduce 1 scan b y buf = setLuma y buf (lumaOffsets scan)[b] := by
      have htwo : ¬ (1 : UInt8) = 2 := by decide
      simp only [transformBlockReduce, if_neg htwo, if_neg hscan, List.getElem?_eq_getElem hlt]
    rw [List.cons_append, paint, hblock, ih (b + 1) (by omega), List.length_cons,
      Nat.add_right_comm, Nat.add_assoc, List.drop_eq_getElem_cons hlt]
    rfl

theorem setLumas_at {offsets : List Nat} {ys : List UInt8} (hnodup : offsets.Nodup)
    (hlength : ys.length = offsets.length) (buf : Mcu) :
    (∀ i (hi : i < offsets.length), (setLumas buf offsets ys).r offsets[i] = ys.getD i 0 ∧
      (setLumas buf offsets ys).g offsets[i] = ys.getD i 0 ∧
      (setLumas buf offsets ys).b offsets[i] = ys.getD i 0) ∧
    ∀ offset ∉ offsets, (setLumas buf offsets ys).r offset = buf.r offset ∧
      (setLumas buf offsets ys).g offset = buf.g offset ∧
      (setLumas buf offsets ys).b offset = buf.b offset := by
  induction offsets generalizing ys buf with
  | nil => exact ⟨fun i hi => absurd hi (Nat.not_lt_zero i), fun offset _ => ⟨rfl, rfl, rfl⟩⟩
  | cons o offsets ih =>
    obtain ⟨y, ys, rfl⟩ : ∃ y ys', ys = y :: ys' := List.exists_cons_of_length_eq_add_one hlength
    obtain ⟨ho, hnodup⟩ := List.nodup_cons.1 hnodup
    obtain ⟨hin, hout⟩ := ih hnodup (Nat.succ.inj hlength) (setLuma y buf o)
    have hcons : setLumas buf (o :: offsets) (y :: ys) =
        setLumas (setLuma y buf o) offsets ys := rfl
    rw [hcons]
    refine ⟨fun i hi => ?_, fun offset hoffset => ?_⟩
    · cases i with
      | zero =>
        obtain ⟨hr, hg, hb⟩ := hout o ho
        rw [List.getElem_cons_zero, hr, hg, hb]
        simp only [setLuma, Function.update_self, List.getD_cons_zero, and_self]
      | succ i =>
        rw [List.getElem_cons_succ, List.getD_cons_succ]
        exact hin i (Nat.lt_of_succ_lt_succ hi)
    · rw [List.mem_cons, not_or] at hoffset
      obtain ⟨hr, hg, hb⟩ := hout offset hoffset.2
      rw [hr, hg, hb]
      simp only [setLuma, Function.update_of_ne hoffset.1, and_self]

theorem lumaOffsets_nodup (scan : ScanType) : (lumaOffsets scan).Nodup := by
  cases scan <;> decide

/-- The blocks are numbered by rows. -/
theorem lumaOffsets_number (scan : ScanType) :
    ∀ i (hi : i < (lumaOffsets scan).length),
      (lumaOffsets scan)[i] / 128 * (scan.mcuWidth / 8) + (lumaOffsets scan)[i] % 128 / 64 = i := by
  cases scan <;> decide

theorem blockComps_length (scan : ScanType) :
    (blockComps scan).length =
      (lumaOffsets scan).length + if scan = .grayscale then 0 else 2 := by
  cases scan <;> decide

/-- The samples of a colour image, painted one after the other. -/
theorem paint_colour {scan : ScanType} (hscan : scan ≠ .grayscale) {ys : List UInt8}
    (cb cr : UInt8) (hys : ys.length = (lumaOffsets scan).length) (buf : Mcu) :
    paint 1 scan 0 (ys ++ [cb, cr]) buf = (lumaOffsets scan).foldl (addCr cr)
      ((lumaOffsets scan).foldl (addCb cb) (setLumas buf (lumaOffsets scan) ys)) := by
  have htwo : ¬ (1 : UInt8) = 2 := by decide
  have hnone : (lumaOffsets scan)[(lumaOffsets scan).length]? = none :=
    List.getElem?_eq_none (Nat.le_refl _)
  have hnone' : (lumaOffsets scan)[(lumaOffsets scan).length + 1]? = none :=
    List.getElem?_eq_none (Nat.le_succ _)
  have hne : ¬ (lumaOffsets scan).length + 1 = (lumaOffsets scan).length := by omega
  rw [paint_luma hscan ys [cb, cr] 0 (by omega), Nat.zero_add, hys, List.drop_zero]
  simp only [paint, transformBlockReduce, if_neg htwo, if_neg hscan, hnone, hnone', if_true,
    if_neg hne]

/-- The pixel of a block is made of its own luminance and the colour differences of the MCU. -/
theorem paint_pixel {scan : ScanType} (hscan : scan ≠ .grayscale) {ys : List UInt8}
    (cb cr : UInt8) (hys : ys.length = (lumaOffsets scan).length) (buf : Mcu) (offset : Nat) :
    (paint 1 scan 0 (ys ++ [cb, cr]) buf).pixel offset =
      if offset ∈ lumaOffsets scan then
        blockOf scan (ys ++ [cb, cr]) (offset % 128 / 64) (offset / 128)
      else buf.pixel offset := by
  have hnodup := lumaOffsets_nodup scan
  obtain ⟨hin, hout⟩ := setLumas_at hnodup hys buf
  obtain ⟨hcbr, hcb⟩ := addCb_foldl cb hnodup (setLumas buf (lumaOffsets scan) ys)
  obtain ⟨hcrb, hcr⟩ := addCr_foldl cr hnodup
    ((lumaOffsets scan).foldl (addCb cb) (setLumas buf (lumaOffsets scan) ys))
  obtain ⟨hr, hg⟩ := hcr offset
  obtain ⟨hg', hb'⟩ := hcb offset
  rw [Mcu.pixel, paint_colour hscan cb cr hys, hr, hg, hcrb, hcbr, hg', hb']
  by_cases hmem : offset ∈ lumaOffsets scan
  · have hgetb : (ys ++ [cb, cr]).getD (lumaOffsets scan).length 0 = cb := by
      rw [List.getD_append_right _ _ _ _ (by omega), hys, Nat.sub_self]
      rfl
    have hgetr : (ys ++ [cb, cr]).getD ((lumaOffsets scan).length + 1) 0 = cr := by
      rw [List.getD_append_right _ _ _ _ (by omega), hys, Nat.add_sub_cancel_left]
      rfl
    simp only [if_pos hmem]
    obtain ⟨i, hi, rfl⟩ := List.getElem_of_mem hmem
    obtain ⟨hyr, hyg, hyb⟩ := hin i hi
    have hy : (ys ++ [cb, cr]).getD i 0 = ys.getD i 0 := List.getD_append _ _ _ _ (by omega)
    simp only [hyr, hyg, hyb, hy, blockOf, lumaOffsets_number scan i hi, hgetb, hgetr,
      if_neg hscan]
  · obtain ⟨hyr, hyg, hyb⟩ := hout offset hmem
    simp only [if_neg hmem, hyr, hyg, hyb, Mcu.pixel]

/-- **What an MCU leaves in the buffers** is its blocks where they belong, and the rest as it
was. -/
theorem paint_fillBuffers (scan : ScanType) {cs : List UInt8}
    (hlength : cs.length = (blockComps scan).length) (buf : Mcu) :
    paint 1 scan 0 cs buf = fillBuffers scan (blockOf scan cs) buf := by
  by_cases hscan : scan = .grayscale
  · subst hscan
    obtain ⟨c, rfl⟩ : ∃ c, cs = [c] := List.length_eq_one_iff.1 hlength
    rw [fillBuffers_grayscale]
    show ({ buf with r := Function.update buf.r 0 c } : Mcu) = _
    congr 1
    funext offset
    by_cases h0 : offset = 0
    · rw [h0, Function.update_self, if_pos rfl]
      rfl
    · rw [Function.update_of_ne h0, if_neg h0]
  rw [blockComps_length, if_neg hscan] at hlength
  obtain ⟨cb, cr, hdrop⟩ : ∃ cb cr, cs.drop (lumaOffsets scan).length = [cb, cr] :=
    List.length_eq_two.1 (by rw [List.length_drop]; omega)
  have hcs : cs = cs.take (lumaOffsets scan).length ++ [cb, cr] := by
    rw [← hdrop, List.take_append_drop]
  have hpixel (offset : Nat) : (paint 1 scan 0 cs buf).pixel offset =
      (fillBuffers scan (blockOf scan cs) buf).pixel offset := by
    rw [hcs, paint_pixel hscan cb cr (by rw [List.length_take]; omega), ← hcs]
    simp only [Mcu.pixel, fillBuffers, ne_eq, hscan, not_false_eq_true, true_and,
      documented_iff]
    split <;> rfl
  generalize paint 1 scan 0 cs buf = painted at hpixel ⊢
  generalize fillBuffers scan (blockOf scan cs) buf = filled at hpixel ⊢
  obtain ⟨r, g, b⟩ := painted
  obtain ⟨r', g', b'⟩ := filled
  simp only [Mcu.pixel, Pixel.mk.injEq] at hpixel
  congr 1
  · exact funext fun offset => (hpixel offset).1
  · exact funext fun offset => (hpixel offset).2.1
  · exact funext fun offset => (hpixel offset).2.2

/-! ## A whole JPEG -/

/-- The samples of the next MCU. -/
def mcuSamples : Pj (List UInt8) := do
  let s ← Comp.get
  Comp.check (s.numMCUSRemainingX = 0 ∧ s.numMCUSRemainingY = 0) .noMoreBlocks
  countRestarts
  let s ← Comp.get
  let cs ← samples s.layout.mcuOrg
  countMcu
  pure cs

/-- The samples of MCU `k`, where it and those before it can be decoded. -/
def samplesOf : Nat → Pj (List UInt8)
  | 0 => mcuSamples
  | k + 1 => do
    let _ ← samplesOf k
    mcuSamples

/-- What a JPEG holds, read from where its header ends. -/
def jpegBlocks (s : Pico) : JpegBlocks where
  info := some s.info
  blocks k := (samplesOf k s).value?.map (blockOf s.layout.scanType)

/-- The calls of `pjpeg_decode_mcu`, made one after the other. -/
def picoJpegFrom (s : Pico) : PicoJpeg where
  decodeInit := some s.info
  decodeMcu k :=
    match decodeMcus (k + 1) s with
    | .done _ s' => some s'.mcuBuf
    | _ => none

/-! ## The calls, one after the other -/

theorem samples_decodes (org : List Nat) : Decodes SameImage (samples org) := by
  induction org with
  | nil => exact Keeps.pure []
  | cons componentID org ih =>
    exact (decodeCoeffs_decodes componentID).bind fun _ => Keeps.get.bind fun _ =>
      ih.bind fun _ => Keeps.pure _

/-- What a call of `pjpeg_decode_mcu` keeps. -/
structure SameScan (s s' : Pico) : Prop where
  layout : s'.layout = s.layout
  reduce : s'.reduce = s.reduce
  mcuBuf : s'.mcuBuf = s.mcuBuf

instance : IsPreorder Pico SameScan where
  refl _ := ⟨rfl, rfl, rfl⟩
  trans _ _ _ h h' := ⟨h'.layout.trans h.layout, h'.reduce.trans h.reduce,
    h'.mcuBuf.trans h.mcuBuf⟩

theorem SameImage.sameScan (h : SameImage s s') : SameScan s s' := ⟨h.layout, h.reduce, h.mcuBuf⟩

theorem countMcu_done (s : Pico) : ∃ s', countMcu s = .done () s' ∧ SameScan s s' ∧
    s'.tables = s.tables ∧ ∀ buf, countMcu (s.withMcu buf) = .done () (s'.withMcu buf) := by
  refine ⟨_, rfl, ?_⟩
  dsimp only
  by_cases hrow : s.numMCUSRemainingX - 1 = 0
  · rw [if_pos hrow]
    exact ⟨⟨rfl, rfl, rfl⟩, rfl, fun buf => congrArg (Outcome.done ()) (if_pos hrow)⟩
  · rw [if_neg hrow]
    exact ⟨⟨rfl, rfl, rfl⟩, rfl, fun buf => congrArg (Outcome.done ()) (if_neg hrow)⟩

/-- A call decodes where its samples are, and paints them. -/
theorem pjpegDecodeMcu_samples (hs : s.TablesSafe) :
    (∀ cs s₁, mcuSamples s = .done cs s₁ → (s₁.TablesSafe ∧ SameScan s s₁) ∧
      cs.length = s.layout.mcuOrg.length ∧ pjpegDecodeMcu s =
        .done () (s₁.withMcu (paint s.reduce s.layout.scanType 0 cs s.mcuBuf))) ∧
    ((∀ cs s₁, mcuSamples s ≠ .done cs s₁) → ∀ s₁, pjpegDecodeMcu s ≠ .done () s₁) := by
  by_cases hnone : s.numMCUSRemainingX = 0 ∧ s.numMCUSRemainingY = 0
  · simp only [mcuSamples, pjpegDecodeMcu, bind_apply, Comp.get, Outcome.bind, Comp.check,
      if_pos hnone]
    exact ⟨fun cs s₁ h => (by cases h), fun _ s₁ h => (by cases h)⟩
  have hmcu : mcuSamples s = (countRestarts s).bind fun _ => Comp.get >>= fun s =>
      samples s.layout.mcuOrg >>= fun cs => countMcu >>= fun _ => pure cs := by
    simp only [mcuSamples, bind_apply, Comp.get, Outcome.bind, Comp.check, if_neg hnone]
    rfl
  have hcall : pjpegDecodeMcu s = ((countRestarts s).bind fun _ => Comp.get >>= fun s =>
      decodeBlocks s.layout.mcuOrg 0).bind fun _ => countMcu := by
    simp only [pjpegDecodeMcu, decodeNextMCU, bind_apply, Comp.get, Outcome.bind, Comp.check,
      if_neg hnone]
    rfl
  rw [hmcu, hcall]
  have hrestarts := countRestarts_decodes s hs
  cases hout : countRestarts s with
  | stop why => exact ⟨fun cs s₁ h => (by cases h), fun _ s₁ h => (by cases h)⟩
  | fail e s₂ => exact ⟨fun cs s₁ h => (by cases h), fun _ s₁ h => (by cases h)⟩
  | done value s₂ =>
    obtain ⟨hsafe, hsame⟩ := hrestarts.done hout
    obtain ⟨hdone, hfail⟩ := decodeBlocks_samples s₂.layout.mcuOrg 0 hsafe
    have hsamples := samples_decodes s₂.layout.mcuOrg s₂ hsafe
    simp only [Outcome.bind, bind_apply, Comp.get]
    cases hrest : samples s₂.layout.mcuOrg s₂ with
    | stop why =>
      unfold Ensures at hsamples
      rw [hrest] at hsamples
      exact hsamples.elim
    | fail e s₃ =>
      obtain ⟨b, hblocks⟩ := hfail e s₃ hrest
      rw [hblocks]
      exact ⟨fun cs s₁ h => (by cases h), fun _ s₁ h => (by cases h)⟩
    | done cs s₃ =>
      obtain ⟨hsafe₃, hsame₃⟩ := hsamples.done hrest
      obtain ⟨s₄, hcount, hsame₄, htables, hwith⟩ := countMcu_done s₃
      rw [hdone cs s₃ hrest]
      dsimp only
      rw [hcount, hwith]
      refine ⟨fun cs' s₁ h => ?_, fun h => absurd rfl (h cs s₄)⟩
      cases h
      rw [hsame.layout, hsame.reduce, hsame.mcuBuf]
      refine ⟨⟨fun i => by rw [htables]; exact hsafe₃ i, ?_⟩, ?_, rfl⟩
      · exact IsTrans.trans _ _ _ (IsTrans.trans _ _ _ hsame.sameScan hsame₃.sameScan) hsame₄
      · rw [samples_length _ hrest, hsame.layout]

theorem mcuSamples_sim : Sim SameButMcu mcuSamples mcuSamples := by
  refine Sim.get fun s s' h => ?_
  have hleft : s.numMCUSRemainingX = s'.numMCUSRemainingX ∧
      s.numMCUSRemainingY = s'.numMCUSRemainingY := by
    rw [← h]
    exact ⟨rfl, rfl⟩
  rw [hleft.1, hleft.2]
  refine (Sim.check _ _).bind fun _ => countRestarts_sim.bind fun _ => Sim.get fun u u' hu => ?_
  have hlayout : u.layout = u'.layout := by rw [← hu]; rfl
  rw [hlayout]
  exact (samples_sim _).bind fun cs => countMcu_sim.bind fun _ => Sim.pure cs

/-- A call whatever the buffers hold. -/
theorem pjpegDecodeMcu_with (hs : s.TablesSafe)
    (horg : s.layout.mcuOrg = blockComps s.layout.scanType) (hreduce : s.reduce = 1) (buf : Mcu) :
    (∀ cs s₁, mcuSamples s = .done cs s₁ → (s₁.TablesSafe ∧ SameScan s s₁) ∧
      pjpegDecodeMcu (s.withMcu buf) = .done () (s₁.withMcu
        (fillBuffers s.layout.scanType (blockOf s.layout.scanType cs) buf))) ∧
    ((∀ cs s₁, mcuSamples s ≠ .done cs s₁) →
      ∀ s₁, pjpegDecodeMcu (s.withMcu buf) ≠ .done () s₁) := by
  obtain ⟨hdone, hnot⟩ := pjpegDecodeMcu_samples (s := s.withMcu buf) hs
  refine ⟨fun cs s₁ h => ?_, fun h => hnot fun cs s₁ hwith => ?_⟩
  · obtain ⟨hkept, hlength, -⟩ := (pjpegDecodeMcu_samples hs).1 cs s₁ h
    obtain ⟨b, hwith⟩ := done_with mcuSamples_sim h buf
    refine ⟨hkept, ?_⟩
    rw [(hdone cs _ hwith).2.2]
    show Outcome.done () (s₁.withMcu (paint s.reduce s.layout.scanType 0 cs buf)) = _
    rw [hreduce, paint_fillBuffers _ (by rw [hlength, horg])]
  · obtain ⟨b, hback⟩ := done_with mcuSamples_sim hwith s.mcuBuf
    exact h cs _ hback

theorem buffers_succ (s : Pico) (buf : Mcu) {k : Nat} {cs : List UInt8}
    (h : samplesOf k s = .done cs s₁) :
    (jpegBlocks s).buffers buf (k + 1) = fillBuffers s.layout.scanType
      (blockOf s.layout.scanType cs) ((jpegBlocks s).buffers buf k) := by
  have hblock : (jpegBlocks s).blocks k = some (blockOf s.layout.scanType cs) := by
    simp only [jpegBlocks, h, Outcome.value?, Option.map_some]
  rw [JpegBlocks.buffers, hblock]
  rfl

/-- The first calls, whatever the buffers hold. -/
theorem decodeMcus_samples (hs : s.TablesSafe)
    (horg : s.layout.mcuOrg = blockComps s.layout.scanType) (hreduce : s.reduce = 1) (buf : Mcu)
    (k : Nat) :
    (∀ cs s₁, samplesOf k s = .done cs s₁ → (s₁.TablesSafe ∧ SameScan s s₁) ∧
      decodeMcus (k + 1) (s.withMcu buf) =
        .done () (s₁.withMcu ((jpegBlocks s).buffers buf (k + 1)))) ∧
    ((∀ cs s₁, samplesOf k s ≠ .done cs s₁) →
      ∀ s₁, decodeMcus (k + 1) (s.withMcu buf) ≠ .done () s₁) := by
  induction k with
  | zero =>
    have hone : decodeMcus 1 (s.withMcu buf) = pjpegDecodeMcu (s.withMcu buf) := rfl
    obtain ⟨hdone, hnot⟩ := pjpegDecodeMcu_with hs horg hreduce buf
    rw [hone]
    refine ⟨fun cs s₁ h => ?_, hnot⟩
    rw [buffers_succ s buf h]
    exact hdone cs s₁ h
  | succ k ih =>
    obtain ⟨ihdone, ihnot⟩ := ih
    have hcalls : decodeMcus (k + 1 + 1) (s.withMcu buf) =
        (decodeMcus (k + 1) >>= fun _ => pjpegDecodeMcu) (s.withMcu buf) := rfl
    have hsamples : samplesOf (k + 1) s = (samplesOf k >>= fun _ => mcuSamples) s := rfl
    rw [hcalls]
    refine ⟨fun cs s₁ h => ?_, fun h s₁ hrun => ?_⟩
    · have hbuffers := buffers_succ s buf h
      rw [hsamples] at h
      obtain ⟨cs₀, s₂, hbefore, h⟩ := bind_eq_done.1 h
      obtain ⟨⟨hsafe, hsame⟩, hrun⟩ := ihdone cs₀ s₂ hbefore
      obtain ⟨hkept, hnext⟩ := (pjpegDecodeMcu_with hsafe (by rw [hsame.layout, horg])
        (hsame.reduce.trans hreduce) ((jpegBlocks s).buffers buf (k + 1))).1 cs s₁ h
      rw [bind_done hrun, hnext, hbuffers, hsame.layout]
      exact ⟨⟨hkept.1, IsTrans.trans _ _ _ hsame hkept.2⟩, rfl⟩
    · obtain ⟨_, s₂, hbefore, hrun⟩ := bind_eq_done.1 hrun
      cases hout : samplesOf k s with
      | done cs₀ s₃ =>
        obtain ⟨⟨hsafe, hsame⟩, hdone⟩ := ihdone cs₀ s₃ hout
        rw [hdone] at hbefore
        cases hbefore
        refine (pjpegDecodeMcu_with hsafe (by rw [hsame.layout, horg])
          (hsame.reduce.trans hreduce) ((jpegBlocks s).buffers buf (k + 1))).2
          (fun cs s₄ hmcu => h cs s₄ ?_) s₁ hrun
        rw [hsamples, bind_done hout, hmcu]
      | fail e s₃ => exact ihnot (fun cs s₄ hmcu => by rw [hout] at hmcu; cases hmcu) s₂ hbefore
      | stop why => exact ihnot (fun cs s₄ hmcu => by rw [hout] at hmcu; cases hmcu) s₂ hbefore

/-- **The calls return what the JPEG holds.** Its blocks do not depend on what the buffers held,
and each call paints those of its MCU into what the calls before it have left. -/
theorem picoJpeg_blocks (h : s.Started) (hreduce : s.reduce = 1) (buf : Mcu) :
    picoJpegFrom (s.withMcu buf) = (jpegBlocks s).picoJpeg buf := by
  have hcalls (k : Nat) : (picoJpegFrom (s.withMcu buf)).decodeMcu k =
      ((jpegBlocks s).picoJpeg buf).decodeMcu k := by
    obtain ⟨hdone, hnot⟩ := decodeMcus_samples h.tables h.laidOut.org hreduce buf k
    simp only [picoJpegFrom, JpegBlocks.picoJpeg]
    cases hout : samplesOf k s with
    | done cs s₁ =>
      have hbuffers := buffers_succ s buf hout
      rw [(hdone cs s₁ hout).2, hbuffers]
      simp only [jpegBlocks, hout, Outcome.value?, Option.map_some]
      rfl
    | fail e s₁ =>
      have hne := hnot fun cs s₂ hmcu => by rw [hout] at hmcu; cases hmcu
      simp only [jpegBlocks, hout, Outcome.value?, Option.map_none]
      split
      · rename_i heq
        exact absurd heq (hne _)
      · rfl
    | stop why =>
      have hne := hnot fun cs s₂ hmcu => by rw [hout] at hmcu; cases hmcu
      simp only [jpegBlocks, hout, Outcome.value?, Option.map_none]
      split
      · rename_i heq
        exact absurd heq (hne _)
      · rfl
  have hinit : (picoJpegFrom (s.withMcu buf)).decodeInit =
      ((jpegBlocks s).picoJpeg buf).decodeInit := rfl
  exact PicoJpeg.mk.injEq .. |>.mpr ⟨hinit, funext hcalls⟩

end RetroLens.Jpeg
