import RetroLens.Jpeg.Calls
import RetroLens.Jpeg.Encoder

/-!
# From the encoder to the decoder

What `stbi_write_jpg_core` writes, picojpeg decodes: the headers are accepted,
and the samples of each MCU are the first coefficients that the encoder had,
times the first entry of the quantization table (`Pico.AtBlocks.samples`). The
blocks are written in one loop over rows and one over columns, and the decoder
counts them through (`encodeRows_eq`).
-/

namespace RetroLens.Jpeg

open Text Bits CanonicalCode Checked Comps RetroLens.Core

variable {s s' s₀ : Pico} {b : Tables} {scan : ScanHeader} {DC : Nat → Int} {l : List Bool}
  {k n left : Nat}

/-! ## The bytes of the blocks -/

theorem octet_stuff (c : UInt8) (data back : Bytes) (tem : Bool) :
    (⟨stuff (c :: data) ++ back, tem⟩ : Source).octet true = (c, ⟨stuff data ++ back, tem⟩) := by
  by_cases hc : c = 255
  · subst hc
    rfl
  · have hstuff : stuff (c :: data) = c :: stuff data := by
      rw [stuff, List.flatMap_cons, if_neg hc]
      rfl
    have hff : (c == 0xFF) = false := beq_eq_false_iff_ne.2 hc
    rw [hstuff, List.cons_append]
    simp only [Source.octet, Source.next, hff, Bool.and_false, Bool.false_eq_true, if_false]

/-- The bytes that are stuffed come out as they were. -/
theorem octets_stuff (data back : Bytes) (tem : Bool) :
    ∀ n (h : n < data.length), (⟨stuff data ++ back, tem⟩ : Source).octets true n = data[n] := by
  induction data with
  | nil => exact fun n h => absurd h (Nat.not_lt_zero n)
  | cons c data ih =>
    intro n h
    cases n with
    | zero => rw [Source.octets, octet_stuff, List.getElem_cons_zero]
    | succ n =>
      rw [Source.octets, octet_stuff, List.getElem_cons_succ]
      exact ih n (Nat.lt_of_succ_lt_succ h)

/-- What is written and filled up begins with the bits that were written. -/
theorem emits_starts {f : BitWriter → BitWriter} (h : Emits f l) (back : Bytes) (tem : Bool) :
    Starts (ofBytes
      ((⟨(writeBits (0x7F, 7) (f ⟨[], 0, 0⟩)).out ++ back, tem⟩ : Source).octets true)) l := by
  have hstart : Holds [] [] ⟨[], 0, 0⟩ := ⟨⟨[], rfl, rfl⟩, fun i _ => by simp⟩
  have hfill : Emits (writeBits (0x7F, 7)) (word 7 0x7F) := writeBits_emits (by decide) (by decide)
  obtain ⟨⟨⟨data, hout, hbits⟩, -⟩, hcnt⟩ := (h.comp hfill) [] [] ⟨[], 0, 0⟩ hstart (by decide)
  dsimp only at hcnt
  have hlength := congrArg List.length hbits
  simp only [List.length_append, List.length_nil, word_length, BitWriter.pending,
    List.length_map, List.length_range] at hlength
  have hprefix : l <+: bytesBits data := by
    have hall : l <+: [] ++ (l ++ word 7 0x7F) := ⟨word 7 0x7F, rfl⟩
    exact List.prefix_of_prefix_length_le hall ⟨_, hbits.symm⟩ (by omega)
  obtain ⟨rest, hrest⟩ := hprefix
  have hdata := ofBytes_starts fun i hi => octets_stuff data back tem i hi
  rw [← hrest, starts_append] at hdata
  rw [hout]
  exact hdata.1

/-! ## The blocks of an MCU -/

/-- What the transform and the quantization leave of a block of bytes. -/
structure Small (DU : Nat → Int) : Prop where
  first : -1024 ≤ DU 0 ∧ DU 0 ≤ 1023
  rest : ∀ k, 1 ≤ k → k ≤ 63 → (DU k).natAbs < 1024

def SmallDC (DC : Nat → Int) : Prop := ∀ c, -1024 ≤ DC c ∧ DC c ≤ 1023

theorem Small.inRange {DU : Nat → Int} {last : Int} (h : Small DU)
    (hlast : -1024 ≤ last ∧ last ≤ 1023) : InRange DU last :=
  ⟨by have := h.first; omega, h.rest⟩

/-- **The coefficients of a block come back**: what `processDU` writes of them with the tables of
the encoder, a decode that keeps them all reads, and multiplies each by its quantization. -/
theorem writtenBlock_read {c : Nat} {DU : Nat → Int} {last : Int} (hb : s.tables.Standard)
    (hscan : s.scan.UsesStandard c) (hrange : InRange DU last)
    (hlast : s.lastDC c = BitVec.ofInt 16 last) :
    ∃ l, Emits (processDU DU last (dcCodes c) (acCodes c)) l ∧
      Reads (decodeAllCoeffs c) s l fun _ s' =>
        s'.lastDC c = BitVec.ofInt 16 (DU 0) ∧
          ∀ k < 64, s'.coeffBuf (zag.getD k 0) = BitVec.ofInt 16 (DU k) * s.quantOf c k := by
  obtain ⟨l, hemits, hcode⟩ := processDU_code (hb.dcCodes hscan) (hb.acCodes hscan) hrange
  have hsize : category (DU 0 - last) ≤ 15 :=
    Nat.le_trans (category_le (m := 11) hrange.first) (by decide)
  refine ⟨l, hemits, (decodeAllCoeffs_reads hcode hsize hlast).mono fun _ s' h' => ?_⟩
  refine ⟨?_, h'.2⟩
  rw [h'.1]
  exact Function.update_self ..

/-- A block with two coefficients. -/
def twoCoefficients (k : Nat) : Int := if k = 0 then 5 else if k = 20 then -7 else 0

theorem twoCoefficients_inRange : InRange twoCoefficients 0 := by
  refine ⟨by decide, fun k _ _ => ?_⟩
  rw [twoCoefficients]
  split
  · decide
  · split <;> decide

theorem writtenBlock_read_two : ∃ (s : Pico) (l : List Bool),
    Reads (decodeAllCoeffs 0) s l fun _ s' => s'.coeffBuf 0 = 5 * s.quantOf 0 0 ∧
      s'.coeffBuf (zag.getD 20 0) = -7 * s.quantOf 0 20 := by
  have hsize : 1 ≤ 8 ∧ 8 ≤ maxSize := by decide
  have hblocks : ([0] : Bytes) ≠ [] := by decide
  obtain ⟨s, -, hat⟩ := @pjpegDecodeInit_encoder 8 8 90 0 [0] hsize hsize hblocks .zeroed
  obtain ⟨l, -, hreads⟩ := writtenBlock_read hat.tables (hat.scan 0 (by decide))
    twoCoefficients_inRange (by rw [hat.lastDC]; rfl)
  exact ⟨s, l, hreads.mono fun _ s' h' => ⟨h'.2 0 (by decide), h'.2 20 (by decide)⟩⟩

/-- `DCY`, `DCU` and `DCV` behind the blocks from block `k` on. -/
def lastDCs (DU : Nat → Nat → Int) : List Nat → Nat → (Nat → Int) → Nat → Int
  | [], _, DC => DC
  | c :: cs, k, DC => lastDCs DU cs (k + 1) (Function.update DC c (DU k 0))

theorem processUnits_DC (DU : Nat → Nat → Int) (cs : List Nat) (k : Nat) (e : Encoding) :
    (processUnits DU cs k e).DC = lastDCs DU cs k e.DC := by
  induction cs generalizing k e with
  | nil => rfl
  | cons c cs ih => rw [processUnits, ih, lastDCs, processUnit]

theorem update_small {DU : Nat → Int} (h : SmallDC DC) (hDU : Small DU) (c : Nat) :
    SmallDC (Function.update DC c (DU 0)) := by
  intro c'
  by_cases hc : c' = c
  · rw [hc, Function.update_self]
    exact hDU.first
  · rw [Function.update_of_ne hc]
    exact h c'

theorem lastDCs_small {DU : Nat → Nat → Int} (hDU : ∀ k, Small (DU k)) (cs : List Nat) (k : Nat)
    (h : SmallDC DC) : SmallDC (lastDCs DU cs k DC) := by
  induction cs generalizing k DC with
  | nil => exact h
  | cons c cs ih => exact ih (k + 1) (update_small h (hDU k) c)

/-- The samples of the blocks from block `k` on. -/
def unitSamples (quant : Nat → BitVec 16) (DU : Nat → Nat → Int) : List Nat → Nat → List UInt8
  | [], _ => []
  | c :: cs, k =>
    descaled (BitVec.ofInt 16 (DU k 0) * quant c) :: unitSamples quant DU cs (k + 1)

/-- The state but for what the data of blocks changes. -/
def SameButScan (s s' : Pico) : Prop :=
  { s with reader := s'.reader, lastDC := s'.lastDC, coeffBuf := s'.coeffBuf } = s'

/-- The first coefficients of the decoder are those of the encoder. -/
def SameDC (s : Pico) (DC : Nat → Int) : Prop := ∀ c, s.lastDC c = BitVec.ofInt 16 (DC c)

/-- **The blocks of an MCU are read back as they were written.** -/
theorem processUnits_reads (hb : b.Standard) {cs : List Nat}
    (hscan : ∀ c ∈ cs, scan.UsesStandard c) {DU : Nat → Nat → Int} (hDU : ∀ k, Small (DU k))
    (k : Nat) (hDC : SmallDC DC) :
    ∃ l, Emits (fun w => (processUnits DU cs k ⟨w, DC⟩).w) l ∧
      ∀ s : Pico, s.tables = b → s.scan = scan → SameDC s DC →
        Reads (samples cs) s l fun ss s' =>
          ss = unitSamples (fun c => s.quantOf c 0) DU cs k ∧ SameButScan s s' ∧
            SameDC s' (lastDCs DU cs k DC) := by
  induction cs generalizing k DC with
  | nil => exact ⟨[], emits_id, fun s _ _ h => Reads.done (a := []) (u := s) rfl rfl ⟨rfl, rfl, h⟩⟩
  | cons c cs ih =>
    have hc := hscan c List.mem_cons_self
    have hrange := (hDU k).inRange (hDC c)
    obtain ⟨l₁, hemits₁, hcode⟩ := processDU_code (hb.dcCodes hc) (hb.acCodes hc) hrange
    obtain ⟨l₂, hemits₂, hreads⟩ := ih (fun c' h => hscan c' (List.mem_cons_of_mem _ h)) (k + 1)
      (update_small hDC (hDU k) c)
    refine ⟨l₁ ++ l₂, hemits₁.comp hemits₂, fun s hs hscan' hlast => ?_⟩
    subst hs hscan'
    have hsize : category (DU k 0 - DC c) ≤ 15 :=
      Nat.le_trans (category_le (m := 11) hrange.first) (by decide)
    rw [samples]
    refine (decodeCoeffs_reads hcode hsize (hlast c)).bind fun _ s₁ h₁ => ?_
    have htables : s₁.tables = s.tables := by rw [h₁]
    have hscan₁ : s₁.scan = s.scan := by rw [h₁]
    have hquant : ∀ c, s₁.quantOf c = s.quantOf c := fun c => by rw [h₁]; rfl
    have hdc : SameDC s₁ (Function.update DC c (DU k 0)) := by
      intro c'
      rw [h₁]
      by_cases hc' : c' = c
      · subst hc'
        simp only [Function.update_self]
      · simp only [Function.update_of_ne hc']
        exact hlast c'
    have hfirst : s₁.coeffBuf 0 = BitVec.ofInt 16 (DU k 0) * s.quantOf c 0 := by
      rw [h₁]
      exact Function.update_self 0 (BitVec.ofInt 16 (DU k 0) * s.quantOf c 0) s.coeffBuf
    refine Reads.andThen (a := s₁) (u := s₁) rfl rfl ?_
    rw [← List.append_nil l₂]
    refine (hreads s₁ htables hscan₁ hdc).bind fun rest s₂ h₂ => ?_
    obtain ⟨rfl, hsame, hdc₂⟩ := h₂
    refine Reads.done rfl rfl ⟨?_, ?_, hdc₂⟩
    · rw [hfirst, unitSamples]
      simp only [hquant]
    · rw [SameButScan, h₁] at hsame
      rw [SameButScan, ← hsame]

/-! ## An MCU -/

/-- The decoder is between two MCUs of an image that goes on like `s₀`. -/
structure Pico.Decoding (s₀ : Pico) (left : Nat) (DC : Nat → Int) (s : Pico) : Prop where
  tables : s.tables = s₀.tables
  scan : s.scan = s₀.scan
  frame : s.frame = s₀.frame
  layout : s.layout = s₀.layout
  restarts : s.restarts = s₀.restarts
  counting : s.Counting
  left : s.mcusLeft = left
  dc : SameDC s DC

theorem countMcu_counters (s : Pico) : ∃ s', countMcu s = .done () s' ∧
    { s with
      numMCUSRemainingX := s'.numMCUSRemainingX
      numMCUSRemainingY := s'.numMCUSRemainingY } = s' := by
  refine ⟨_, rfl, ?_⟩
  dsimp only
  split <;> rfl

theorem countRestarts_none (h : s.restarts.restartInterval = 0) :
    countRestarts s = .done () s := by
  rw [countRestarts, bind_done (show (Comp.get : Pj Pico) s = .done s s from rfl), h, if_neg
    (not_not.2 rfl)]
  rfl

theorem mcu_reads (hb : s₀.tables.Standard) (hscan : ∀ c ∈ s₀.layout.mcuOrg, s₀.scan.UsesStandard c)
    (hinterval : s₀.restarts.restartInterval = 0) {DU : Nat → Nat → Int}
    (hDU : ∀ k, Small (DU k)) (hDC : SmallDC DC) :
    ∃ l, Emits (fun w => (processUnits DU s₀.layout.mcuOrg 0 ⟨w, DC⟩).w) l ∧
      ∀ s left, s₀.Decoding (left + 1) DC s → Reads mcuSamples s l fun ss s' =>
        ss = unitSamples (fun c => s₀.quantOf c 0) DU s₀.layout.mcuOrg 0 ∧
          s₀.Decoding left (lastDCs DU s₀.layout.mcuOrg 0 DC) s' := by
  obtain ⟨l, hemits, hreads⟩ := processUnits_reads hb hscan hDU 0 hDC
  refine ⟨l, hemits, fun s left hs => ?_⟩
  have hmore : ¬ (s.numMCUSRemainingX = 0 ∧ s.numMCUSRemainingY = 0) := by
    rintro ⟨hx, hy⟩
    have hleft := hs.left
    rw [Pico.mcusLeft, hx, hy, Nat.zero_sub, Nat.zero_mul] at hleft
    omega
  refine Reads.andThen (a := s) (u := s) rfl rfl (Reads.andThen (check_pass hmore) rfl ?_)
  refine Reads.andThen (countRestarts_none (by rw [hs.restarts, hinterval])) rfl ?_
  refine Reads.andThen (a := s) (u := s) rfl rfl ?_
  rw [hs.layout, ← List.append_nil l]
  refine (hreads s hs.tables hs.scan hs.dc).bind fun ss s₁ h₁ => ?_
  obtain ⟨rfl, hsame, hdc⟩ := h₁
  obtain ⟨s₂, hcount, hcounters⟩ := countMcu_counters s₁
  have hcounting₁ : s₁.Counting ∧ s₁.mcusLeft = left + 1 := by
    rw [SameButScan] at hsame
    rw [← hsame]
    exact ⟨hs.counting, hs.left⟩
  obtain ⟨hcounting₂, hleft₂, -⟩ :=
    (countMcu_left hcounting₁.1 (by rw [hcounting₁.2]; omega)).done hcount
  refine Reads.andThen hcount (by rw [← hcounters]) (Reads.done rfl rfl ⟨?_, ?_⟩)
  · have hquant : ∀ c, s.quantOf c = s₀.quantOf c := fun c => by
      rw [Pico.quantOf, Pico.quantOf, hs.tables, hs.frame]
    simp only [hquant]
  · rw [SameButScan] at hsame
    refine ⟨?_, ?_, ?_, ?_, ?_, hcounting₂, by omega, ?_⟩
    · rw [← hcounters, ← hsame, ← hs.tables]
    · rw [← hcounters, ← hsame, ← hs.scan]
    · rw [← hcounters, ← hsame, ← hs.frame]
    · rw [← hcounters, ← hsame, ← hs.layout]
    · rw [← hcounters, ← hsame, ← hs.restarts]
    · intro c
      rw [← hcounters]
      exact hdc c

/-! ## The loops of the encoder -/

/-- `n` MCUs from MCU `k` on. -/
def encodeMcus (DU : Nat → Nat → Nat → Int) (comps : List Nat) : Nat → Nat → Encoding → Encoding
  | 0, _, e => e
  | n + 1, k, e => encodeMcus DU comps n (k + 1) (processUnits (DU k) comps 0 e)

variable {DU DU' : Nat → Nat → Nat → Int} {comps : List Nat} {e : Encoding}

theorem encodeMcus_congr {k' : Nat} (h : ∀ i < n, DU (k + i) = DU' (k' + i)) :
    encodeMcus DU comps n k e = encodeMcus DU' comps n k' e := by
  induction n generalizing k k' e with
  | zero => rfl
  | succ n ih =>
    have hfirst : DU k = DU' k' := h 0 (Nat.succ_pos n)
    rw [encodeMcus, encodeMcus, hfirst]
    refine ih fun i hi => ?_
    have hnext := h (i + 1) (by omega)
    rwa [← Nat.add_assoc, ← Nat.add_assoc, Nat.add_right_comm, Nat.add_right_comm k'] at hnext

theorem encodeMcus_add (m : Nat) : encodeMcus DU comps (m + n) k e =
    encodeMcus DU comps n (k + m) (encodeMcus DU comps m k e) := by
  induction m generalizing k e with
  | zero => rw [Nat.zero_add, Nat.add_zero, encodeMcus]
  | succ m ih =>
    rw [Nat.add_right_comm, encodeMcus, ih, encodeMcus]
    congr 1
    omega

/-- How many MCUs a side of `length` takes. -/
def mcusOf (subsample : Bool) (length : Nat) : Nat :=
  (length + (unitSize subsample - 1)) / unitSize subsample

theorem lt_mcusOf {subsample : Bool} {length i : Nat} :
    i * unitSize subsample < length ↔ i < mcusOf subsample length := by
  cases subsample with
  | false =>
    simp only [mcusOf, unitSize, Bool.false_eq_true, if_false]
    omega
  | true =>
    simp only [mcusOf, unitSize, if_true]
    omega

theorem mcusOf_le (subsample : Bool) (length : Nat) : mcusOf subsample length ≤ length := by
  cases subsample with
  | false =>
    simp only [mcusOf, unitSize, Bool.false_eq_true, if_false]
    omega
  | true =>
    simp only [mcusOf, unitSize, if_true]
    omega

theorem encodeRow_eq {subsample : Bool} {width : Nat} (hn : mcusOf subsample width - k ≤ n)
    (e : Encoding) : encodeRow DU subsample width n (k * unitSize subsample) e =
      encodeMcus (fun k => DU (k * unitSize subsample)) (unitComps subsample)
        (mcusOf subsample width - k) k e := by
  induction n generalizing k e with
  | zero =>
    rw [Nat.le_zero.1 hn]
    rfl
  | succ n ih =>
    rw [encodeRow]
    by_cases hk : k * unitSize subsample < width
    · have hlt := lt_mcusOf.1 hk
      rw [if_pos hk, ← Nat.succ_mul, ih (by omega),
        show mcusOf subsample width - k = mcusOf subsample width - (k + 1) + 1 by omega, encodeMcus]
    · have hle : mcusOf subsample width ≤ k := Nat.le_of_not_lt fun h => hk (lt_mcusOf.2 h)
      rw [if_neg hk, Nat.sub_eq_zero_of_le hle]
      rfl

/-- The coefficients of MCU `k`. -/
def unitsAt (DU : Units) (subsample : Bool) (width k : Nat) : Nat → Nat → Int :=
  DU (k / mcusOf subsample width * unitSize subsample)
    (k % mcusOf subsample width * unitSize subsample)

theorem unitsAt_eq (DU : Units) (subsample : Bool) {width i : Nat} (k : Nat)
    (hi : i < mcusOf subsample width) :
    unitsAt DU subsample width (k * mcusOf subsample width + i) =
      DU (k * unitSize subsample) ((0 + i) * unitSize subsample) := by
  have hpos : 0 < mcusOf subsample width := by omega
  rw [unitsAt, Nat.mul_comm k, Nat.mul_add_div hpos, Nat.div_eq_of_lt hi, Nat.add_zero,
    Nat.mul_add_mod, Nat.mod_eq_of_lt hi, Nat.zero_add]

/-- **The two loops go through the MCUs as the decoder counts them.** -/
theorem encodeRows_eq {DU : Units} {subsample : Bool} {width height : Nat}
    (hn : mcusOf subsample height - k ≤ n) (e : Encoding) :
    encodeRows DU subsample width height n (k * unitSize subsample) e =
      encodeMcus (unitsAt DU subsample width) (unitComps subsample)
        ((mcusOf subsample height - k) * mcusOf subsample width)
        (k * mcusOf subsample width) e := by
  induction n generalizing k e with
  | zero =>
    rw [Nat.le_zero.1 hn, Nat.zero_mul]
    rfl
  | succ n ih =>
    rw [encodeRows]
    by_cases hk : k * unitSize subsample < height
    · have hlt := lt_mcusOf.1 hk
      have hrow : encodeRow (DU (k * unitSize subsample)) subsample width width 0 e =
          encodeMcus (unitsAt DU subsample width) (unitComps subsample) (mcusOf subsample width)
            (k * mcusOf subsample width) e := by
        have hmcus : encodeRow (DU (k * unitSize subsample)) subsample width width
            (0 * unitSize subsample) e = _ := encodeRow_eq (mcusOf_le subsample width) e
        rw [Nat.zero_mul, Nat.sub_zero] at hmcus
        exact hmcus.trans (encodeMcus_congr fun i hi => (unitsAt_eq DU subsample k hi).symm)
      have hcount : (mcusOf subsample height - k) * mcusOf subsample width =
          mcusOf subsample width +
            (mcusOf subsample height - (k + 1)) * mcusOf subsample width := by
        rw [show mcusOf subsample height - k = mcusOf subsample height - (k + 1) + 1 by omega,
          Nat.succ_mul, Nat.add_comm]
      rw [if_pos hk, ← Nat.succ_mul, ih (by omega), hrow, hcount, encodeMcus_add, ← Nat.succ_mul]
    · have hle : mcusOf subsample height ≤ k := Nat.le_of_not_lt fun h => hk (lt_mcusOf.2 h)
      rw [if_neg hk, Nat.sub_eq_zero_of_le hle, Nat.zero_mul]
      rfl

/-! ## The whole image -/

/-- `DCY`, `DCU` and `DCV` in front of MCU `k`. -/
def dcAt (DU : Nat → Nat → Nat → Int) (comps : List Nat) : Nat → Nat → Int
  | 0 => fun _ => 0
  | k + 1 => lastDCs (DU k) comps 0 (dcAt DU comps k)

theorem dcAt_small (hDU : ∀ k i, Small (DU k i)) (k : Nat) : SmallDC (dcAt DU comps k) := by
  induction k with
  | zero =>
    intro c
    show -1024 ≤ (0 : Int) ∧ (0 : Int) ≤ 1023
    decide
  | succ k ih => exact lastDCs_small (hDU k) comps 0 ih

theorem encodeMcus_succ : encodeMcus DU comps (n + 1) 0 e =
    processUnits (DU n) comps 0 (encodeMcus DU comps n 0 e) := by
  rw [encodeMcus_add, Nat.zero_add, encodeMcus, encodeMcus]

theorem encodeMcus_DC (w : BitWriter) :
    (encodeMcus DU comps n 0 ⟨w, fun _ => 0⟩).DC = dcAt DU comps n := by
  induction n with
  | zero => rfl
  | succ n ih => rw [encodeMcus_succ, processUnits_DC, ih, dcAt]

/-- The bits of the MCUs one after the other. -/
theorem encodeMcus_emits {L : Nat → List Bool}
    (h : ∀ k, Emits (fun w => (processUnits (DU k) comps 0 ⟨w, dcAt DU comps k⟩).w) (L k))
    (n : Nat) :
    Emits (fun w => (encodeMcus DU comps n 0 ⟨w, fun _ => 0⟩).w) ((List.range n).flatMap L) := by
  induction n with
  | zero => exact emits_id
  | succ n ih =>
    have hlast : (fun w => (encodeMcus DU comps (n + 1) 0 ⟨w, fun _ => 0⟩).w) = fun w =>
        (processUnits (DU n) comps 0
          ⟨(encodeMcus DU comps n 0 ⟨w, fun _ => 0⟩).w, dcAt DU comps n⟩).w := by
      funext w
      rw [encodeMcus_succ, ← encodeMcus_DC w]
    rw [hlast, List.range_succ, List.flatMap_append, List.flatMap_singleton]
    exact ih.comp (h n)

/-- The decoder reads MCU `k` behind those before it. -/
theorem samplesOf_reads {L : Nat → List Bool} {total : Nat}
    (hmcu : ∀ k s left, s₀.Decoding (left + 1) (dcAt DU comps k) s →
      Reads mcuSamples s (L k) fun ss s' =>
        ss = unitSamples (fun c => s₀.quantOf c 0) (DU k) comps 0 ∧
          s₀.Decoding left (dcAt DU comps (k + 1)) s')
    (hstart : s₀.Decoding total (dcAt DU comps 0) s₀) (hk : k < total) :
    Reads (samplesOf k) s₀ ((List.range (k + 1)).flatMap L) fun ss s' =>
      ss = unitSamples (fun c => s₀.quantOf c 0) (DU k) comps 0 ∧
        s₀.Decoding (total - (k + 1)) (dcAt DU comps (k + 1)) s' := by
  induction k with
  | zero =>
    have hfirst : ((List.range (0 + 1)).flatMap L) = L 0 := by
      rw [List.range_succ, List.range_zero, List.nil_append, List.flatMap_singleton]
    rw [hfirst]
    refine hmcu 0 s₀ (total - (0 + 1)) ?_
    rwa [show total - (0 + 1) + 1 = total by omega]
  | succ k ih =>
    rw [List.range_succ, List.flatMap_append, List.flatMap_singleton]
    refine (ih (by omega)).bind fun _ s₁ h₁ => hmcu (k + 1) s₁ (total - (k + 1 + 1)) ?_
    rw [show total - (k + 1 + 1) + 1 = total - (k + 1) by omega]
    exact h₁.2

/-- The encoder goes through as many MCUs as the decoder expects. -/
theorem mcusOf_info (width height : Nat) (subsample : Bool) :
    (⟨width, height, scanTypeOf subsample⟩ : ImageInfo).mcusPerRow = mcusOf subsample width ∧
      (⟨width, height, scanTypeOf subsample⟩ : ImageInfo).mcusPerCol =
        mcusOf subsample height := by
  cases subsample with
  | false => exact ⟨Nat.shiftRight_eq_div_pow _ 3, Nat.shiftRight_eq_div_pow _ 3⟩
  | true => exact ⟨Nat.shiftRight_eq_div_pow _ 4, Nat.shiftRight_eq_div_pow _ 4⟩

/-- The state behind the headers. -/
theorem Pico.Started.decoding (h : s.Started) {info : ImageInfo} (hinfo : s.info = info)
    (hrow : 1 ≤ info.mcusPerRow) (hcol : 1 ≤ info.mcusPerCol) :
    s.Decoding (info.mcusPerCol * info.mcusPerRow) (fun _ => 0) s := by
  subst hinfo
  have hx := h.laidOut.remainingX
  have hy := h.laidOut.remainingY
  refine ⟨rfl, rfl, rfl, rfl, rfl, .inl ?_, ?_, fun c => ?_⟩
  · rw [hx, hy, h.laidOut.perRow]
    exact ⟨hrow, Nat.le_refl _, hcol⟩
  · rw [Pico.mcusLeft, hx, hy, h.laidOut.perRow, ← Nat.succ_mul]
    congr 1
    omega
  · rw [h.lastDC]
    rfl

theorem unitComps_lt (subsample : Bool) : ∀ c ∈ unitComps subsample, c < 3 := by
  cases subsample <;> decide

/-- **The data behind the headers holds every MCU of the encoder.** -/
theorem Pico.AtBlocks.samples {width height : Nat} {quality : Int} {units : Units} {back : Bytes}
    (hwidth : 1 ≤ width) (hheight : 1 ≤ height) (hunits : ∀ y x i, Small (units y x i))
    (hs : s.Started)
    (hat : s.AtBlocks width height quality (encodedBlocks units width height quality ++ back))
    (hk : k < mcusOf (subsampled quality) height * mcusOf (subsampled quality) width) :
    ∃ s', samplesOf k s = .done (unitSamples (fun c => s.quantOf c 0)
        (unitsAt units (subsampled quality) width k) (unitComps (subsampled quality)) 0) s' ∧
      s'.Counting ∧ s'.mcusLeft =
        mcusOf (subsampled quality) height * mcusOf (subsampled quality) width - (k + 1) := by
  obtain ⟨hinfo, horg, hb, -, -, hscan, hinterval, -, hready, hbits⟩ := hat
  generalize hsub : subsampled quality = subsample at *
  have hscan : ∀ c ∈ s.layout.mcuOrg, s.scan.UsesStandard c := fun c hc =>
    hscan c (unitComps_lt subsample c (horg ▸ hc))
  have hDU : ∀ k i, Small (unitsAt units subsample width k i) := fun k i => hunits _ _ i
  have hDC : ∀ k, SmallDC (dcAt (unitsAt units subsample width) s.layout.mcuOrg k) :=
    dcAt_small hDU
  choose L hemits hmcu using fun k => mcu_reads hb hscan hinterval (hDU k) (hDC k)
  rw [horg] at hemits hmcu
  -- the blocks are the MCUs in the order of the decoder
  have hrows : encodeRows units subsample width height height (0 * unitSize subsample)
      Encoding.start = _ := encodeRows_eq (mcusOf_le subsample height) Encoding.start
  rw [Nat.zero_mul, Nat.zero_mul, Nat.sub_zero] at hrows
  have hblocks : encodedBlocks units width height quality = (writeBits (0x7F, 7)
      (encodeMcus (unitsAt units subsample width) (unitComps subsample)
        (mcusOf subsample height * mcusOf subsample width) 0 Encoding.start).w).out := by
    rw [encodedBlocks, hsub, hrows]
  have hdecoding := hs.decoding hinfo (by
    rw [(mcusOf_info width height subsample).1]
    exact lt_mcusOf.1 (by omega)) (by
    rw [(mcusOf_info width height subsample).2]
    exact lt_mcusOf.1 (by omega))
  rw [(mcusOf_info width height subsample).1, (mcusOf_info width height subsample).2] at hdecoding
  generalize mcusOf subsample height * mcusOf subsample width = total at *
  have hdata : Starts (s.reader.bits true) ((List.range total).flatMap L) := by
    rw [hbits, hblocks]
    exact emits_starts (encodeMcus_emits hemits total) back false
  rw [show total = k + 1 + (total - (k + 1)) by omega, List.range_add, List.flatMap_append,
    starts_append] at hdata
  obtain ⟨ss, s', hdone, -, rfl, hs'⟩ := samplesOf_reads hmcu hdecoding hk hready hdata.1
  exact ⟨s', hdone, hs'.counting, hs'.left⟩

/-- Behind the last MCU there are no more. -/
theorem samplesOf_none {ss : List UInt8} (hlast : samplesOf k s = .done ss s') (h : s'.Counting)
    (hleft : s'.mcusLeft = 0) (hn : k < n) : ∃ s'', samplesOf n s = .fail .noMoreBlocks s'' := by
  have hend : s'.numMCUSRemainingX = 0 ∧ s'.numMCUSRemainingY = 0 := by
    obtain ⟨hx, -⟩ | hend := h
    · rw [Pico.mcusLeft] at hleft
      omega
    · exact hend
  induction n with
  | zero => exact absurd hn (Nat.not_lt_zero k)
  | succ n ih =>
    obtain rfl | hk := Nat.eq_or_lt_of_le (Nat.le_of_lt_succ hn)
    · exact ⟨s', (bind_done hlast).trans ((bind_done rfl).trans (bind_fail (check_fail hend)))⟩
    · obtain ⟨s'', hfail⟩ := ih hk
      exact ⟨s'', bind_fail hfail⟩

end RetroLens.Jpeg
