import RetroLens.Core.McuBuffers
import RetroLens.Jpeg.Parsing

/-!
# The scan

`pjpeg_decode_mcu` decodes the blocks of one MCU. In reduced mode it keeps the
first coefficient of a block only, and passes over the others; a block becomes
one pixel. `decodeAllCoeffs` keeps the others, for comparison: on every input
the two take the same bits and return the same status (`decodeCoeffs_all`).
-/

namespace RetroLens.Jpeg

open Text Bits CanonicalCode Checked Comps RetroLens.Core

/-! ## Symbols and their bits -/

def decodeSymbol (t : Fin 4) : Pj UInt8 := fun s =>
  match huffDecode (s.tables.huffTab t) (s.tables.huffVal t) s.reader with
  | none => .stop .outside
  | some (value, r) => .done value (s.withReader r)

/-- `numExtraBits` bits, or 0 where there are none. -/
def receive (numExtraBits : Nat) : Pj (BitVec 16) := fun s =>
  if numExtraBits ≠ 0 then
    .done (getBits2 numExtraBits s.reader).1 (s.withReader (getBits2 numExtraBits s.reader).2)
  else .done 0 s

theorem choice_lt {n a b : Nat} (c : UInt8) (ha : a < n) (hb : b < n) :
    (if c ≠ 0 then a else b) < n := by
  split
  · exact ha
  · exact hb

theorem dcTable_lt (c : UInt8) : (if c ≠ 0 then 1 else 0) < 4 := choice_lt c (by decide) (by decide)

theorem acTable_lt (c : UInt8) : (if c ≠ 0 then 3 else 2) < 4 := choice_lt c (by decide) (by decide)

theorem quantTable_lt (c : UInt8) : (if c ≠ 0 then 1 else 0) < 2 :=
  choice_lt c (by decide) (by decide)

def dcTable (compDCTab : UInt8) : Fin 4 := ⟨if compDCTab ≠ 0 then 1 else 0, dcTable_lt compDCTab⟩

def acTable (compACTab : UInt8) : Fin 4 := ⟨if compACTab ≠ 0 then 3 else 2, acTable_lt compACTab⟩

def quantTable (compQuant : UInt8) : Fin 2 :=
  ⟨if compQuant ≠ 0 then 1 else 0, quantTable_lt compQuant⟩

def Pico.quantOf (s : Pico) (componentID : Nat) : Nat → BitVec 16 :=
  s.tables.quant (quantTable (s.frame.compQuant componentID))

/-! ## The coefficients of a block -/

/-- The first coefficient of a block: the difference to the last one of the component. -/
def decodeDC (componentID : Nat) : Pj Unit := do
  let s ← Comp.get
  let symbol ← decodeSymbol (dcTable (s.scan.compDCTab componentID))
  let r ← receive (symbol &&& 0xF).toNat
  let dc := huffExtend r symbol + s.lastDC componentID
  Comp.modify fun s => { s with
    lastDC := Function.update s.lastDC componentID dc
    coeffBuf := Function.update s.coeffBuf 0 (dc * s.quantOf componentID 0) }

/-- The loop that throws the other coefficients away, from coefficient `k` on. -/
def skipACs (t : Fin 4) : Nat → Nat → Pj Unit
  | 0, _ => pure ()
  | n + 1, k =>
    if k < 64 then do
      let symbol ← decodeSymbol t
      let _ ← receive (symbol &&& 0xF).toNat
      let r := (symbol >>> 4).toNat
      if symbol &&& 15 ≠ 0 then
        if r ≠ 0 then do
          Comp.check (k + r > 63) .decodeError
          skipACs t n (k + r + 1)
        else skipACs t n (k + 1)
      else if r = 15 then do
        Comp.check (k + 16 > 64) .decodeError
        skipACs t n (k + 16)
      else pure ()
    else pure ()

def zag : List Nat :=
  [0, 1, 8, 16, 9, 2, 3, 10, 17, 24, 32, 25, 18, 11, 4, 5, 12, 19, 26, 33, 40, 48, 41, 34,
    27, 20, 13, 6, 7, 14, 21, 28, 35, 42, 49, 56, 57, 50, 43, 36, 29, 22, 15, 23, 30, 37, 44, 51,
    58, 59, 52, 45, 38, 31, 39, 46, 53, 60, 61, 54, 47, 55, 62, 63]

def setCoeff (k : Nat) (value : BitVec 16) : Pj Unit := Comp.modify fun s =>
  { s with coeffBuf := Function.update s.coeffBuf (zag.getD k 0) value }

/-- `n` coefficients that are 0, from coefficient `k` on. -/
def clearCoeffs : Nat → Nat → Pj Unit
  | 0, _ => pure ()
  | n + 1, k => do
    setCoeff k 0
    clearCoeffs n (k + 1)

/-- The loop that keeps the other coefficients, from coefficient `k` on. -/
def decodeACs (t : Fin 4) (quant : Nat → BitVec 16) : Nat → Nat → Pj Unit
  | 0, _ => pure ()
  | n + 1, k =>
    if k < 64 then do
      let symbol ← decodeSymbol t
      let extraBits ← receive (symbol &&& 0xF).toNat
      let r := (symbol >>> 4).toNat
      if symbol &&& 15 ≠ 0 then
        if r ≠ 0 then do
          Comp.check (k + r > 63) .decodeError
          clearCoeffs r k
          setCoeff (k + r) (huffExtend extraBits (symbol &&& 15) * quant (k + r))
          decodeACs t quant n (k + r + 1)
        else do
          setCoeff k (huffExtend extraBits (symbol &&& 15) * quant k)
          decodeACs t quant n (k + 1)
      else if r = 15 then do
        Comp.check (k + 16 > 64) .decodeError
        clearCoeffs 16 k
        decodeACs t quant n (k + 16)
      else clearCoeffs (64 - k) k
    else pure ()

/-! ## The pixel of a block -/

def clamp (b : Int) : UInt8 := if b < 0 then 0 else if b > 255 then 255 else UInt8.ofNat b.toNat

def addAndClamp (a : UInt8) (b : Int) : UInt8 := clamp (a.toNat + b)

def subAndClamp (a : UInt8) (b : Int) : UInt8 := clamp (a.toNat - b)

/-- The sample of a block that has only its first coefficient. -/
def descaled (coeff : BitVec 16) : UInt8 := clamp ((coeff.toInt + 64) >>> (7 : Nat) + 128)

def cbG (c : UInt8) : Int := ((c.toNat * 88) >>> 8 : Nat) - 44

def cbB (c : UInt8) : Int := (c.toNat + ((c.toNat * 198) >>> 8) : Nat) - 227

def crR (c : UInt8) : Int := (c.toNat + ((c.toNat * 103) >>> 8) : Nat) - 179

def crG (c : UInt8) : Int := ((c.toNat * 183) >>> 8 : Nat) - 91

/-- Where the luminance blocks of an MCU are in the buffers. -/
def lumaOffsets : ScanType → List Nat
  | .grayscale | .yh1v1 => [0]
  | .yh1v2 => [0, 128]
  | .yh2v1 => [0, 64]
  | .yh2v2 => [0, 64, 128, 192]

def setLuma (c : UInt8) (buf : Mcu) (offset : Nat) : Mcu where
  r := Function.update buf.r offset c
  g := Function.update buf.g offset c
  b := Function.update buf.b offset c

def addCb (c : UInt8) (buf : Mcu) (offset : Nat) : Mcu :=
  { buf with
    g := Function.update buf.g offset (subAndClamp (buf.g offset) (cbG c))
    b := Function.update buf.b offset (addAndClamp (buf.b offset) (cbB c)) }

def addCr (c : UInt8) (buf : Mcu) (offset : Nat) : Mcu :=
  { buf with
    r := Function.update buf.r offset (addAndClamp (buf.r offset) (crR c))
    g := Function.update buf.g offset (subAndClamp (buf.g offset) (crG c)) }

/-- The buffers once block `mcuBlock` with the sample `c` is in them: behind the luminance of an MCU
come its two chrominance blocks. -/
def transformBlockReduce (reduce : UInt8) (scan : ScanType) (mcuBlock : Nat) (c : UInt8)
    (buf : Mcu) : Mcu :=
  let offsets := lumaOffsets scan
  if reduce = 2 then
    match offsets[mcuBlock]? with
    | some offset => { buf with r := Function.update buf.r offset c }
    | none => buf
  else if scan = .grayscale then { buf with r := Function.update buf.r 0 c }
  else
    match offsets[mcuBlock]? with
    | some offset => setLuma c buf offset
    | none =>
      if mcuBlock = offsets.length then offsets.foldl (addCb c) buf
      else if mcuBlock = offsets.length + 1 then offsets.foldl (addCr c) buf
      else buf

/-- Neutral chrominance leaves a pixel grey. -/
example : (transformBlockReduce 1 .yh1v1 2 128 (transformBlockReduce 1 .yh1v1 1 128
    (transformBlockReduce 1 .yh1v1 0 128 Core.zeroed))).pixel 0 = ⟨128, 128, 128⟩ := by decide

/-- Another one colours it. -/
example : (transformBlockReduce 1 .yh1v1 2 200 (transformBlockReduce 1 .yh1v1 1 90
    (transformBlockReduce 1 .yh1v1 0 100 Core.zeroed))).pixel 0 = ⟨201, 63, 32⟩ := by decide

/-! ## `pjpeg_decode_mcu` -/

/-- The entropy-coded data of a block. -/
def decodeCoeffs (componentID : Nat) : Pj Unit := do
  decodeDC componentID
  let s ← Comp.get
  skipACs (acTable (s.scan.compACTab componentID)) 63 1

def decodeBlock (componentID mcuBlock : Nat) : Pj Unit := do
  decodeCoeffs componentID
  Comp.modify fun s => { s with
    mcuBuf := transformBlockReduce s.reduce s.layout.scanType mcuBlock (descaled (s.coeffBuf 0))
      s.mcuBuf }

/-- The blocks of an MCU from block `mcuBlock` on. -/
def decodeBlocks : List Nat → Nat → Pj Unit
  | [], _ => pure ()
  | componentID :: org, mcuBlock => do
    decodeBlock componentID mcuBlock
    decodeBlocks org (mcuBlock + 1)

def nextChar : Pj UInt8 := fun s =>
  .done (getChar s.reader.input).1
    (s.withReader { s.reader with input := (getChar s.reader.input).2 })

/-- The first loop of `processRestart`: what is left of `i`. -/
def seekRestart : Nat → Pj Nat
  | 0 => Comp.fail .badRestartMarker
  | i + 1 => do
    let c ← nextChar
    if c = 0xFF then pure (i + 1) else seekRestart i

def skipRestart : Nat → Pj UInt8
  | 0 => Comp.fail .badRestartMarker
  | i + 1 => do
    let c ← nextChar
    if c ≠ 0xFF then pure c else skipRestart i

def processRestart : Pj Unit := do
  let i ← seekRestart 1536
  let c ← skipRestart i
  let s ← Comp.get
  Comp.check (c.toNat ≠ s.restarts.nextRestartNum + 0xD0) .badRestartMarker
  Comp.modify fun s => { s with
    lastDC := noDC
    restarts := { s.restarts with
      restartsLeft := s.restarts.restartInterval
      nextRestartNum := (s.restarts.nextRestartNum + 1) &&& 7 }
    reader := getBits8Twice true s.reader }

def takeRestart : Pj Unit := Comp.modify fun s =>
  { s with restarts := { s.restarts with restartsLeft := s.restarts.restartsLeft - 1 } }

def countRestarts : Pj Unit := do
  let s ← Comp.get
  if s.restarts.restartInterval ≠ 0 then
    if s.restarts.restartsLeft = 0 then do
      processRestart
      takeRestart
    else takeRestart
  else pure ()

def decodeNextMCU : Pj Unit := do
  countRestarts
  let s ← Comp.get
  decodeBlocks s.layout.mcuOrg 0

def countMcu : Pj Unit := Comp.modify fun s =>
  if s.numMCUSRemainingX - 1 = 0 then
    { s with
      numMCUSRemainingX :=
        if s.numMCUSRemainingY - 1 > 0 then s.layout.maxMCUSPerRow else s.numMCUSRemainingX - 1
      numMCUSRemainingY := s.numMCUSRemainingY - 1 }
  else { s with numMCUSRemainingX := s.numMCUSRemainingX - 1 }

def pjpegDecodeMcu : Pj Unit := do
  let s ← Comp.get
  Comp.check (s.numMCUSRemainingX = 0 ∧ s.numMCUSRemainingY = 0) .noMoreBlocks
  decodeNextMCU
  countMcu

/-! ## Every call ends within its memory -/

/-- Everything is as it was that the headers have set. -/
structure SameHeader (s s' : Pico) : Prop where
  frame : s'.frame = s.frame
  layout : s'.layout = s.layout
  remainingX : s'.numMCUSRemainingX = s.numMCUSRemainingX
  remainingY : s'.numMCUSRemainingY = s.numMCUSRemainingY
  tables : s'.tables = s.tables
  scan : s'.scan = s.scan
  reduce : s'.reduce = s.reduce

instance : IsPreorder Pico SameHeader where
  refl _ := ⟨rfl, rfl, rfl, rfl, rfl, rfl, rfl⟩
  trans _ _ _ h h' := ⟨h'.frame.trans h.frame, h'.layout.trans h.layout,
    h'.remainingX.trans h.remainingX, h'.remainingY.trans h.remainingY,
    h'.tables.trans h.tables, h'.scan.trans h.scan, h'.reduce.trans h.reduce⟩

/-- The buffers of the image are as they were, too. -/
structure SameImage (s s' : Pico) : Prop extends SameHeader s s' where
  mcuBuf : s'.mcuBuf = s.mcuBuf

instance : IsPreorder Pico SameImage where
  refl s := ⟨refl s, rfl⟩
  trans _ _ _ h h' := ⟨IsTrans.trans _ _ _ h.toSameHeader h'.toSameHeader,
    h'.mcuBuf.trans h.mcuBuf⟩

/-- What the entropy-coded data can be found to be. -/
def IsScanStatus (e : Status) : Prop := e = .decodeError ∨ e = .badRestartMarker

abbrev Decodes {α : Type} (R : Pico → Pico → Prop) (m : Pj α) : Prop :=
  Keeps Pico.TablesSafe R IsScanStatus (fun _ => False) m

variable {s s' : Pico} {n : Nat}

theorem decodeSymbol_decodes (t : Fin 4) : Decodes SameImage (decodeSymbol t) := by
  intro s hs
  obtain ⟨⟨value, r⟩, hdecode⟩ := Option.isSome_iff_exists.1 (hs t (s.tables.huffVal t) s.reader)
  have hdone : decodeSymbol t s = .done value (s.withReader r) := by
    rw [decodeSymbol, hdecode]
  exact .of_done hdone ⟨hs, ⟨rfl, rfl, rfl, rfl, rfl, rfl, rfl⟩, rfl⟩

theorem receive_decodes (numExtraBits : Nat) : Decodes SameImage (receive numExtraBits) := by
  intro s hs
  by_cases h0 : numExtraBits ≠ 0
  · exact .of_done (if_pos h0) ⟨hs, ⟨rfl, rfl, rfl, rfl, rfl, rfl, rfl⟩, rfl⟩
  · exact .of_done (if_neg h0) ⟨hs, ⟨rfl, rfl, rfl, rfl, rfl, rfl, rfl⟩, rfl⟩

theorem decodeDC_decodes (componentID : Nat) : Decodes SameImage (decodeDC componentID) :=
  Keeps.get.bind fun _ => (decodeSymbol_decodes _).bind fun _ => (receive_decodes _).bind fun _ =>
    Keeps.modify fun _ hs => ⟨hs, ⟨rfl, rfl, rfl, rfl, rfl, rfl, rfl⟩, rfl⟩

theorem skipACs_decodes (t : Fin 4) (n k : Nat) : Decodes SameImage (skipACs t n k) := by
  induction n generalizing k with
  | zero => exact Keeps.pure ()
  | succ n ih =>
    refine Keeps.ite (fun _ => ?_) fun _ => Keeps.pure ()
    refine (decodeSymbol_decodes t).bind fun _ => (receive_decodes _).bind fun _ => ?_
    refine Keeps.ite (fun _ => ?_) fun _ => ?_
    · exact Keeps.ite (fun _ => (Keeps.check (.inl rfl)).bind fun _ => ih _) fun _ => ih _
    · exact Keeps.ite (fun _ => (Keeps.check (.inl rfl)).bind fun _ => ih _) fun _ => Keeps.pure ()

theorem decodeCoeffs_decodes (componentID : Nat) :
    Decodes SameImage (decodeCoeffs componentID) :=
  (decodeDC_decodes _).bind fun _ => Keeps.get.bind fun _ => skipACs_decodes _ _ _

theorem decodeBlocks_decodes (org : List Nat) (mcuBlock : Nat) :
    Decodes SameHeader (decodeBlocks org mcuBlock) := by
  induction org generalizing mcuBlock with
  | nil => exact Keeps.pure ()
  | cons componentID org ih =>
    have hcoeffs := (decodeCoeffs_decodes componentID).mono fun _ _ h => h.toSameHeader
    have hblock : Decodes SameHeader (decodeBlock componentID mcuBlock) := hcoeffs.bind fun _ =>
      Keeps.modify fun _ hs => ⟨hs, rfl, rfl, rfl, rfl, rfl, rfl, rfl⟩
    exact hblock.bind fun _ => ih _

theorem nextChar_decodes : Decodes SameImage nextChar := fun _ hs =>
  .of_done rfl ⟨hs, ⟨rfl, rfl, rfl, rfl, rfl, rfl, rfl⟩, rfl⟩

theorem seekRestart_decodes (i : Nat) : Decodes SameImage (seekRestart i) := by
  induction i with
  | zero => exact Keeps.fail (.inr rfl)
  | succ i ih =>
    exact nextChar_decodes.bind fun _ => Keeps.ite (fun _ => Keeps.pure _) fun _ => ih

theorem skipRestart_decodes (i : Nat) : Decodes SameImage (skipRestart i) := by
  induction i with
  | zero => exact Keeps.fail (.inr rfl)
  | succ i ih =>
    exact nextChar_decodes.bind fun _ => Keeps.ite (fun _ => Keeps.pure _) fun _ => ih

theorem processRestart_decodes : Decodes SameImage processRestart :=
  (seekRestart_decodes _).bind fun _ => (skipRestart_decodes _).bind fun _ =>
    Keeps.get.bind fun _ => (Keeps.check (.inr rfl)).bind fun _ =>
    Keeps.modify fun _ hs => ⟨hs, ⟨rfl, rfl, rfl, rfl, rfl, rfl, rfl⟩, rfl⟩

theorem countRestarts_decodes : Decodes SameImage countRestarts := by
  have htake : Decodes SameImage takeRestart :=
    Keeps.modify fun _ hs => ⟨hs, ⟨rfl, rfl, rfl, rfl, rfl, rfl, rfl⟩, rfl⟩
  exact Keeps.get.bind fun _ => Keeps.ite (fun _ => Keeps.ite
    (fun _ => processRestart_decodes.bind fun _ => htake) fun _ => htake) fun _ => Keeps.pure ()

theorem decodeNextMCU_decodes : Decodes SameHeader decodeNextMCU :=
  (countRestarts_decodes.mono fun _ _ h => h.toSameHeader).bind fun _ => Keeps.get.bind fun _ =>
    decodeBlocks_decodes _ _

/-! ## How many MCUs there are -/

/-- `n` calls of `pjpeg_decode_mcu` that all succeed. -/
def decodeMcus : Nat → Pj Unit
  | 0 => pure ()
  | n + 1 => do
    decodeMcus n
    pjpegDecodeMcu

/-- How many MCUs are still to come. -/
def Pico.mcusLeft (s : Pico) : Nat :=
  (s.numMCUSRemainingY - 1) * s.layout.maxMCUSPerRow + s.numMCUSRemainingX

/-- The counters are within the image, or both at their end. -/
def Pico.Counting (s : Pico) : Prop :=
  1 ≤ s.numMCUSRemainingX ∧ s.numMCUSRemainingX ≤ s.layout.maxMCUSPerRow ∧
      1 ≤ s.numMCUSRemainingY ∨
    s.numMCUSRemainingX = 0 ∧ s.numMCUSRemainingY = 0

theorem countMcu_left (h : s.Counting) (hmore : s.mcusLeft ≠ 0) :
    Ensures countMcu s (fun _ s' => s'.Counting ∧ s'.mcusLeft + 1 = s.mcusLeft ∧
        s'.layout = s.layout ∧ s'.tables = s.tables) (fun (_ : Status) _ => False)
      fun _ => False := by
  refine .modify ?_
  rcases h with ⟨hx, hrow, hy⟩ | ⟨hx, hy⟩
  swap
  · rw [Pico.mcusLeft, hx, hy, Nat.zero_sub, Nat.zero_mul] at hmore
    exact absurd rfl hmore
  by_cases hlast : s.numMCUSRemainingX - 1 = 0
  · rw [if_pos hlast]
    by_cases hrows : s.numMCUSRemainingY - 1 > 0
    · refine ⟨.inl ?_, ?_, rfl, rfl⟩
      · simp only [if_pos hrows]
        omega
      · have hsucc : s.numMCUSRemainingY - 1 = s.numMCUSRemainingY - 1 - 1 + 1 := by omega
        simp only [Pico.mcusLeft, if_pos hrows]
        rw [hsucc, Nat.add_mul, Nat.add_sub_cancel]
        omega
    · have hzero : s.numMCUSRemainingY - 1 = 0 := by omega
      refine ⟨.inr ?_, ?_, rfl, rfl⟩
      · simp only [if_neg hrows]
        omega
      · simp only [Pico.mcusLeft, if_neg hrows]
        rw [hzero, Nat.zero_sub, Nat.zero_mul, hlast]
        omega
  · rw [if_neg hlast]
    refine ⟨.inl ?_, ?_, rfl, rfl⟩
    · dsimp only
      omega
    · simp only [Pico.mcusLeft]
      omega

/-- One call takes one MCU off, and says that there are no more of them only where there are
none. -/
theorem pjpegDecodeMcu_left (h : s.Counting) (hsafe : s.TablesSafe) :
    Ensures pjpegDecodeMcu s
      (fun _ s' => (s'.Counting ∧ s'.TablesSafe) ∧ s'.mcusLeft + 1 = s.mcusLeft)
      (fun e _ => e = .noMoreBlocks ↔ s.mcusLeft = 0) fun _ => False := by
  have hleft : (s.numMCUSRemainingX = 0 ∧ s.numMCUSRemainingY = 0) ↔ s.mcusLeft = 0 := by
    rw [Pico.mcusLeft]
    rcases h with ⟨hx, -, -⟩ | ⟨hx, hy⟩
    · exact ⟨fun h' => by omega, fun h' => by omega⟩
    · rw [hx, hy]
      exact ⟨fun _ => by rw [Nat.zero_sub, Nat.zero_mul], fun _ => ⟨rfl, rfl⟩⟩
  refine .bind (.get (.bind (.check (fun hnone => ?_) fun hmore => ?_)))
  · exact ⟨fun _ => hleft.1 hnone, fun _ => rfl⟩
  rw [hleft] at hmore
  refine .bind ((decodeNextMCU_decodes s hsafe).mono (fun _ s₁ h₁ => ?_) (fun e _ h => ?_)
    fun _ h => h)
  · obtain ⟨hsafe₁, hsame⟩ := h₁
    have hcounting : s₁.Counting := by
      unfold Pico.Counting
      rwa [hsame.remainingX, hsame.remainingY, hsame.layout]
    have hsameLeft : s₁.mcusLeft = s.mcusLeft := by
      rw [Pico.mcusLeft, Pico.mcusLeft, hsame.remainingX, hsame.remainingY, hsame.layout]
    refine (countMcu_left hcounting (hsameLeft ▸ hmore)).mono (fun _ s₂ h₂ => ?_)
      (fun _ _ h => h.elim) fun _ h => h
    exact ⟨⟨h₂.1, fun i => by rw [h₂.2.2.2]; exact hsafe₁ i⟩, h₂.2.1.trans hsameLeft⟩
  · refine ⟨fun hnone => ?_, fun hnone => absurd hnone hmore⟩
    rw [hnone] at h
    rcases h.1 with h' | h' <;> cases h'

/-- The counters after `n` calls. -/
theorem decodeMcus_left (h : s.Counting) (hsafe : s.TablesSafe) (n : Nat) :
    Ensures (decodeMcus n) s
      (fun _ s' => (s'.Counting ∧ s'.TablesSafe) ∧ s'.mcusLeft + n = s.mcusLeft)
      (fun _ _ => True) fun _ => False := by
  induction n with
  | zero => exact .pure ⟨⟨h, hsafe⟩, rfl⟩
  | succ n ih =>
    refine .bind (ih.mono (fun _ s₁ h₁ => ?_) (fun _ _ h => h) fun _ h => h)
    refine (pjpegDecodeMcu_left h₁.1.1 h₁.1.2).mono (fun _ s₂ h₂ => ⟨h₂.1, ?_⟩)
      (fun _ _ _ => trivial) fun _ h => h
    have hleft := h₁.2
    have hone := h₂.2
    omega

theorem Pico.Started.counting (h : s.Started) :
    s.Counting ∧ s.mcusLeft = s.info.mcusPerCol * s.info.mcusPerRow := by
  have hrow : 1 ≤ s.info.mcusPerRow ∧ 1 ≤ s.info.mcusPerCol := by
    have hwidth : 1 ≤ s.info.width := h.frame.width.1
    have hheight : 1 ≤ s.info.height := h.frame.height.1
    rw [ImageInfo.mcusPerRow, ImageInfo.mcusPerCol, Nat.shiftRight_eq_div_pow,
      Nat.shiftRight_eq_div_pow, ImageInfo.mcuWidth, ImageInfo.mcuHeight]
    obtain ⟨hw | hw, hh | hh⟩ := s.info.scanType.sizes
    all_goals
      rw [hw, hh]
      simp only [if_true, Nat.reduceEqDiff, if_false]
      omega
  refine ⟨.inl ⟨?_, ?_, ?_⟩, ?_⟩
  · rw [h.laidOut.remainingX]
    exact hrow.1
  · rw [h.laidOut.remainingX, h.laidOut.perRow]
  · rw [h.laidOut.remainingY]
    exact hrow.2
  · obtain ⟨y, hy⟩ : ∃ y, s.info.mcusPerCol = y + 1 := ⟨s.info.mcusPerCol - 1, by omega⟩
    rw [Pico.mcusLeft, h.laidOut.remainingX, h.laidOut.remainingY, h.laidOut.perRow, hy,
      Nat.add_sub_cancel, Nat.add_mul, Nat.one_mul]

/-- **An image has as many MCUs as its header says.** After that many calls that all succeeded, and
not before, a call finds no more of them. -/
theorem decodeMcus_count (h : s.Started) (hrun : decodeMcus n s = .done () s') :
    n ≤ s.info.mcusPerCol * s.info.mcusPerRow ∧
      (n = s.info.mcusPerCol * s.info.mcusPerRow ↔
        ∃ s'', pjpegDecodeMcu s' = .fail .noMoreBlocks s'') := by
  obtain ⟨hcounting, htotal⟩ := h.counting
  obtain ⟨⟨hcounting', hsafe'⟩, hleft⟩ := (decodeMcus_left hcounting h.tables n).done hrun
  rw [htotal] at hleft
  have hcall := pjpegDecodeMcu_left hcounting' hsafe'
  refine ⟨by omega, fun hn => ?_, fun hfail => ?_⟩
  · refine ⟨s', ?_⟩
    have hx : s'.numMCUSRemainingX = 0 ∧ s'.numMCUSRemainingY = 0 := by
      rcases hcounting' with ⟨hx, -, -⟩ | hx
      · rw [Pico.mcusLeft] at hleft
        omega
      · exact hx
    simp only [pjpegDecodeMcu, bind_apply, Comp.get, Outcome.bind, Comp.check, if_pos hx]
    rfl
  · obtain ⟨s'', hfail⟩ := hfail
    unfold Ensures at hcall
    rw [hfail] at hcall
    have hzero := hcall.1 rfl
    omega

/-! ## The loop that keeps the coefficients -/

/-- Everything but the coefficients behind the first is the same. -/
structure SameFirst (s s' : Pico) : Prop where
  rest : { s with coeffBuf := s'.coeffBuf } = s'
  first : s.coeffBuf 0 = s'.coeffBuf 0

/-- What the entropy decoder works on is the same in related states. -/
structure Blind (r : Pico → Pico → Prop) : Prop where
  reader : ∀ {s s'}, r s s' → s.reader = s'.reader
  tables : ∀ {s s'}, r s s' → s.tables = s'.tables
  next : ∀ {s s'}, r s s' → ∀ reader, r (s.withReader reader) (s'.withReader reader)

theorem sameFirst_blind : Blind SameFirst where
  reader h := by rw [← h.rest]
  tables h := by rw [← h.rest]
  next h reader := by
    refine ⟨?_, h.first⟩
    rw [← h.rest]
    rfl

variable {r : Pico → Pico → Prop}

theorem decodeSymbol_sim (hr : Blind r) (t : Fin 4) :
    Sim r (decodeSymbol t) (decodeSymbol t) := by
  intro s s' h
  unfold decodeSymbol
  rw [hr.reader h, hr.tables h]
  cases huffDecode (s'.tables.huffTab t) (s'.tables.huffVal t) s'.reader with
  | none => exact .stop _
  | some found => exact .done _ (hr.next h _)

theorem receive_sim (hr : Blind r) (numExtraBits : Nat) :
    Sim r (receive numExtraBits) (receive numExtraBits) := by
  intro s s' h
  unfold receive
  rw [hr.reader h]
  split
  · exact .done _ (hr.next h _)
  · exact .done _ h

/-- The places of the coefficients behind the first. -/
theorem zag_pos {k : Nat} (h1 : 1 ≤ k) (h : k < 64) : zag.getD k 0 ≠ 0 := by
  have hall : ∀ k < 64, 1 ≤ k → zag.getD k 0 ≠ 0 := by decide
  exact hall k h h1

theorem setCoeff_right {k : Nat} (h1 : 1 ≤ k) (hk : k < 64) (value : BitVec 16)
    (h : SameFirst s s') : ∃ s'', setCoeff k value s' = .done () s'' ∧ SameFirst s s'' := by
  refine ⟨_, rfl, ?_, ?_⟩
  · rw [← h.rest]
  · rw [h.first]
    exact (Function.update_of_ne (zag_pos h1 hk).symm _ _).symm

theorem clearCoeffs_right (n : Nat) {k : Nat} (h1 : 1 ≤ k) (hk : k + n ≤ 64)
    (h : SameFirst s s') : ∃ s'', clearCoeffs n k s' = .done () s'' ∧ SameFirst s s'' := by
  induction n generalizing k s' with
  | zero => exact ⟨s', rfl, h⟩
  | succ n ih =>
    obtain ⟨s₁, hset, h₁⟩ := setCoeff_right h1 (by omega) 0 h
    obtain ⟨s₂, hclear, h₂⟩ := ih (show 1 ≤ k + 1 by omega) (by omega) h₁
    exact ⟨s₂, by rw [clearCoeffs, bind_done hset, hclear], h₂⟩

/-- Passing over the coefficients from `k` on takes what decoding them takes. -/
theorem skipACs_decodeACs (t : Fin 4) (quant : Nat → BitVec 16) (n : Nat) {k : Nat} (h1 : 1 ≤ k) :
    Sim SameFirst (skipACs t n k) (decodeACs t quant n k) := by
  induction n generalizing k with
  | zero => exact Sim.pure ()
  | succ n ih =>
    refine Sim.ite (fun hk => ?_) fun _ => Sim.pure ()
    refine (decodeSymbol_sim sameFirst_blind t).bind fun symbol =>
      (receive_sim sameFirst_blind _).bind fun extraBits => ?_
    refine Sim.ite (fun _ => Sim.ite (fun _ => ?_) fun _ => ?_) fun _ => Sim.ite (fun _ => ?_)
      fun _ => ?_
    · refine Sim.checked fun hroom => ?_
      exact (Sim.right (fun _ _ => setCoeff_right (by omega) (by omega) _)
        (ih (by omega))).right fun _ _ => clearCoeffs_right _ h1 (by omega)
    · exact (ih (by omega)).right fun _ _ => setCoeff_right h1 hk _
    · refine Sim.checked fun hroom => ?_
      exact (ih (by omega)).right fun _ _ => clearCoeffs_right _ h1 (by omega)
    · intro s s' h
      obtain ⟨s'', hclear, h'⟩ := clearCoeffs_right (64 - k) h1 (by omega) h
      rw [hclear]
      exact .done () h'

/-- The entropy-coded data of a block where all of its coefficients are kept. -/
def decodeAllCoeffs (componentID : Nat) : Pj Unit := do
  decodeDC componentID
  let s ← Comp.get
  decodeACs (acTable (s.scan.compACTab componentID)) (s.quantOf componentID) 63 1

/-- **A reduced decode takes what a whole one takes**: from every state the same bits with the same
status, and nothing but the coefficients behind the first differs afterwards. -/
theorem decodeCoeffs_all (componentID : Nat) (s : Pico) :
    (decodeCoeffs componentID s).Related SameFirst (decodeAllCoeffs componentID s) := by
  rw [decodeCoeffs, decodeAllCoeffs, bind_apply, bind_apply]
  cases decodeDC componentID s with
  | done value s₁ =>
    exact skipACs_decodeACs (acTable (s₁.scan.compACTab componentID)) (s₁.quantOf componentID) 63
      (Nat.le_refl 1) s₁ s₁ ⟨rfl, rfl⟩
  | fail e s₁ => exact .fail e ⟨rfl, rfl⟩
  | stop why => exact .stop why

end RetroLens.Jpeg
