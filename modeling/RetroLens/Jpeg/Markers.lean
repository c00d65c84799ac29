import RetroLens.Core.ReducedJpeg
import RetroLens.Jpeg.Huffman
import RetroLens.Lib.Comp

/-!
# The markers in front of the image

`pjpeg_decode_init` reads the segments up to the start of the scan into
picojpeg's statics. `processMarkers` looks for the next marker and ignores what
the segments of tables return, so that it goes on within a segment that was
wrong. The loops that look for a marker have no bound of their own; here they
have `fuel` passes.
-/

namespace RetroLens.Jpeg

open Text Bits CanonicalCode Checked Comps RetroLens.Core

inductive Status where
  | noMoreBlocks
  | badDhtCounts
  | badDhtIndex
  | badDhtMarker
  | badDqtMarker
  | badDqtTable
  | badPrecision
  | badHeight
  | badWidth
  | tooManyComponents
  | badSofLength
  | badVariableMarker
  | badDriLength
  | badSosLength
  | badSosCompId
  | noArithmiticSupport
  | unexpectedMarker
  | notJpeg
  | unsupportedMarker
  | badDqtLength
  | undefinedQuantTable
  | undefinedHuffTable
  | unsupportedColorspace
  | unsupportedSampFactors
  | decodeError
  | badRestartMarker
  | unsupportedQuantTable
  | unsupportedMode
  deriving DecidableEq, Repr

/-! ## The statics -/

/-- The elements of `gHuffVal0` to `gHuffVal3`. -/
def huffValSize (t : Fin 4) : Nat := if t < 2 then 16 else 256

structure Tables where
  /-- 0 and 1 are for DC, 2 and 3 for AC. -/
  huffTab : Fin 4 → HuffTable
  huffVal : (t : Fin 4) → Buffer UInt8 (huffValSize t)
  validHuffTables : Nat
  quant : Fin 2 → Nat → BitVec 16
  validQuantTables : Nat

/-- What `readSOFMarker` reads. -/
structure FrameHeader where
  imageXSize : Nat
  imageYSize : Nat
  compsInFrame : Nat
  compIdent : Nat → UInt8
  compHSamp : Nat → UInt8
  compVSamp : Nat → UInt8
  compQuant : Nat → UInt8

/-- What `readSOSMarker` reads. -/
structure ScanHeader where
  compsInScan : Nat
  compList : Nat → Nat
  compDCTab : Nat → UInt8
  compACTab : Nat → UInt8

/-- What `initFrame` makes of the header: `gMCUOrg` has an element for each block of an MCU. -/
structure McuLayout where
  scanType : ScanType
  mcuOrg : List Nat
  maxMCUXSize : Nat
  maxMCUYSize : Nat
  maxMCUSPerRow : Nat
  maxMCUSPerCol : Nat

structure Restarts where
  restartInterval : Nat
  nextRestartNum : Nat
  restartsLeft : Nat

structure Pico where
  reader : BitReader
  tables : Tables
  frame : FrameHeader
  scan : ScanHeader
  layout : McuLayout
  restarts : Restarts
  numMCUSRemainingX : Nat
  numMCUSRemainingY : Nat
  lastDC : Nat → BitVec 16
  coeffBuf : Nat → BitVec 16
  mcuBuf : Mcu
  reduce : UInt8

abbrev Pj := Comp Status Pico

/-! ## Reading -/

def read (numBits : Nat) : Pj (BitVec 16) := fun s =>
  .done (getBits1 numBits s.reader).1 { s with reader := (getBits1 numBits s.reader).2 }

def toByte (x : BitVec 16) : UInt8 := UInt8.ofBitVec (x.setWidth 8)

/-- `(uint8)getBits1(8)`. -/
def readByte : Pj UInt8 := do
  let x ← read 8
  pure (toByte x)

def readBytes : Nat → Pj Bytes
  | 0 => pure []
  | n + 1 => do
    let c ← readByte
    let rest ← readBytes n
    pure (c :: rest)

/-! ## The tables -/

def Pico.withTables (s : Pico) (tables : Tables) : Pico := { s with tables := tables }

def setTables (f : Tables → Tables) : Pj Unit := Comp.modify fun s => s.withTables (f s.tables)

def tableIndex (index : UInt8) : Fin 4 :=
  ⟨(((index >>> 3) &&& 2) + (index &&& 1)).toNat % 4, Nat.mod_lt _ (by decide)⟩

def getMaxHuffCodes (t : Fin 4) : Nat := if t < 2 then 12 else 255

/-- The counts of the code words as `uint8 bits[16]`. -/
def bitsOf (counts : Bytes) (i : Nat) : UInt8 := counts.getD i 0

def storeVals (t : Fin 4) (data : Bytes) : Pj Unit := do
  let s ← Comp.get
  let vals ← Comp.inside ((s.tables.huffVal t).copy 0 data)
  setTables fun b => { b with huffVal := Function.update b.huffVal t vals }

def createTable (t : Fin 4) (bits : Nat → UInt8) : Pj Unit := do
  let s ← Comp.get
  let table ← Comp.inside (huffCreate bits (s.tables.huffVal t) (s.tables.huffTab t))
  setTables fun b => { b with huffTab := Function.update b.huffTab t table }

/-- The loop of `readDHTMarker`; every pass takes something off `left`. -/
def readHuffTables : Nat → Nat → Pj Unit
  | 0, _ => pure ()
  | n + 1, left =>
    if left = 0 then pure ()
    else do
      let index ← readByte
      Comp.check (index &&& 0xF > 1 ∨ index &&& 0xF0 > 0x10) .badDhtIndex
      let t := tableIndex index
      setTables fun b => { b with validHuffTables := b.validHuffTables ||| 1 <<< t.val }
      let bits ← readBytes 16
      let count := (bits.map UInt8.toNat).sum
      Comp.check (count > getMaxHuffCodes t) .badDhtCounts
      let data ← readBytes count
      storeVals t data
      let totalRead := 1 + 16 + count
      Comp.check (left < totalRead) .badDhtMarker
      createTable t (bitsOf bits)
      readHuffTables n (left - totalRead)

def readDHTMarker : Pj Unit := do
  let left ← read 16
  Comp.check (left.toNat < 2) .badDhtMarker
  readHuffTables (left.toNat - 2) (left.toNat - 2)

def winogradQuant : List Int :=
  [128, 178, 178, 167, 246, 167, 151, 232, 232, 151, 128, 209, 219, 209, 128, 101,
    178, 197, 197, 178, 101, 69, 139, 167, 177, 167, 139, 69, 35, 96, 131, 151,
    151, 131, 96, 35, 49, 91, 118, 128, 118, 91, 49, 46, 81, 101, 101, 81,
    46, 42, 69, 79, 69, 42, 35, 54, 54, 35, 28, 37, 28, 19, 19, 10]

def createWinogradQuant (quant : Nat → BitVec 16) (i : Nat) : BitVec 16 :=
  if i < 64 then BitVec.ofInt 16 (((quant i).toInt * winogradQuant.getD i 0 + 4) >>> (3 : Nat))
  else quant i

/-- One entry of a quantization table, of two bytes where `prec` is not 0. -/
def readQuant (prec : UInt8) : Pj (BitVec 16) := do
  let temp ← read 8
  if prec ≠ 0 then do
    let low ← read 8
    pure (temp <<< 8 + low)
  else pure temp

/-- The entries of table `n` from entry `i` on. -/
def readQuants (n : Fin 2) (prec : UInt8) : Nat → Nat → Pj Unit
  | 0, _ => pure ()
  | m + 1, i => do
    let temp ← readQuant prec
    setTables fun b =>
      { b with quant := Function.update b.quant n (Function.update (b.quant n) i temp) }
    readQuants n prec m (i + 1)

/-- The loop of `readDQTMarker`; every pass takes something off `left`. -/
def readQuantTables : Nat → Nat → Pj Unit
  | 0, _ => pure ()
  | m + 1, left =>
    if left = 0 then pure ()
    else do
      let byte ← readByte
      let prec := byte >>> 4
      Comp.check (byte &&& 0x0F > 1) .badDqtTable
      let n : Fin 2 := if byte &&& 0x0F ≠ 0 then 1 else 0
      setTables fun b =>
        { b with validQuantTables := b.validQuantTables ||| (if n = 1 then 2 else 1) }
      readQuants n prec 64 0
      setTables fun b =>
        { b with quant := Function.update b.quant n (createWinogradQuant (b.quant n)) }
      let totalRead := 64 + 1 + if prec ≠ 0 then 64 else 0
      Comp.check (left < totalRead) .badDqtLength
      readQuantTables m (left - totalRead)

def readDQTMarker : Pj Unit := do
  let left ← read 16
  Comp.check (left.toNat < 2) .badDqtMarker
  readQuantTables (left.toNat - 2) (left.toNat - 2)

/-! ## The headers -/

def setFrame (f : FrameHeader → FrameHeader) : Pj Unit :=
  Comp.modify fun s => { s with frame := f s.frame }

/-- The components of a frame from component `i` on. -/
def readComps : Nat → Nat → Pj Unit
  | 0, _ => pure ()
  | n + 1, i => do
    let ident ← readByte
    let h ← read 4
    let v ← read 4
    let quant ← readByte
    setFrame fun f => { f with
      compIdent := Function.update f.compIdent i ident
      compHSamp := Function.update f.compHSamp i (toByte h)
      compVSamp := Function.update f.compVSamp i (toByte v)
      compQuant := Function.update f.compQuant i quant }
    Comp.check (quant > 1) .unsupportedQuantTable
    readComps n (i + 1)

/-- `PJPG_MAX_WIDTH` and `PJPG_MAX_HEIGHT`. -/
def maxSize : Nat := 16384

def readSOFMarker : Pj Unit := do
  let left ← read 16
  let precision ← read 8
  Comp.check (precision ≠ 8) .badPrecision
  let height ← read 16
  setFrame fun f => { f with imageYSize := height.toNat }
  Comp.check (height = 0 ∨ height.toNat > maxSize) .badHeight
  let width ← read 16
  setFrame fun f => { f with imageXSize := width.toNat }
  Comp.check (width = 0 ∨ width.toNat > maxSize) .badWidth
  let comps ← readByte
  setFrame fun f => { f with compsInFrame := comps.toNat }
  Comp.check (comps > 3) .tooManyComponents
  Comp.check (left.toNat ≠ comps.toNat + comps.toNat + comps.toNat + 8) .badSofLength
  readComps comps.toNat 0

def skipVariableMarker : Pj Unit := do
  let left ← read 16
  Comp.check (left.toNat < 2) .badVariableMarker
  let _ ← readBytes (left.toNat - 2)
  pure ()

def readDRIMarker : Pj Unit := do
  let length ← read 16
  Comp.check (length ≠ 4) .badDriLength
  let interval ← read 16
  Comp.modify fun s => { s with restarts := { s.restarts with restartInterval := interval.toNat } }

/-- The first component of the frame with an identifier, or the number of components. -/
def findComp (frame : FrameHeader) (cc : UInt8) : Nat :=
  ((List.range frame.compsInFrame).find? fun ci => cc == frame.compIdent ci).getD
    frame.compsInFrame

def setScan (f : ScanHeader → ScanHeader) : Pj Unit :=
  Comp.modify fun s => { s with scan := f s.scan }

/-- The components of a scan from component `i` on. -/
def readScanComps : Nat → Nat → Pj Unit
  | 0, _ => pure ()
  | n + 1, i => do
    let cc ← readByte
    let c ← readByte
    let s ← Comp.get
    let ci := findComp s.frame cc
    Comp.check (ci ≥ s.frame.compsInFrame) .badSosCompId
    setScan fun h => { h with
      compList := Function.update h.compList i ci
      compDCTab := Function.update h.compDCTab ci ((c >>> 4) &&& 15)
      compACTab := Function.update h.compACTab ci (c &&& 15) }
    readScanComps n (i + 1)

def readSOSMarker : Pj Unit := do
  let left ← read 16
  let comps ← readByte
  setScan fun h => { h with compsInScan := comps.toNat }
  let left := left - 3
  Comp.check (left.toNat ≠ comps.toNat + comps.toNat + 3 ∨ comps < 1 ∨ comps > 3) .badSosLength
  readScanComps comps.toNat 0
  let left := left.toNat - 2 * comps.toNat
  let _ ← readByte
  let _ ← readByte
  let _ ← read 4
  let _ ← read 4
  let _ ← readBytes (left - 3)
  pure ()

/-! ## Looking for markers -/

def seekFF : Nat → Pj Unit
  | 0 => Comp.stop .unending
  | n + 1 => do
    let c ← readByte
    if c = 0xFF then pure () else seekFF n

def skipFF : Nat → Pj UInt8
  | 0 => Comp.stop .unending
  | n + 1 => do
    let c ← readByte
    if c = 0xFF then skipFF n else pure c

def nextMarker (fuel : Nat) : Nat → Pj UInt8
  | 0 => Comp.stop .unending
  | n + 1 => do
    seekFF fuel
    let c ← skipFF fuel
    if c = 0 then nextMarker fuel n else pure c

/-- What `processMarkers` returns for: SOF0 to SOF15 without DHT, JPG and DAC, SOI, EOI and SOS. -/
def isReturned (c : UInt8) : Bool :=
  (0xC0 ≤ c && c ≤ 0xCF && c != 0xC4 && c != 0xC8 && c != 0xCC) || c == 0xD8 || c == 0xD9 ||
    c == 0xDA

/-- JPG, RST0 to RST7 and TEM. -/
def isUnexpected (c : UInt8) : Bool := c == 0xC8 || (0xD0 ≤ c && c ≤ 0xD7) || c == 0x01

/-- The segment behind a marker that `processMarkers` does not return for. -/
def processSegment (c : UInt8) : Pj Unit :=
  if c = 0xC4 then Comp.ignore readDHTMarker
  else if c = 0xCC then Comp.fail .noArithmiticSupport
  else if c = 0xDB then Comp.ignore readDQTMarker
  else if c = 0xDD then Comp.ignore readDRIMarker
  else if isUnexpected c then Comp.fail .unexpectedMarker
  else Comp.ignore skipVariableMarker

def processMarkers (fuel : Nat) : Nat → Pj UInt8
  | 0 => Comp.stop .unending
  | n + 1 => do
    let c ← nextMarker fuel fuel
    if isReturned c then pure c
    else do
      processSegment c
      processMarkers fuel n

/-- The loop of `locateSOIMarker`. -/
def scanSOI : Nat → UInt8 → Pj Unit
  | 0, _ => Comp.fail .notJpeg
  | n + 1, lastchar => do
    let thischar ← readByte
    if lastchar = 0xFF ∧ thischar = 0xD8 then pure ()
    else if lastchar = 0xFF ∧ thischar = 0xD9 then Comp.fail .notJpeg
    else scanSOI n thischar

def locateSOIMarker : Pj Unit := do
  let lastchar ← readByte
  let thischar ← readByte
  if lastchar = 0xFF ∧ thischar = 0xD8 then pure ()
  else do
    scanSOI 4095 thischar
    let s ← Comp.get
    Comp.check (s.reader.bitBuf >>> 8 ≠ 0xFF) .notJpeg

def locateSOFMarker (fuel : Nat) : Pj Unit := do
  locateSOIMarker
  let c ← processMarkers fuel fuel
  if c = 0xC2 then Comp.fail .unsupportedMode
  else if c = 0xC0 then readSOFMarker
  else if c = 0xC9 then Comp.fail .noArithmiticSupport
  else Comp.fail .unsupportedMarker

/-- Whether `foundEOI` is set. -/
def locateSOSMarker (fuel : Nat) : Pj Bool := do
  let c ← processMarkers fuel fuel
  if c = 0xD9 then pure true
  else do
    Comp.check (c ≠ 0xDA) .unexpectedMarker
    readSOSMarker
    pure false

/-! ## `pjpeg_decode_init` -/

def getBits8Twice (ffCheck : Bool) (r : BitReader) : BitReader :=
  (getBits 8 ffCheck (getBits 8 ffCheck { r with bitsLeft := 8 }).2).2

def fixInBuffer : Pj Unit := Comp.modify fun s =>
  let r := s.reader
  let input := if r.bitsLeft > 0 then stuffChar (toByte r.bitBuf) r.input else r.input
  let input := stuffChar (toByte (r.bitBuf >>> 8)) input
  { s with reader := getBits8Twice true { r with input } }

def checkHuffTables : Nat → Nat → Pj Unit
  | 0, _ => pure ()
  | n + 1, i => do
    let s ← Comp.get
    let compDCTab := (s.scan.compDCTab (s.scan.compList i)).toNat
    let compACTab := (s.scan.compACTab (s.scan.compList i)).toNat + 2
    Comp.check (s.tables.validHuffTables &&& 1 <<< compDCTab = 0 ∨
      s.tables.validHuffTables &&& 1 <<< compACTab = 0) .undefinedHuffTable
    checkHuffTables n (i + 1)

def checkQuantTables : Nat → Nat → Pj Unit
  | 0, _ => pure ()
  | n + 1, i => do
    let s ← Comp.get
    let compQuantMask := if s.frame.compQuant (s.scan.compList i) ≠ 0 then 2 else 1
    Comp.check (s.tables.validQuantTables &&& compQuantMask = 0) .undefinedQuantTable
    checkQuantTables n (i + 1)

def noDC : Nat → BitVec 16 := fun _ => 0

def initScan (fuel : Nat) : Pj Unit := do
  let foundEOI ← locateSOSMarker fuel
  Comp.check foundEOI .unexpectedMarker
  let s ← Comp.get
  checkHuffTables s.scan.compsInScan 0
  checkQuantTables s.scan.compsInScan 0
  Comp.modify fun s => { s with
    lastDC := noDC
    restarts :=
      if s.restarts.restartInterval ≠ 0 then
        { s.restarts with restartsLeft := s.restarts.restartInterval, nextRestartNum := 0 }
      else s.restarts }
  fixInBuffer

def setLayout (scanType : ScanType) (mcuOrg : List Nat) : Pj Unit := Comp.modify fun s =>
  let perRow := (s.frame.imageXSize + (scanType.mcuWidth - 1)) >>>
    (if scanType.mcuWidth = 8 then 3 else 4)
  let perCol := (s.frame.imageYSize + (scanType.mcuHeight - 1)) >>>
    (if scanType.mcuHeight = 8 then 3 else 4)
  { s with
    layout := ⟨scanType, mcuOrg, scanType.mcuWidth, scanType.mcuHeight, perRow, perCol⟩
    numMCUSRemainingX := perRow
    numMCUSRemainingY := perCol }

def initFrame : Pj Unit := do
  let s ← Comp.get
  let f := s.frame
  if f.compsInFrame = 1 then do
    Comp.check (f.compHSamp 0 ≠ 1 ∨ f.compVSamp 0 ≠ 1) .unsupportedSampFactors
    setLayout .grayscale [0]
  else if f.compsInFrame = 3 then do
    Comp.check ((f.compHSamp 1 ≠ 1 ∨ f.compVSamp 1 ≠ 1) ∨ (f.compHSamp 2 ≠ 1 ∨ f.compVSamp 2 ≠ 1))
      .unsupportedSampFactors
    if f.compHSamp 0 = 1 ∧ f.compVSamp 0 = 1 then setLayout .yh1v1 [0, 1, 2]
    else if f.compHSamp 0 = 1 ∧ f.compVSamp 0 = 2 then setLayout .yh1v2 [0, 0, 1, 2]
    else if f.compHSamp 0 = 2 ∧ f.compVSamp 0 = 1 then setLayout .yh2v1 [0, 0, 1, 2]
    else if f.compHSamp 0 = 2 ∧ f.compVSamp 0 = 2 then setLayout .yh2v2 [0, 0, 0, 0, 1, 2]
    else Comp.fail .unsupportedSampFactors
  else Comp.fail .unsupportedColorspace

/-- `init`, and what `pjpeg_decode_init` sets in front of it. -/
def init (jpeg : Bytes) (reduce : UInt8) : Pj Unit := Comp.modify fun s =>
  { s with
    reduce := reduce
    frame := { s.frame with imageXSize := 0, imageYSize := 0, compsInFrame := 0 }
    restarts := { s.restarts with restartInterval := 0 }
    scan := { s.scan with compsInScan := 0 }
    tables := { s.tables with validHuffTables := 0, validQuantTables := 0 }
    reader := getBits8Twice false
      { s.reader with
        input := { s.reader.input with
          callbackData := ⟨jpeg, 0⟩, inBufOfs := 0, inBufLeft := 0, temFlag := false }
        bitBuf := 0 } }

def pjpegDecodeInit (fuel : Nat) (jpeg : Bytes) (reduce : UInt8) : Pj ImageInfo := do
  init jpeg reduce
  locateSOFMarker fuel
  initFrame
  initScan fuel
  let s ← Comp.get
  pure ⟨s.frame.imageXSize, s.frame.imageYSize, s.layout.scanType⟩

end RetroLens.Jpeg
