import RetroLens.Jpeg.Input

/-!
# The bit buffer

`gBitBuf` holds the next `8 + gBitsLeft` bits at its upper end. `BitReader.bits`
is the stream of all bits still to come, and `getBits` and `getBit` take bits
from its front (`getBits_bits`, `getBit_bits`). Up to eight bits at once leave
the state that as many single bits leave (`getBits_eq`).
-/

namespace RetroLens.Jpeg

open Text Bits

structure BitReader where
  input : Input
  bitBuf : BitVec 16
  bitsLeft : Nat

def zeroExtend (c : UInt8) : BitVec 16 := c.toBitVec.setWidth 16

/-- The bit buffer emptied, filled with a byte and shifted on until `numBits` bits are gone. -/
def shiftIn (numBits : Nat) (ffCheck : Bool) (r : BitReader) : BitReader :=
  let octet := getOctet ffCheck r.input
  { r with
    input := octet.2
    bitBuf := (r.bitBuf <<< r.bitsLeft ||| zeroExtend octet.1) <<< (numBits - r.bitsLeft) }

def getBits (numBits : Nat) (ffCheck : Bool) (r : BitReader) : BitVec 16 × BitReader :=
  let origBits := numBits
  let ret := r.bitBuf
  let first : Nat × BitVec 16 × BitReader :=
    if numBits > 8 then
      let r := shiftIn 8 ffCheck r
      (numBits - 8, (ret &&& 0xFF00#16) ||| (r.bitBuf >>> 8), r)
    else (numBits, ret, r)
  let numBits := first.1
  let ret := first.2.1
  let r := first.2.2
  let r :=
    if r.bitsLeft < numBits then
      { shiftIn numBits ffCheck r with bitsLeft := 8 - (numBits - r.bitsLeft) }
    else { r with bitsLeft := r.bitsLeft - numBits, bitBuf := r.bitBuf <<< numBits }
  (ret >>> (16 - origBits), r)

def getBits1 (numBits : Nat) : BitReader → BitVec 16 × BitReader := getBits numBits false

def getBits2 (numBits : Nat) : BitReader → BitVec 16 × BitReader := getBits numBits true

def getBit (r : BitReader) : Bool × BitReader :=
  let ret := r.bitBuf &&& 0x8000#16 ≠ 0
  let r :=
    if r.bitsLeft = 0 then
      let octet := getOctet true r.input
      { input := octet.2, bitBuf := r.bitBuf ||| zeroExtend octet.1, bitsLeft := r.bitsLeft + 8 }
    else r
  (ret, { r with bitsLeft := r.bitsLeft - 1, bitBuf := r.bitBuf <<< 1 })

/-! ## The stream of bits -/

namespace BitReader

/-- All bits that are still to come. -/
def bits (ffCheck : Bool) (r : BitReader) : BitStream := fun i =>
  if i < 8 + r.bitsLeft then r.bitBuf.getMsbD i
  else ofBytes (r.input.source.octets ffCheck) (i - (8 + r.bitsLeft))

/-- The bit buffer holds `8 + gBitsLeft` bits and zeros behind them. -/
structure Ready (r : BitReader) : Prop where
  left : r.bitsLeft ≤ 8
  clear : ∀ i, 8 + r.bitsLeft ≤ i → r.bitBuf.getMsbD i = false
  room : r.input.Room

end BitReader

variable (ffCheck : Bool) {r : BitReader} {n : Nat}

theorem bits_buffer {i : Nat} (h : i < 8 + r.bitsLeft) :
    r.bits ffCheck i = r.bitBuf.getMsbD i := if_pos h

theorem zeroExtend_getMsbD (c : UInt8) (i : Nat) :
    (zeroExtend c).getMsbD i = (decide (8 ≤ i) && c.toBitVec.getMsbD (i - 8)) := by
  rw [zeroExtend, BitVec.getMsbD_setWidth]
  congr 2

/-- Bits that are in the buffer are shifted out of it. -/
theorem shiftOut_bits (h : r.Ready) (hn : n ≤ r.bitsLeft) :
    let r' : BitReader := { r with bitsLeft := r.bitsLeft - n, bitBuf := r.bitBuf <<< n }
    r'.bits ffCheck = skip n (r.bits ffCheck) ∧ r'.Ready := by
  have hleft := h.left
  refine ⟨funext fun i => ?_, ?left, ?clear, h.room⟩
  case left => exact Nat.le_trans (Nat.sub_le ..) hleft
  case clear =>
    intro i hi
    simp only at hi ⊢
    rw [BitVec.getMsbD_shiftLeft]
    exact h.clear _ (by omega)
  simp only [BitReader.bits, skip]
  by_cases hi : i < 8 + (r.bitsLeft - n)
  · rw [if_pos hi, if_pos (by omega), BitVec.getMsbD_shiftLeft]
  · rw [if_neg hi, if_neg (by omega)]
    congr 1
    omega

/-- What is still to come once an octet has been taken. -/
theorem octets_succ (hroom : r.input.Room) (i : Nat) :
    ofBytes ((getOctet ffCheck r.input).2.source.octets ffCheck) i =
      ofBytes (r.input.source.octets ffCheck) (i + 8) := by
  have hskip := congrFun (skip_ofBytes (r.input.source.octets ffCheck) 1) i
  rw [(getOctet_source ffCheck hroom).2.1]
  exact hskip.symm

/-- A byte is shifted into the buffer behind the bits in it. -/
theorem shiftIn_bits (h : r.Ready) (hn : r.bitsLeft ≤ n) (hn' : n ≤ r.bitsLeft + 8) :
    let r' : BitReader := { shiftIn n ffCheck r with bitsLeft := 8 - (n - r.bitsLeft) }
    r'.bits ffCheck = skip n (r.bits ffCheck) ∧ r'.Ready := by
  have hleft := h.left
  obtain ⟨hoctet, -, hroom⟩ := getOctet_source ffCheck h.room
  have hbit : ∀ i, (shiftIn n ffCheck r).bitBuf.getMsbD i =
      (r.bitBuf.getMsbD (i + n) || (decide (8 ≤ i + (n - r.bitsLeft)) &&
        (getOctet ffCheck r.input).1.toBitVec.getMsbD (i + (n - r.bitsLeft) - 8))) := fun i => by
    simp only [shiftIn, BitVec.getMsbD_shiftLeft, BitVec.getMsbD_or, zeroExtend_getMsbD]
    congr 2
    omega
  refine ⟨funext fun i => ?_, ?left, ?clear, hroom⟩
  case left =>
    simp only
    omega
  case clear =>
    intro i hi
    simp only at hi ⊢
    rw [hbit, h.clear _ (by omega), Bool.false_or, BitVec.getMsbD_of_ge _ _ (by omega),
      Bool.and_false]
  simp only [BitReader.bits, skip]
  by_cases hi : i < 8 + (8 - (n - r.bitsLeft))
  · rw [if_pos hi, hbit]
    by_cases hold : i + n < 8 + r.bitsLeft
    · rw [if_pos hold, decide_eq_false (by omega), Bool.false_and, Bool.or_false]
    · have hfirst : (i + n - (8 + r.bitsLeft)) < 8 := by omega
      rw [if_neg hold, h.clear _ (by omega), Bool.false_or, decide_eq_true (by omega),
        Bool.true_and, ofBytes, Nat.div_eq_of_lt hfirst, Nat.mod_eq_of_lt hfirst, hoctet]
      congr 1
      omega
  · rw [if_neg hi, if_neg (by omega)]
    refine (octets_succ ffCheck h.room _).trans ?_
    congr 1
    omega

/-! ## What the readers take -/

/-- The upper bits of a word that shows the stream are its number. -/
theorem number_of_word {s : BitStream} {x : BitVec 16} (hn : n ≤ 16)
    (h : ∀ i < n, x.getMsbD i = s i) : (x >>> (16 - n)).toNat = number s n := by
  rw [← number_congr h, number_msb x hn, BitVec.toNat_ushiftRight, Nat.shiftRight_eq_div_pow]

/-- The last step of `getBits`, for at most eight bits. -/
theorem lastBits (h : r.Ready) (hn : n ≤ 8) :
    let r' : BitReader :=
      if r.bitsLeft < n then
        { shiftIn n ffCheck r with bitsLeft := 8 - (n - r.bitsLeft) }
      else { r with bitsLeft := r.bitsLeft - n, bitBuf := r.bitBuf <<< n }
    r'.bits ffCheck = skip n (r.bits ffCheck) ∧ r'.Ready := by
  dsimp only
  split
  · exact shiftIn_bits ffCheck h (by omega) (by omega)
  · exact shiftOut_bits ffCheck h (by omega)

/-- **`getBits` reads the next bits of the stream.** -/
theorem getBits_bits (h : r.Ready) (hn : n ≤ 16) :
    (getBits n ffCheck r).1.toNat = number (r.bits ffCheck) n ∧
      (getBits n ffCheck r).2.bits ffCheck = skip n (r.bits ffCheck) ∧
      (getBits n ffCheck r).2.Ready := by
  have hleft := h.left
  unfold getBits
  dsimp only
  by_cases h8 : n > 8
  · rw [if_pos h8]
    have hshift : shiftIn 8 ffCheck r =
        { shiftIn 8 ffCheck r with bitsLeft := 8 - (8 - r.bitsLeft) } := by
      rw [Nat.sub_sub_self hleft]
      rfl
    obtain ⟨hbits, hready⟩ := shiftIn_bits (n := 8) ffCheck h hleft (by omega)
    dsimp only at hbits hready
    rw [← hshift] at hbits hready
    obtain ⟨hlast, hlast'⟩ := lastBits (n := n - 8) ffCheck hready (by omega)
    dsimp only at hlast hlast'
    refine ⟨number_of_word hn fun i hi => ?_, ?_, hlast'⟩
    · rw [BitVec.getMsbD_or, BitVec.getMsbD_and, BitVec.getMsbD_ushiftRight]
      by_cases hlow : i < 8
      · have hmask : (0xFF00#16).getMsbD i = true := by
          interval_cases i <;> rfl
        rw [hmask, Bool.and_true, bits_buffer ffCheck (by omega)]
        simp [hlow]
      · have h16 : i < 16 := by omega
        have hmask : (0xFF00#16).getMsbD i = false := by
          have h8 : 8 ≤ i := by omega
          interval_cases i <;> rfl
        have hnext : (shiftIn 8 ffCheck r).bitBuf.getMsbD (i - 8) = r.bits ffCheck i := by
          rw [← bits_buffer ffCheck (by omega), hbits, skip,
            Nat.sub_add_cancel (by omega)]
        rw [hmask, Bool.and_false, Bool.false_or, hnext]
        simp [hlow, h16]
    · rw [hlast, hbits, skip_skip]
      congr 1
      omega
  · rw [if_neg h8]
    obtain ⟨hlast, hlast'⟩ := lastBits (n := n) ffCheck h (by omega)
    exact ⟨number_of_word hn fun i hi => (bits_buffer ffCheck (by omega)).symm, hlast, hlast'⟩

theorem topBit (x : BitVec 16) : decide (x &&& 0x8000#16 ≠ 0) = x.getMsbD 0 := by
  rw [Bool.eq_iff_iff, decide_eq_true_eq]
  have hmask : ∀ i, (0x8000#16).getMsbD i = decide (i = 0) := fun i => by
    by_cases hi : i < 16
    · interval_cases i <;> rfl
    · rw [BitVec.getMsbD_of_ge _ _ (by omega), decide_eq_false (by omega)]
  constructor
  · intro hne
    by_contra htop
    refine hne (BitVec.eq_of_getMsbD_eq fun i hi => ?_)
    rw [BitVec.getMsbD_and, hmask]
    by_cases h0 : i = 0
    · subst h0
      simpa using htop
    · simp [h0]
  · intro htop hzero
    have h0 := congrArg (fun y : BitVec 16 => y.getMsbD 0) hzero
    simp only [BitVec.getMsbD_and, hmask, htop] at h0
    simp at h0

theorem getBit_snd (r : BitReader) : (getBit r).2 =
    if r.bitsLeft < 1 then { shiftIn 1 true r with bitsLeft := 8 - (1 - r.bitsLeft) }
    else { r with bitsLeft := r.bitsLeft - 1, bitBuf := r.bitBuf <<< 1 } := by
  unfold getBit
  dsimp only
  by_cases h0 : r.bitsLeft = 0
  · rw [if_pos h0, if_pos (by omega)]
    simp only [shiftIn, h0, BitVec.shiftLeft_zero, Nat.sub_zero, Nat.zero_add]
  · rw [if_neg h0, if_neg (by omega)]

/-- **`getBit` reads the next bit of the stream.** -/
theorem getBit_bits (h : r.Ready) :
    (getBit r).1 = r.bits true 0 ∧ (getBit r).2.bits true = skip 1 (r.bits true) ∧
      (getBit r).2.Ready := by
  have hlast := lastBits (n := 1) true h (by omega)
  dsimp only at hlast
  rw [getBit_snd]
  refine ⟨?_, hlast⟩
  rw [bits_buffer true (by omega), ← topBit]
  rfl

/-- The states that `n` calls of `getBit` lead to. -/
def afterBits : Nat → BitReader → BitReader
  | 0, r => r
  | n + 1, r => (getBit (afterBits n r)).2

theorem getBits_snd (hn : n ≤ 8) (r : BitReader) : (getBits n ffCheck r).2 =
    if r.bitsLeft < n then { shiftIn n ffCheck r with bitsLeft := 8 - (n - r.bitsLeft) }
    else { r with bitsLeft := r.bitsLeft - n, bitBuf := r.bitBuf <<< n } := by
  have h8 : ¬ n > 8 := by omega
  simp only [getBits, if_neg h8]

/-- **Several bits at once** leave what as many single bits leave. -/
theorem getBits_eq (hn : n ≤ 8) (h : 0 < n) (r : BitReader) :
    (getBits n true r).2 = afterBits n r := by
  induction n, h using Nat.le_induction with
  | base => rw [getBits_snd true hn, afterBits, getBit_snd, afterBits]
  | succ n h1 ih =>
    rw [afterBits, ← ih (by omega), getBits_snd true hn, getBit_snd, getBits_snd true (by omega)]
    rcases Nat.lt_trichotomy r.bitsLeft n with hlt | heq | hgt
    · have hleft : ¬ 8 - (n - r.bitsLeft) < 1 := by omega
      have hshift : n + 1 - r.bitsLeft = n - r.bitsLeft + 1 := by omega
      have hsub : 8 - (n - r.bitsLeft + 1) = 8 - (n - r.bitsLeft) - 1 := by omega
      rw [if_pos (by omega), if_pos hlt]
      simp only [if_neg hleft, shiftIn, hshift, BitVec.shiftLeft_add, hsub]
    · have hnot : ¬ r.bitsLeft < n := by omega
      have hempty : r.bitsLeft - n < 1 := by omega
      have hone : n + 1 - r.bitsLeft = 1 := by omega
      rw [if_pos (by omega)]
      simp only [if_neg hnot, if_pos hempty, shiftIn, hone]
      simp only [heq, Nat.sub_self, Nat.sub_zero, BitVec.shiftLeft_zero]
    · have hnot : ¬ r.bitsLeft < n := by omega
      have hnot' : ¬ r.bitsLeft < n + 1 := by omega
      have hmore : ¬ r.bitsLeft - n < 1 := by omega
      simp only [if_neg hnot, if_neg hnot', if_neg hmore, BitVec.shiftLeft_add, Nat.sub_add_eq]

end RetroLens.Jpeg
