import RetroLens.Jpeg.Stream

/-!
# The writer of entropy-coded data

`stbiw__jpg_writeBits` collects bits in the lower three bytes of an `int` and
writes every byte that is full, with a zero byte behind `FF`. `Emits f l` says
that a part of the encoder adds the bits `l` to what is written, and
`writeBits_emits` that this is so of a code word. A block is written as code
words that a decoder of the same tables reads back (`processDU_code`).
-/

namespace RetroLens.Jpeg

open Text Bits

structure BitWriter where
  out : Bytes
  bitBuf : BitVec 32
  bitCnt : Nat
  deriving Repr

def putc (c : UInt8) (w : BitWriter) : BitWriter := { w with out := w.out ++ [c] }

/-- The loop of `stbiw__jpg_writeBits`, once. -/
def flushByte (w : BitWriter) : BitWriter :=
  let c := UInt8.ofBitVec ((w.bitBuf >>> 16).setWidth 8)
  let r := putc c w
  let r := if c = 255 then putc 0 r else r
  { r with bitBuf := r.bitBuf <<< 8, bitCnt := r.bitCnt - 8 }

def flushBytes : Nat → BitWriter → BitWriter
  | 0, w => w
  | n + 1, w => if w.bitCnt ≥ 8 then flushBytes n (flushByte w) else w

/-- `bs` is a code word and its length. -/
def writeBits (bs : Nat × Nat) (w : BitWriter) : BitWriter :=
  let bitCnt := w.bitCnt + bs.2
  flushBytes bitCnt
    { w with bitCnt, bitBuf := w.bitBuf ||| BitVec.ofNat 32 bs.1 <<< (24 - bitCnt) }

/-! ## What is written -/

/-- The bytes of entropy-coded data as they are written. -/
def stuff (data : Bytes) : Bytes := data.flatMap fun c => if c = 255 then [c, 0] else [c]

/-- The bits that are not written yet. -/
def BitWriter.pending (w : BitWriter) : List Bool :=
  (List.range w.bitCnt).map fun i => w.bitBuf.getLsbD (23 - i)

/-- Behind `front` the bits `l` have been taken, with room for more. -/
structure Holds (front : Bytes) (l : List Bool) (w : BitWriter) : Prop where
  bytes : ∃ data, w.out = front ++ stuff data ∧ l = bytesBits data ++ w.pending
  clear : ∀ i < 24 - w.bitCnt, w.bitBuf.getLsbD i = false

/-- A part of the encoder adds the bits `l`. -/
def Emits (f : BitWriter → BitWriter) (l : List Bool) : Prop :=
  ∀ front l₀ w, Holds front l₀ w → w.bitCnt ≤ 7 → Holds front (l₀ ++ l) (f w) ∧ (f w).bitCnt ≤ 7

variable {w : BitWriter} {front : Bytes} {l l' : List Bool} {f g : BitWriter → BitWriter}

theorem emits_id : Emits id [] := fun _ l₀ _ h hcnt => by
  rw [List.append_nil]
  exact ⟨h, hcnt⟩

theorem Emits.comp (hf : Emits f l) (hg : Emits g l') : Emits (fun w => g (f w)) (l ++ l') := by
  intro front l₀ w h hcnt
  obtain ⟨h₁, hcnt₁⟩ := hf front l₀ w h hcnt
  rw [← List.append_assoc]
  exact hg front (l₀ ++ l) (f w) h₁ hcnt₁

theorem stuff_append (data data' : Bytes) : stuff (data ++ data') = stuff data ++ stuff data' :=
  List.flatMap_append

theorem word_eq_map (n v : Nat) :
    word n v = (List.range n).map fun i => v.testBit (n - 1 - i) := by
  refine List.ext_getElem (by simp) fun i h _ => ?_
  rw [word_getElem]
  simp

theorem range_map_add (f : Nat → Bool) (m n : Nat) : (List.range (m + n)).map f =
    (List.range m).map f ++ (List.range n).map fun i => f (m + i) := by
  rw [List.range_add, List.map_append, List.map_map]
  rfl

/-- A byte that is written is no longer pending. -/
theorem flushByte_holds (h : Holds front l w) (hcnt : 8 ≤ w.bitCnt) (hmax : w.bitCnt ≤ 24) :
    Holds front l (flushByte w) ∧ (flushByte w).bitCnt = w.bitCnt - 8 := by
  obtain ⟨⟨data, hout, hbits⟩, hclear⟩ := h
  generalize hc : UInt8.ofBitVec ((w.bitBuf >>> 16).setWidth 8) = c
  have hflush : flushByte w = { out := front ++ stuff (data ++ [c])
                                bitBuf := w.bitBuf <<< 8
                                bitCnt := w.bitCnt - 8 } := by
    unfold flushByte
    rw [hc, stuff_append]
    by_cases hff : c = 255
    · simp [hff, putc, hout, stuff]
    · simp [hff, putc, hout, stuff]
  rw [hflush]
  refine ⟨⟨⟨data ++ [c], rfl, ?_⟩, fun i hi => ?_⟩, rfl⟩
  · have hsplit : w.pending = (List.range 8).map (fun i => w.bitBuf.getLsbD (23 - i)) ++
        (List.range (w.bitCnt - 8)).map fun i => w.bitBuf.getLsbD (23 - (8 + i)) := by
      rw [BitWriter.pending, ← range_map_add (fun i => w.bitBuf.getLsbD (23 - i)),
        Nat.add_sub_cancel' hcnt]
    rw [hbits, bytesBits_append, List.append_assoc, hsplit, bytesBits_cons, bytesBits_nil,
      List.append_nil, word_eq_map, BitWriter.pending]
    congr 2
    · refine List.map_congr_left fun i hi => ?_
      rw [List.mem_range] at hi
      rw [← hc, UInt8.toNat_ofBitVec, BitVec.testBit_toNat, BitVec.getLsbD_setWidth,
        BitVec.getLsbD_ushiftRight, decide_eq_true (by omega), Bool.true_and]
      congr 1
      omega
    · refine List.map_congr_left fun i hi => ?_
      rw [List.mem_range] at hi
      dsimp only at hi ⊢
      rw [BitVec.getLsbD_shiftLeft, decide_eq_true (by omega), decide_eq_false (by omega)]
      simp only [Bool.not_false, Bool.and_self, Bool.true_and]
      congr 1
      omega
  · dsimp only at hi ⊢
    rw [BitVec.getLsbD_shiftLeft]
    by_cases h8 : i < 8
    · rw [decide_eq_true h8]
      simp
    · rw [hclear (i - 8) (by omega), Bool.and_false]

theorem flushBytes_holds (n : Nat) (h : Holds front l w) (hmax : w.bitCnt ≤ 24)
    (hn : w.bitCnt ≤ n) : Holds front l (flushBytes n w) ∧ (flushBytes n w).bitCnt ≤ 7 := by
  induction n generalizing w with
  | zero => exact ⟨h, by rw [flushBytes]; omega⟩
  | succ n ih =>
    rw [flushBytes]
    split
    · rename_i hcnt
      obtain ⟨h', hcnt'⟩ := flushByte_holds h hcnt hmax
      exact ih h' (by omega) (by omega)
    · exact ⟨h, by omega⟩

/-- **A code word is written as its bits.** -/
theorem writeBits_emits {bs : Nat × Nat} (hlength : bs.2 ≤ 16) (hcode : bs.1 < 2 ^ bs.2) :
    Emits (writeBits bs) (word bs.2 bs.1) := by
  intro front l₀ w h hcnt
  obtain ⟨⟨data, hout, hbits⟩, hclear⟩ := h
  refine flushBytes_holds _ ⟨⟨data, hout, ?_⟩, fun i hi => ?_⟩ (by dsimp only; omega)
    (Nat.le_refl _)
  · rw [hbits, List.append_assoc]
    congr 1
    rw [BitWriter.pending, BitWriter.pending, range_map_add, word_eq_map]
    congr 1
    · refine List.map_congr_left fun i hi => ?_
      rw [List.mem_range] at hi
      rw [BitVec.getLsbD_or, BitVec.getLsbD_shiftLeft, BitVec.getLsbD_ofNat]
      have hhigh : bs.1.testBit (23 - i - (24 - (w.bitCnt + bs.2))) = false :=
        Nat.testBit_lt_two_pow (Nat.lt_of_lt_of_le hcode
          (Nat.pow_le_pow_right (by decide) (by omega)))
      rw [hhigh]
      simp
    · refine List.map_congr_left fun i hi => ?_
      rw [List.mem_range] at hi
      rw [BitVec.getLsbD_or, BitVec.getLsbD_shiftLeft, BitVec.getLsbD_ofNat,
        hclear _ (by omega), Bool.false_or, decide_eq_true (by omega), decide_eq_false (by omega),
        decide_eq_true (by omega)]
      simp only [Bool.not_false, Bool.and_self, Bool.true_and]
      congr 1
      omega
  · dsimp only at hi ⊢
    rw [BitVec.getLsbD_or, hclear i (by omega), BitVec.getLsbD_shiftLeft,
      decide_eq_true (show i < 24 - (w.bitCnt + bs.2) by omega)]
    simp

end RetroLens.Jpeg
