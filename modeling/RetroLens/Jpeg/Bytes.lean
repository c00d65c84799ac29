import RetroLens.Jpeg.BitBuffer

/-!
# Reading byte by byte

In front of the image everything is whole bytes. `At t r p` says that the
reader has taken the first `p` bytes of the source: the next one is in the
upper half of the bit buffer. Behind the JPEG the bytes are `FF` and `D9` by
turns (`byteAt_end`).
-/

namespace RetroLens.Jpeg

open Text Bits

namespace Source

/-- What is left once `n` bytes have been taken. -/
def drop : Nat → Source → Source
  | 0, t => t
  | n + 1, t => drop n t.next.2

def byteAt (t : Source) (p : Nat) : UInt8 := (t.drop p).next.1

variable {t : Source} {m n p : Nat}

theorem drop_drop (m n : Nat) (t : Source) : (t.drop m).drop n = t.drop (m + n) := by
  induction m generalizing t with
  | zero => rw [Nat.zero_add]; rfl
  | succ m ih => rw [drop, ih, Nat.add_right_comm, drop]

theorem drop_succ (n : Nat) (t : Source) : t.drop (n + 1) = (t.drop n).next.2 :=
  (drop_drop n 1 t).symm

theorem drop_rest (h : n ≤ t.rest.length) : t.drop n = ⟨t.rest.drop n, t.tem⟩ := by
  induction n generalizing t with
  | zero => rfl
  | succ n ih =>
    obtain ⟨rest, tem⟩ := t
    cases rest with
    | nil => exact absurd h (Nat.not_succ_le_zero n)
    | cons c rest => exact ih (Nat.le_of_succ_le_succ h)

/-- A byte of the JPEG. -/
theorem byteAt_rest (h : p < t.rest.length) : t.byteAt p = t.rest[p] := by
  rw [byteAt, drop_rest (Nat.le_of_lt h), List.drop_eq_getElem_cons h]
  rfl

theorem drop_end (h : t.rest.length ≤ n) : (t.drop n).rest = [] := by
  obtain ⟨d, rfl⟩ := Nat.exists_eq_add_of_le h
  induction d with
  | zero => rw [Nat.add_zero, drop_rest (Nat.le_refl _), List.drop_length]
  | succ d ih =>
    have hrest := ih (Nat.le_add_right _ _)
    rw [← Nat.add_assoc, drop_succ]
    generalize t.drop (t.rest.length + d) = u at hrest
    obtain ⟨rest, tem⟩ := u
    subst hrest
    rfl

/-- **Behind the JPEG** end markers follow each other. -/
theorem byteAt_end (h : t.rest.length ≤ p) :
    t.byteAt p = 0xFF ∧ t.byteAt (p + 1) = 0xD9 ∨ t.byteAt p = 0xD9 ∧ t.byteAt (p + 1) = 0xFF := by
  have hrest := drop_end h
  rw [byteAt, byteAt, drop_succ]
  generalize t.drop p = u at hrest
  obtain ⟨rest, tem⟩ := u
  subst hrest
  cases tem with
  | false => exact .inl ⟨rfl, rfl⟩
  | true => exact .inr ⟨rfl, rfl⟩

/-- The bytes from `p` on. -/
def bytesAt (t : Source) (p : Nat) : Nat → Bytes
  | 0 => []
  | n + 1 => t.byteAt p :: t.bytesAt (p + 1) n

@[simp] theorem bytesAt_length (t : Source) (p n : Nat) : (t.bytesAt p n).length = n := by
  induction n generalizing p with
  | zero => rfl
  | succ n ih => rw [bytesAt, List.length_cons, ih]

/-- The bytes of a piece of the JPEG. -/
theorem bytesAt_rest {front l back : Bytes} (h : t.rest = front ++ l ++ back) :
    t.bytesAt front.length l.length = l := by
  induction l generalizing front with
  | nil => rfl
  | cons c l ih =>
    have hc : t.byteAt front.length = c := by
      rw [byteAt_rest (by rw [h]; simp)]
      simp [h]
    have hrest : t.bytesAt (front ++ [c]).length l.length = l := ih (by rw [h]; simp)
    rw [List.length_append, List.length_singleton] at hrest
    rw [List.length_cons, bytesAt, hc, hrest]

end Source

/-- The reader has taken the first `p` bytes of the source. A byte more has been taken from the
input, so that there is room to put three back. -/
structure At (t : Source) (r : BitReader) (p : Nat) : Prop where
  left : r.bitsLeft = 0
  buf : r.bitBuf = zeroExtend (t.byteAt p) <<< 8
  source : r.input.source = t.drop (p + 1)
  room : r.input.inBufLeft.toNat ≤ 251

variable {t : Source} {r : BitReader} {p : Nat}

theorem zeroExtend_shift (c d : UInt8) :
    (zeroExtend c <<< 8 ||| zeroExtend d) <<< 8 = zeroExtend d <<< 8 := by
  refine BitVec.eq_of_getMsbD_eq fun i hi => ?_
  simp only [BitVec.getMsbD_shiftLeft, BitVec.getMsbD_or, zeroExtend_getMsbD]
  rw [BitVec.getMsbD_of_ge c.toBitVec (i + 8 + 8 - 8) (by omega), Bool.and_false, Bool.false_or]

theorem zeroExtend_upper (c : UInt8) : zeroExtend c <<< 8 >>> 8 = zeroExtend c := by
  refine BitVec.eq_of_getMsbD_eq fun i hi => ?_
  rw [BitVec.getMsbD_ushiftRight, BitVec.getMsbD_shiftLeft, zeroExtend_getMsbD, zeroExtend_getMsbD]
  by_cases h8 : i < 8
  · simp [h8]
  · rw [decide_eq_true hi, decide_eq_false h8, decide_eq_true (by omega : 8 ≤ i - 8 + 8),
      decide_eq_true (by omega : 8 ≤ i)]
    simp

theorem getOctet_at (h : At t r p) : (getOctet false r.input).1 = t.byteAt (p + 1) ∧
    (getOctet false r.input).2.source = t.drop (p + 2) ∧
      (getOctet false r.input).2.inBufLeft.toNat ≤ 251 := by
  obtain ⟨hc, hsource, -⟩ := getOctet_source false (Nat.le_trans h.room (by decide))
  rw [h.source] at hc hsource
  exact ⟨hc, hsource.trans (t.drop_succ (p + 1)).symm,
    getChar_left (Nat.le_refl 252) (Nat.le_trans h.room (by decide))⟩

theorem shiftIn_at (h : At t r p) : At t (shiftIn 8 false r) (p + 1) := by
  obtain ⟨hc, hsource, hroom⟩ := getOctet_at h
  refine ⟨h.left, ?_, hsource, hroom⟩
  simp only [shiftIn, h.left, BitVec.shiftLeft_zero, Nat.sub_zero]
  rw [h.buf, hc, zeroExtend_shift]

theorem getBits1_eight (h : At t r p) : (getBits1 8 r).2 = shiftIn 8 false r := by
  rw [getBits1, getBits_snd _ (Nat.le_refl 8), h.left, if_pos (by decide)]
  simp only [shiftIn, h.left]

/-- `getBits1(8)` -/
theorem getBits1_byte (h : At t r p) :
    (getBits1 8 r).1 = zeroExtend (t.byteAt p) ∧ At t (getBits1 8 r).2 (p + 1) := by
  refine ⟨?_, ?_⟩
  · have h8 : ¬ 8 > 8 := by decide
    simp only [getBits1, getBits, if_neg h8]
    rw [h.buf]
    exact zeroExtend_upper _
  · rw [getBits1_eight h]
    exact shiftIn_at h

/-- `getBits1(16)` -/
theorem getBits1_word (h : At t r p) :
    (getBits1 16 r).1 = zeroExtend (t.byteAt p) <<< 8 ||| zeroExtend (t.byteAt (p + 1)) ∧
      At t (getBits1 16 r).2 (p + 2) := by
  have hone := shiftIn_at h
  have htwo := shiftIn_at hone
  have hstate : (getBits1 16 r).2 = shiftIn 8 false (shiftIn 8 false r) := by
    have h16 : (16 : Nat) > 8 := by decide
    have hlt : (shiftIn 8 false r).bitsLeft < 16 - 8 := by rw [hone.left]; decide
    simp only [getBits1, getBits, if_pos h16, if_pos hlt]
    simp only [shiftIn, h.left]
  refine ⟨?_, hstate ▸ htwo⟩
  have h16 : (16 : Nat) > 8 := by decide
  have hmask : ∀ c : UInt8, zeroExtend c <<< 8 &&& 0xFF00#16 = zeroExtend c <<< 8 := fun c => by
    refine BitVec.eq_of_getMsbD_eq fun i hi => ?_
    rw [BitVec.getMsbD_and, BitVec.getMsbD_shiftLeft, zeroExtend_getMsbD]
    interval_cases i <;> simp
  simp only [getBits1, getBits, if_pos h16]
  rw [h.buf, hmask, hone.buf, zeroExtend_upper]
  exact BitVec.ushiftRight_zero _

/-- `getBits1(4)`, twice. -/
theorem getBits1_nibbles (h : At t r p) :
    (getBits1 4 r).1 = zeroExtend (t.byteAt p >>> 4) ∧
      (getBits1 4 (getBits1 4 r).2).1 = zeroExtend (t.byteAt p &&& 15) ∧
      At t (getBits1 4 (getBits1 4 r).2).2 (p + 1) := by
  have h8 : ¬ 4 > 8 := by decide
  have hfour : (getBits1 4 r).2 = { shiftIn 4 false r with bitsLeft := 4 } := by
    rw [getBits1, getBits_snd _ (by decide), h.left, if_pos (by decide)]
  have hbuf : (shiftIn 4 false r).bitBuf =
      (zeroExtend (t.byteAt p) <<< 8 ||| zeroExtend (t.byteAt (p + 1))) <<< 4 := by
    simp only [shiftIn, h.left, BitVec.shiftLeft_zero, Nat.sub_zero]
    rw [h.buf, (getOctet_at h).1]
  rw [hfour]
  refine ⟨?_, ?_, ?_⟩
  · simp only [getBits1, getBits, if_neg h8]
    rw [h.buf]
    refine BitVec.eq_of_getMsbD_eq fun i hi => ?_
    rw [BitVec.getMsbD_ushiftRight, BitVec.getMsbD_shiftLeft, zeroExtend_getMsbD,
      zeroExtend_getMsbD]
    interval_cases i <;> simp
  · simp only [getBits1, getBits, if_neg h8]
    rw [hbuf]
    refine BitVec.eq_of_getMsbD_eq fun i hi => ?_
    rw [BitVec.getMsbD_ushiftRight, BitVec.getMsbD_shiftLeft, BitVec.getMsbD_or,
      BitVec.getMsbD_shiftLeft, zeroExtend_getMsbD, zeroExtend_getMsbD, zeroExtend_getMsbD]
    interval_cases i <;> simp
  · obtain ⟨hc, hsource, hroom⟩ := getOctet_at h
    have hlt : ¬ 4 < 4 := by decide
    rw [getBits1, getBits_snd _ (by decide)]
    simp only [if_neg hlt]
    refine ⟨rfl, ?_, hsource, hroom⟩
    simp only [hbuf, ← BitVec.shiftLeft_add]
    exact zeroExtend_shift _ _

end RetroLens.Jpeg
