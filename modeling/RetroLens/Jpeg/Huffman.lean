import RetroLens.Jpeg.BitBuffer
import RetroLens.Lib.CanonicalCode
import RetroLens.Lib.Checked

/-!
# Huffman tables

`huffCreate` assigns the canonical code words to the lengths that a DHT segment
counts, and enters the words of at most eight bits into two tables by the byte
they begin. `huffDecode` looks the next byte up there, and searches bit by bit
(`huffSearch`) only where it finds nothing.

What it finds is what the search would have found, in the value and in the
reader it leaves (`huffDecode_search`). The tables are filled without leaving
their 256 elements exactly if the short code words are no more than there is
room for (`huffCreate_isSome`).
-/

namespace RetroLens.Jpeg

open Bits CanonicalCode Checked

structure HuffTable where
  minCode : Nat → BitVec 16
  maxCode : Nat → BitVec 16
  valPtr : Nat → UInt8
  lookUp : Buffer UInt8 256
  lookUpBits : Buffer UInt8 256

/-! ## `huffCreate` -/

/-- The statics of the first loop: the table, `j` and `code`. -/
structure CodeAssign where
  table : HuffTable
  j : UInt8
  code : BitVec 16

def assignLength (bits : Nat → UInt8) (a : CodeAssign) (i : Nat) : CodeAssign :=
  let num := bits i
  let a : CodeAssign :=
    if num = 0 then
      { a with table := { a.table with
          minCode := Function.update a.table.minCode i 0x0000#16
          maxCode := Function.update a.table.maxCode i 0xFFFF#16
          valPtr := Function.update a.table.valPtr i 0 } }
    else
      { table := { a.table with
          minCode := Function.update a.table.minCode i a.code
          maxCode := Function.update a.table.maxCode i (a.code + zeroExtend num - 1)
          valPtr := Function.update a.table.valPtr i a.j }
        j := a.j + num
        code := a.code + zeroExtend num }
  { a with code := a.code <<< 1 }

def assignCodes (bits : Nat → UInt8) (table : HuffTable) (n : Nat) : CodeAssign :=
  (List.range n).foldl (assignLength bits) { table, j := 0, code := 0 }

/-- `mLookUp` and `mLookUpBits`. -/
structure LookUp where
  lookUp : Buffer UInt8 256
  lookUpBits : Buffer UInt8 256

def enterEntry (codeLength : Nat) (value : UInt8) (t : LookUp) (entry : Nat) : Option LookUp := do
  let lookUp ← t.lookUp.set entry value
  let lookUpBits ← t.lookUpBits.set entry (UInt8.ofNat codeLength)
  some { lookUp, lookUpBits }

/-- The innermost loop enters a code word at each byte that begins with it. -/
def enterCode (codeLength : Nat) (codeword : BitVec 16) (value : UInt8) (t : LookUp) :
    Option LookUp :=
  (List.range (2 ^ (8 - codeLength))).foldlM (fun t suffix =>
    enterEntry codeLength value t
      (codeword <<< (8 - codeLength) + BitVec.ofNat 16 suffix).toNat) t

variable {n : Nat}

/-- The code words of one length. -/
def enterLength (bits : Nat → UInt8) (vals : Buffer UInt8 n) (table : HuffTable) (t : LookUp)
    (i : Nat) : Option LookUp :=
  (List.range (bits i).toNat).foldlM (fun t symbol => do
    let value ← vals.get ((table.valPtr i).toNat + symbol : Nat)
    enterCode (i + 1) (table.minCode i + BitVec.ofNat 16 symbol) value t) t

def huffCreate (bits : Nat → UInt8) (vals : Buffer UInt8 n) (table : HuffTable) :
    Option HuffTable := do
  let table := (assignCodes bits table 16).table
  let t ← (List.range 8).foldlM (enterLength bits vals table) ⟨table.lookUp, ⟨fun _ => 0⟩⟩
  some { table with lookUp := t.lookUp, lookUpBits := t.lookUpBits }

/-! ## `huffDecode` -/

def bitOf (b : Bool) : BitVec 16 := if b then 1 else 0

/-- The loop of `huffDecode`, for `n` more lengths from `i` on. -/
def huffSearch (table : HuffTable) (vals : Buffer UInt8 n) :
    Nat → Nat → BitVec 16 → BitReader → Option (UInt8 × BitReader)
  | 0, _, _, r => some (0, r)
  | m + 1, i, code, r =>
    if code ≤ table.maxCode i ∧ table.maxCode i ≠ 0xFFFF#16 then
      let j := table.valPtr i + UInt8.ofBitVec ((code - table.minCode i).setWidth 8)
      (vals.get j.toNat).map fun value => (value, r)
    else
      let b := getBit r
      huffSearch table vals m (i + 1) (code <<< 1 ||| bitOf b.1) b.2

/-- The search from the first length on. -/
def huffDecodeBits (table : HuffTable) (vals : Buffer UInt8 n) (r : BitReader) :
    Option (UInt8 × BitReader) :=
  let b := getBit r
  huffSearch table vals 16 0 (bitOf b.1) b.2

def lookUpIndex (r : BitReader) : Fin 256 :=
  ⟨(r.bitBuf >>> 8).toNat, by
    have hlt := r.bitBuf.isLt
    rw [BitVec.toNat_ushiftRight, Nat.shiftRight_eq_div_pow]
    omega⟩

def huffDecode (table : HuffTable) (vals : Buffer UInt8 n) (r : BitReader) :
    Option (UInt8 × BitReader) :=
  let lookUpBits := table.lookUpBits.cell (lookUpIndex r)
  if lookUpBits ≠ 0 then
    some (table.lookUp.cell (lookUpIndex r), (getBits2 lookUpBits.toNat r).2)
  else huffDecodeBits table vals r

def getExtendTest (i : UInt8) : BitVec 16 :=
  if 0 < i ∧ i ≤ 15 then 1#16 <<< (i.toNat - 1) else 0

def getExtendOffset (i : UInt8) : BitVec 16 :=
  if 0 < i ∧ i ≤ 15 then 1#16 - 1#16 <<< i.toNat else 0

def huffExtend (x : BitVec 16) (s : UInt8) : BitVec 16 :=
  if x < getExtendTest s then x + getExtendOffset s else x

/-! ## The assigned codes -/

/-- How many code words there are of each length. -/
def counts (bits : Nat → UInt8) (i : Nat) : Nat := (bits i).toNat

/-- What the search uses of a table: `num` code words of each length, with the values in order. -/
structure HuffTable.Assigned (num : Nat → Nat) (table : HuffTable) : Prop where
  unused : ∀ i < 16, num i = 0 → table.maxCode i = 0xFFFF#16
  minCode : ∀ i < 16, num i ≠ 0 → table.minCode i = BitVec.ofNat 16 (first num i)
  maxCode : ∀ i < 16, num i ≠ 0 → table.maxCode i = BitVec.ofNat 16 (kraft num (i + 1)) - 1
  valPtr : ∀ i < 16, num i ≠ 0 → table.valPtr i = UInt8.ofNat (offset num i)

variable {bits : Nat → UInt8} {table : HuffTable} {vals : Buffer UInt8 n} {num : Nat → Nat}

theorem zeroExtend_eq (c : UInt8) : zeroExtend c = BitVec.ofNat 16 c.toNat := by
  apply BitVec.eq_of_toNat_eq
  rw [zeroExtend, BitVec.toNat_setWidth, BitVec.toNat_ofNat]
  rfl

theorem shiftLeft_one (x : Nat) : BitVec.ofNat 16 x <<< 1 = BitVec.ofNat 16 (2 * x) := by
  apply BitVec.eq_of_toNat_eq
  rw [BitVec.toNat_shiftLeft, BitVec.toNat_ofNat, BitVec.toNat_ofNat, Nat.shiftLeft_eq]
  omega

theorem assignCodes_succ (m : Nat) :
    assignCodes bits table (m + 1) = assignLength bits (assignCodes bits table m) m := by
  rw [assignCodes, List.range_succ, List.foldl_append]
  rfl

theorem assignCodes_code (m : Nat) :
    (assignCodes bits table m).code = BitVec.ofNat 16 (first (counts bits) m) ∧
      (assignCodes bits table m).j = UInt8.ofNat (offset (counts bits) m) := by
  induction m with
  | zero => exact ⟨rfl, rfl⟩
  | succ m ih =>
    rw [assignCodes_succ, first, kraft, offset]
    unfold assignLength
    dsimp only
    split
    · rename_i h
      have hnum : counts bits m = 0 := by rw [counts, h]; rfl
      rw [ih.1, ih.2, hnum]
      exact ⟨shiftLeft_one _, rfl⟩
    · have hj : bits m = UInt8.ofNat (counts bits m) := UInt8.ofNat_toNat.symm
      dsimp only
      rw [ih.1, ih.2, zeroExtend_eq, ← BitVec.ofNat_add, shiftLeft_one, UInt8.ofNat_add, ← hj]
      exact ⟨rfl, rfl⟩

/-- The first loop assigns the canonical code words. -/
theorem assignCodes_assigned (bits : Nat → UInt8) (table : HuffTable) :
    (assignCodes bits table 16).table.Assigned (counts bits) := by
  have main : ∀ m, ∀ i < m,
      let t := (assignCodes bits table m).table
      (counts bits i = 0 → t.maxCode i = 0xFFFF#16) ∧
      (counts bits i ≠ 0 → t.minCode i = BitVec.ofNat 16 (first (counts bits) i) ∧
        t.maxCode i = BitVec.ofNat 16 (kraft (counts bits) (i + 1)) - 1 ∧
        t.valPtr i = UInt8.ofNat (offset (counts bits) i)) := by
    intro m
    induction m with
    | zero => exact fun i hi => absurd hi (Nat.not_lt_zero i)
    | succ m ih =>
      intro i hi
      dsimp only
      have hassigned := @assignCodes_code bits table m
      obtain ⟨hcode, hj⟩ := hassigned
      have hzero : bits m = 0 ↔ counts bits m = 0 := by
        rw [counts, ← UInt8.toNat_inj]
        rfl
      rw [assignCodes_succ]
      unfold assignLength
      dsimp only
      by_cases him : i = m
      · subst him
        split
        · rename_i h
          exact ⟨fun _ => Function.update_self .., fun hne => absurd (hzero.1 h) hne⟩
        · rename_i h
          refine ⟨fun h0 => absurd (hzero.2 h0) h, fun _ => ?_⟩
          dsimp only
          rw [Function.update_self, Function.update_self, Function.update_self, hcode, hj,
            zeroExtend_eq, ← BitVec.ofNat_add]
          exact ⟨rfl, rfl, rfl⟩
      · have hold := ih i (by omega)
        dsimp only at hold
        split
        · dsimp only
          rwa [Function.update_of_ne him, Function.update_of_ne him, Function.update_of_ne him]
        · dsimp only
          rwa [Function.update_of_ne him, Function.update_of_ne him, Function.update_of_ne him]
  exact ⟨fun i hi h => (main 16 i hi).1 h, fun i hi h => ((main 16 i hi).2 h).1,
    fun i hi h => ((main 16 i hi).2 h).2.1, fun i hi h => ((main 16 i hi).2 h).2.2⟩

/-! ## The search -/

variable {s : BitStream} {i k : Nat} {r : BitReader}

theorem shiftLeft_bitOf (x : Nat) (b : Bool) :
    BitVec.ofNat 16 x <<< 1 ||| bitOf b = BitVec.ofNat 16 (2 * x + b.toNat) := by
  rw [shiftLeft_one, BitVec.ofNat_add]
  cases b with
  | false => exact BitVec.or_zero.trans (BitVec.add_zero _).symm
  | true =>
    refine (BitVec.add_eq_or_of_and_eq_zero _ _ ?_).symm
    rw [← shiftLeft_one]
    ext j hj
    simp [bitOf, BitVec.getElem_one]
    omega

theorem number_lt_code (s : BitStream) (hi : i < 16) : number s (i + 1) < 2 ^ 16 :=
  Nat.lt_of_lt_of_le (number_lt s (i + 1)) (Nat.pow_le_pow_right (by decide) (by omega))

/-- Whether the search ends at a length. -/
theorem le_maxCode (ht : table.Assigned num) (hi : i < 16) (hroom : kraft num (i + 1) < 2 ^ 16) :
    (BitVec.ofNat 16 (number s (i + 1)) ≤ table.maxCode i ∧ table.maxCode i ≠ 0xFFFF#16) ↔
      num i ≠ 0 ∧ number s (i + 1) < kraft num (i + 1) := by
  have hnumber := number_lt_code s hi
  by_cases h0 : num i = 0
  · rw [ht.unused i hi h0]
    exact ⟨fun h => absurd rfl h.2, fun h => absurd h0 h.1⟩
  · have hpos : 1 ≤ kraft num (i + 1) := by
      rw [kraft_succ]
      omega
    have hmax : (table.maxCode i).toNat = kraft num (i + 1) - 1 := by
      rw [ht.maxCode i hi h0, BitVec.toNat_sub_of_le, BitVec.toNat_ofNat, Nat.mod_eq_of_lt hroom]
      · rfl
      · rw [BitVec.le_def, BitVec.toNat_ofNat, Nat.mod_eq_of_lt hroom]
        exact hpos
    rw [BitVec.le_def, BitVec.toNat_ofNat, Nat.mod_eq_of_lt hnumber, hmax, ← BitVec.toNat_ne_iff_ne,
      hmax]
    constructor
    · rintro ⟨hle, -⟩
      exact ⟨h0, by omega⟩
    · rintro ⟨-, hlt⟩
      refine ⟨by omega, ?_⟩
      show kraft num (i + 1) - 1 ≠ 65535
      omega

/-- **The search finds the code word the stream begins with**, and takes no more than its bits. -/
theorem huffDecodeBits_codes (ht : table.Assigned num) (hi : i < 16)
    (hroom : kraft num (i + 1) < 2 ^ 16) (hcount : offset num 16 ≤ 256) (h : Codes num s i k)
    (hs : ∀ j ≤ i, (getBit (afterBits j r)).1 = s j) :
    huffDecodeBits table vals r =
      (vals.get (offset num i + k : Nat)).map fun value => (value, afterBits (i + 1) r) := by
  have main : ∀ d j, j + d = i →
      huffSearch table vals (16 - j) j (BitVec.ofNat 16 (number s (j + 1))) (afterBits (j + 1) r) =
        (vals.get (offset num i + k : Nat)).map fun value => (value, afterBits (i + 1) r) := by
    intro d
    induction d with
    | zero =>
      intro j hj
      rw [Nat.add_zero] at hj
      subst hj
      have hnum : num j ≠ 0 := Nat.ne_of_gt (Nat.lt_of_le_of_lt (Nat.zero_le k) h.lt)
      have hfuel : 16 - j = 15 - j + 1 := by omega
      rw [hfuel, huffSearch, if_pos ((le_maxCode ht hi hroom).2 ⟨hnum, h.lt_kraft⟩)]
      have hcode : BitVec.ofNat 16 (number s (j + 1)) - table.minCode j = BitVec.ofNat 16 k := by
        rw [ht.minCode j hi hnum, h.eq, BitVec.ofNat_add, BitVec.add_comm,
          BitVec.add_sub_cancel]
      have hlt : offset num j + k < 256 := Nat.lt_of_lt_of_le (offset_add_lt hi h.lt) hcount
      have hk : UInt8.ofBitVec ((BitVec.ofNat 16 k).setWidth 8) = UInt8.ofNat k := by
        apply UInt8.toNat_inj.1
        rw [UInt8.toNat_ofBitVec, BitVec.toNat_setWidth, BitVec.toNat_ofNat, UInt8.toNat_ofNat']
        omega
      dsimp only
      rw [hcode, hk, ht.valPtr j hi hnum, ← UInt8.ofNat_add, UInt8.toNat_ofNat',
        Nat.mod_eq_of_lt hlt]
    | succ d ih =>
      intro j hj
      have hfuel : 16 - j = 16 - (j + 1) + 1 := by omega
      have hlonger := h.longer (show j < i by omega)
      have hkraft : kraft num (j + 1) ≤ kraft num (i + 1) := kraft_le (by omega)
      rw [hfuel, huffSearch, if_neg fun hle => absurd ((le_maxCode ht (by omega)
        (Nat.lt_of_le_of_lt hkraft hroom)).1 hle).2 (Nat.not_lt.2 hlonger)]
      dsimp only
      rw [hs (j + 1) (by omega), shiftLeft_bitOf]
      exact ih (j + 1) (by omega)
  have hstart : bitOf (getBit r).1 = BitVec.ofNat 16 (number s 1) := by
    rw [show (getBit r).1 = s 0 from hs 0 (Nat.zero_le i)]
    simp only [number, Nat.mul_zero, Nat.zero_add]
    cases s 0 <;> rfl
  unfold huffDecodeBits
  dsimp only
  rw [hstart]
  exact main i 0 (Nat.zero_add i)

/-! ## The tables of short code words -/

/-- What `readDHTMarker` lets through. -/
structure Counted (bits : Nat → UInt8) (n : Nat) : Prop where
  total : offset (counts bits) 16 ≤ 255
  room : offset (counts bits) 16 ≤ n

/-- What the tables say of a byte is so: it begins with a code word of that length and value. -/
def LookUp.Sound (num : Nat → Nat) (vals : Buffer UInt8 n) (t : LookUp) : Prop :=
  ∀ e : Fin 256, t.lookUpBits.cell e ≠ 0 → ∃ i k, Covers num 8 e i k ∧
    t.lookUpBits.cell e = UInt8.ofNat (i + 1) ∧
    vals.get (offset num i + k : Nat) = some (t.lookUp.cell e)

theorem kraft_le_offset (num : Nat → Nat) (m : Nat) :
    kraft num (m + 1) ≤ 2 ^ m * offset num (m + 1) := by
  induction m with
  | zero => simp [kraft, offset]
  | succ m ih =>
    rw [kraft, offset, Nat.pow_succ, Nat.mul_add, Nat.mul_comm (2 ^ m), Nat.mul_assoc]
    have hpos : num (m + 1) ≤ 2 * 2 ^ m * num (m + 1) :=
      Nat.le_mul_of_pos_left _ (Nat.mul_pos (by decide) (Nat.two_pow_pos m))
    omega

theorem counted_kraft (h : Counted bits n) : kraft (counts bits) 8 ≤ 128 * 255 :=
  Nat.le_trans (kraft_le_offset _ 7)
    (Nat.mul_le_mul_left _ (Nat.le_trans (offset_le (by decide)) h.total))

/-- The entries of a code word do not wrap. -/
theorem entry_toNat {suffix : Nat} (h : Counted bits n) (hi : i < 8) (hk : k < counts bits i)
    (hsuffix : suffix < 2 ^ (8 - (i + 1))) :
    (BitVec.ofNat 16 (first (counts bits) i + k) <<< (8 - (i + 1)) +
        BitVec.ofNat 16 suffix).toNat =
      (first (counts bits) i + k) * 2 ^ (8 - (i + 1)) + suffix := by
  have hcode : first (counts bits) i + k + 1 ≤ kraft (counts bits) (i + 1) := by
    rw [kraft_succ]
    omega
  have hlt : (first (counts bits) i + k + 1) * 2 ^ (8 - (i + 1)) ≤ 128 * 255 :=
    Nat.le_trans (Nat.mul_le_mul_right _ hcode)
      (Nat.le_trans (kraft_scale _ (show i + 1 ≤ 8 from hi)) (counted_kraft h))
  rw [Nat.add_mul, Nat.one_mul] at hlt
  have hself : first (counts bits) i + k ≤ (first (counts bits) i + k) * 2 ^ (8 - (i + 1)) :=
    Nat.le_mul_of_pos_right _ (Nat.two_pow_pos _)
  rw [BitVec.toNat_add, BitVec.toNat_shiftLeft, BitVec.toNat_ofNat, BitVec.toNat_ofNat,
    Nat.shiftLeft_eq, Nat.mod_eq_of_lt (show first (counts bits) i + k < 2 ^ 16 by omega),
    Nat.mod_eq_of_lt (show suffix < 2 ^ 16 by omega),
    Nat.mod_eq_of_lt (show (first (counts bits) i + k) * 2 ^ (8 - (i + 1)) < 2 ^ 16 by omega),
    Nat.mod_eq_of_lt (by omega)]

theorem enterCode_sound {t t' : LookUp} {value : UInt8} (h : Counted bits n) (hi : i < 8)
    (hk : k < counts bits i) (hvalue : vals.get (offset (counts bits) i + k : Nat) = some value)
    (ht : t.Sound (counts bits) vals)
    (henter : enterCode (i + 1) (BitVec.ofNat 16 (first (counts bits) i + k)) value t = some t') :
    t'.Sound (counts bits) vals := by
  refine foldlM_keeps (fun t => t.Sound (counts bits) vals) ?_ ht henter
  intro suffix hsuffix b c hb hstep
  rw [List.mem_range] at hsuffix
  rw [entry_toNat h hi hk hsuffix] at hstep
  simp only [enterEntry, Option.bind_eq_bind, Option.bind_eq_some_iff, Option.some.injEq] at hstep
  obtain ⟨lookUp, hup, lookUpBits, hbits, rfl⟩ := hstep
  intro e he
  dsimp only at he ⊢
  rw [Buffer.set_cell hup, Buffer.set_cell hbits]
  rw [Buffer.set_cell hbits] at he
  by_cases hentry : ((e : Nat) : Int) =
      (((first (counts bits) i + k) * 2 ^ (8 - (i + 1)) + suffix : Nat) : Int)
  · rw [if_pos hentry, if_pos hentry]
    refine ⟨i, k, ⟨hi, hk, ?_⟩, rfl, hvalue⟩
    rw [Int.ofNat_inj.1 hentry, Nat.mul_comm, Nat.mul_add_div (Nat.two_pow_pos _),
      Nat.div_eq_of_lt hsuffix, Nat.add_zero]
  · rw [if_neg hentry] at he
    rw [if_neg hentry, if_neg hentry]
    exact hb e he

/-- Where the values of the code words of a length are. -/
theorem valPtr_toNat (h : Counted bits n) (ht : table.Assigned (counts bits)) (hi : i < 16)
    (hk : k < counts bits i) : (table.valPtr i).toNat = offset (counts bits) i := by
  have hle : offset (counts bits) i ≤ 255 :=
    Nat.le_trans (offset_le (Nat.le_of_lt hi)) h.total
  rw [ht.valPtr i hi (by omega), UInt8.toNat_ofNat', Nat.mod_eq_of_lt (by omega)]

theorem enterLength_sound {t t' : LookUp} (h : Counted bits n)
    (hassigned : table.Assigned (counts bits)) (hi : i < 8) (ht : t.Sound (counts bits) vals)
    (henter : enterLength bits vals table t i = some t') : t'.Sound (counts bits) vals := by
  refine foldlM_keeps (fun t => t.Sound (counts bits) vals) ?_ ht henter
  intro k hk b c hb hstep
  have hk : k < counts bits i := List.mem_range.1 hk
  simp only [Option.bind_eq_bind, Option.bind_eq_some_iff] at hstep
  obtain ⟨value, hvalue, hstep⟩ := hstep
  rw [valPtr_toNat h hassigned (by omega) hk] at hvalue
  rw [hassigned.minCode i (by omega) (by omega), ← BitVec.ofNat_add] at hstep
  exact enterCode_sound h hi hk hvalue hb hstep

/-- What `huffCreate` has made. -/
structure HuffTable.Created (num : Nat → Nat) (vals : Buffer UInt8 n) (table : HuffTable) :
    Prop where
  assigned : table.Assigned num
  sound : LookUp.Sound num vals ⟨table.lookUp, table.lookUpBits⟩

theorem huffCreate_created {old : HuffTable} (h : Counted bits n)
    (hcreate : huffCreate bits vals old = some table) : table.Created (counts bits) vals := by
  simp only [huffCreate, Option.bind_eq_bind, Option.bind_eq_some_iff, Option.some.injEq]
    at hcreate
  obtain ⟨t, ht, rfl⟩ := hcreate
  have hassigned := assignCodes_assigned bits old
  refine ⟨⟨hassigned.unused, hassigned.minCode, hassigned.maxCode, hassigned.valPtr⟩, ?_⟩
  refine foldlM_keeps (fun t => t.Sound (counts bits) vals) ?_ (fun e he => absurd rfl he) ht
  intro i hi b c hb hstep
  exact enterLength_sound h hassigned (List.mem_range.1 hi) hb hstep

/-! ## No table is left -/

/-- Whatever the reader holds and whatever the values are, decoding stays inside of them. -/
def HuffTable.Safe (n : Nat) (table : HuffTable) : Prop :=
  ∀ (vals : Buffer UInt8 n) (r : BitReader), (huffDecode table vals r).isSome

theorem huffDecode_isSome (h : ∀ r, (huffDecodeBits table vals r).isSome) (r : BitReader) :
    (huffDecode table vals r).isSome := by
  unfold huffDecode
  dsimp only
  split
  · rfl
  · exact h r

/-- A search that has come past the code words of a length finds no earlier value. -/
theorem huffSearch_isSome (ht : table.Assigned num) (hnum : ∀ i < 16, num i ≤ 255)
    (hcount : offset num 16 ≤ 255) (hn : offset num 16 ≤ n) (vals : Buffer UInt8 n) :
    ∀ m i x r, i + m = 16 → kraft num i ≤ x / 2 → x < 2 ^ (i + 1) →
      (huffSearch table vals m i (BitVec.ofNat 16 x) r).isSome := by
  intro m
  induction m with
  | zero => exact fun _ _ _ _ _ _ => rfl
  | succ m ih =>
    intro i x r him hkraft hx
    have hi : i < 16 := by omega
    have hx16 : x < 2 ^ 16 :=
      Nat.lt_of_lt_of_le hx (Nat.pow_le_pow_right (by decide) (by omega))
    have hfirst : first num i ≤ x := by
      rw [first]
      omega
    have hle := hnum i hi
    rw [huffSearch]
    split
    · rename_i hcode
      obtain ⟨hcode, hused⟩ := hcode
      have h0 : num i ≠ 0 := fun h0 => hused (ht.unused i hi h0)
      rw [Option.isSome_map, Buffer.get_isSome, ht.valPtr i hi h0, ht.minCode i hi h0]
      rw [ht.maxCode i hi h0, BitVec.le_def, BitVec.toNat_ofNat, Nat.mod_eq_of_lt hx16,
        kraft_succ, BitVec.toNat_sub, BitVec.toNat_ofNat] at hcode
      have hone : (1 : BitVec 16).toNat = 1 := rfl
      rw [hone] at hcode
      have hk : x - first num i < num i := by omega
      have hsub : BitVec.ofNat 16 x - BitVec.ofNat 16 (first num i) =
          BitVec.ofNat 16 (x - first num i) := by
        apply BitVec.eq_of_toNat_eq
        rw [BitVec.toNat_sub, BitVec.toNat_ofNat, BitVec.toNat_ofNat, BitVec.toNat_ofNat]
        omega
      have hlt := Nat.lt_of_lt_of_le (offset_add_lt hi hk) hcount
      have hin := Nat.lt_of_lt_of_le (offset_add_lt hi hk) hn
      rw [hsub, UInt8.toNat_add, UInt8.toNat_ofNat', UInt8.toNat_ofBitVec, BitVec.toNat_setWidth,
        BitVec.toNat_ofNat]
      omega
    · rename_i hcode
      dsimp only
      rw [shiftLeft_bitOf]
      -- Behind the last length nothing more is looked up.
      by_cases h15 : m = 0
      · rw [h15]
        rfl
      have hx15 : x < 2 ^ 15 :=
        Nat.lt_of_lt_of_le hx (Nat.pow_le_pow_right (by decide) (by omega))
      have hbit : (getBit r).1.toNat ≤ 1 := Bool.toNat_le _
      refine ih (i + 1) _ _ (by omega) ?_ ?_
      · have hhalf : (2 * x + (getBit r).1.toNat) / 2 = x := by omega
        rw [hhalf, kraft_succ]
        by_cases h0 : num i = 0
        · rwa [h0]
        · by_contra hlt
          have hmax : (table.maxCode i).toNat = first num i + num i - 1 := by
            have hone : (1 : BitVec 16).toNat = 1 := rfl
            rw [ht.maxCode i hi h0, BitVec.toNat_sub, BitVec.toNat_ofNat, kraft_succ, hone]
            omega
          refine hcode ⟨?_, fun hall => ?_⟩
          · rw [BitVec.le_def, hmax, BitVec.toNat_ofNat]
            omega
          · rw [hall] at hmax
            have hall16 : (0xFFFF#16).toNat = 65535 := rfl
            omega
      · rw [Nat.pow_succ]
        omega

theorem assigned_safe (h : Counted bits n) (ht : table.Assigned (counts bits)) :
    table.Safe n := by
  refine fun vals r => huffDecode_isSome (fun r => ?_) r
  have hnum : ∀ i < 16, counts bits i ≤ 255 := fun i hi =>
    Nat.le_trans (num_le_offset hi) h.total
  have hbit : bitOf (getBit r).1 = BitVec.ofNat 16 (getBit r).1.toNat := by
    cases (getBit r).1 <;> rfl
  unfold huffDecodeBits
  dsimp only
  rw [hbit]
  exact huffSearch_isSome ht hnum h.total h.room vals 16 0 _ _ rfl (Nat.zero_le _)
    (Nat.lt_of_le_of_lt (Bool.toNat_le _) (by decide))

/-- A table as it is before anything has been read into it. -/
def HuffTable.zeroed : HuffTable :=
  ⟨fun _ => 0, fun _ => 0, fun _ => 0, ⟨fun _ => 0⟩, ⟨fun _ => 0⟩⟩

theorem zeroed_safe (hn : 0 < n) : HuffTable.zeroed.Safe n := by
  refine fun vals r => huffDecode_isSome (fun r => ?_) r
  have hsearch : ∀ m i code r, (huffSearch HuffTable.zeroed vals m i code r).isSome := by
    intro m
    induction m with
    | zero => exact fun _ _ _ => rfl
    | succ m ih =>
      intro i code r
      rw [huffSearch]
      split
      · rename_i hcode
        have hzero : code = 0 := BitVec.eq_of_toNat_eq (Nat.le_zero.1 hcode.1)
        rw [Option.isSome_map, Buffer.get_isSome, hzero]
        have hj : (0 + UInt8.ofBitVec ((0#16 - 0#16).setWidth 8)).toNat = 0 := by decide
        refine ⟨Int.natCast_nonneg _, Int.ofNat_lt.2 ?_⟩
        show (0 + UInt8.ofBitVec ((0#16 - 0#16).setWidth 8)).toNat < n
        rwa [hj]
      · exact ih _ _ _
  exact hsearch _ _ _ _

/-! ## The looked up code word is the searched one -/

theorem getBit_buffer (r : BitReader) {j : Nat} (hj : j < 7) :
    (getBit r).2.bitBuf.getMsbD j = r.bitBuf.getMsbD (j + 1) := by
  unfold getBit
  dsimp only
  split
  · rw [BitVec.getMsbD_shiftLeft, BitVec.getMsbD_or, zeroExtend_getMsbD,
      decide_eq_false (by omega), Bool.false_and, Bool.or_false, Nat.add_comm]
  · rw [BitVec.getMsbD_shiftLeft, Nat.add_comm]

/-- The byte in the buffer's upper half is what the next eight calls of `getBit` return. -/
theorem getBit_afterBits (r : BitReader) {j : Nat} (hj : j < 8) :
    (getBit (afterBits j r)).1 = r.bitBuf.getMsbD j := by
  have main : ∀ j l, j + l < 8 →
      (afterBits j r).bitBuf.getMsbD l = r.bitBuf.getMsbD (j + l) := by
    intro j
    induction j with
    | zero => exact fun l _ => by rw [Nat.zero_add]; rfl
    | succ j ih =>
      intro l hl
      rw [afterBits, getBit_buffer _ (by omega), ih (l + 1) (by omega)]
      congr 1
      omega
  rw [← Nat.add_zero j, ← main j 0 (by omega), ← topBit]
  rfl

theorem lookUpIndex_number (r : BitReader) :
    (lookUpIndex r : Nat) = number r.bitBuf.getMsbD 8 := by
  rw [number_msb _ (by decide), ← Nat.shiftRight_eq_div_pow, ← BitVec.toNat_ushiftRight]
  rfl

theorem huffDecode_eq (h : Counted bits n) (ht : table.Created (counts bits) vals)
    (r : BitReader) : huffDecode table vals r = huffDecodeBits table vals r := by
  unfold huffDecode
  dsimp only
  split
  swap
  · rfl
  rename_i hfound
  obtain ⟨i, k, hcovers, hlength, hvalue⟩ := ht.sound (lookUpIndex r) hfound
  rw [lookUpIndex_number, covers_number] at hcovers
  obtain ⟨hi, hcodes⟩ := hcovers
  have hroom : kraft (counts bits) (i + 1) < 2 ^ 16 :=
    Nat.lt_of_le_of_lt (Nat.le_trans (kraft_le (show i + 1 ≤ 8 from hi)) (counted_kraft h))
      (by decide)
  rw [huffDecodeBits_codes ht.assigned (by omega) hroom (Nat.le_trans h.total (by decide)) hcodes
    fun j hj => getBit_afterBits r (by omega), hvalue, Option.map_some]
  dsimp only at hlength ⊢
  rw [hlength, UInt8.toNat_ofNat', Nat.mod_eq_of_lt (by omega), getBits2,
    getBits_eq (by omega) (by omega)]

/-- **Looking a byte up finds what the search finds**, and leaves the reader as the search leaves
it. -/
theorem huffDecode_search {old : HuffTable} (h : Counted bits n)
    (hcreate : huffCreate bits vals old = some table) (r : BitReader) :
    huffDecode table vals r = huffDecodeBits table vals r :=
  huffDecode_eq h (huffCreate_created h hcreate) r

/-- One code word of one bit and one of two. -/
def twoCodes (i : Nat) : UInt8 := if i < 2 then 1 else 0

def twoVals : Buffer UInt8 16 := ⟨fun i => if i = 0 then 4 else 7⟩

theorem huffDecode_twoCodes : ∃ table, huffCreate twoCodes twoVals .zeroed = some table ∧
    ∀ r, huffDecode table twoVals r = huffDecodeBits table twoVals r := by
  have hsome : (huffCreate twoCodes twoVals .zeroed).isSome := by decide +kernel
  obtain ⟨table, hcreate⟩ := Option.isSome_iff_exists.1 hsome
  exact ⟨table, hcreate, fun r => huffDecode_search ⟨by decide, by decide⟩ hcreate r⟩

/-! ## The bounds of the tables -/

theorem enterEntry_isSome (codeLength : Nat) (value : UInt8) (t : LookUp) (entry : Nat) :
    (enterEntry codeLength value t entry).isSome ↔ entry < 256 := by
  have hup := t.lookUp.set_isSome entry value
  have hbits := t.lookUpBits.set_isSome entry (UInt8.ofNat codeLength)
  have hentry : (0 : Int) ≤ entry ∧ (entry : Int) < (256 : Nat) ↔ entry < 256 := by omega
  unfold enterEntry
  cases hset : t.lookUp.set entry value with
  | none =>
    rw [hset, hentry] at hup
    exact hup
  | some lookUp =>
    rw [hentry] at hbits
    rw [← hbits]
    cases t.lookUpBits.set entry (UInt8.ofNat codeLength) <;> exact Iff.rfl

theorem enterCode_isSome {t : LookUp} {value : UInt8} (h : Counted bits n) (hi : i < 8)
    (hk : k < counts bits i) :
    (enterCode (i + 1) (BitVec.ofNat 16 (first (counts bits) i + k)) value t).isSome ↔
      (first (counts bits) i + k + 1) * 2 ^ (8 - (i + 1)) ≤ 256 := by
  have hpass : (enterCode (i + 1) (BitVec.ofNat 16 (first (counts bits) i + k)) value t).isSome ↔
      ∀ suffix ∈ List.range (2 ^ (8 - (i + 1))),
        (first (counts bits) i + k) * 2 ^ (8 - (i + 1)) + suffix < 256 := by
    refine foldlM_isSome fun suffix hsuffix b => ?_
    rw [enterEntry_isSome, entry_toNat h hi hk (List.mem_range.1 hsuffix)]
  have hpos := Nat.two_pow_pos (8 - (i + 1))
  rw [hpass, Nat.add_mul _ 1, Nat.one_mul]
  constructor
  · intro hall
    have hlast := hall (2 ^ (8 - (i + 1)) - 1) (List.mem_range.2 (by omega))
    omega
  · intro hle suffix hsuffix
    rw [List.mem_range] at hsuffix
    omega

theorem enterLength_isSome {t : LookUp} (h : Counted bits n)
    (hassigned : table.Assigned (counts bits)) (hi : i < 8) :
    (enterLength bits vals table t i).isSome ↔
      ∀ k ∈ List.range (counts bits i),
        (first (counts bits) i + k + 1) * 2 ^ (8 - (i + 1)) ≤ 256 := by
  refine foldlM_isSome fun k hk b => ?_
  have hk : k < counts bits i := List.mem_range.1 hk
  have hroom : offset (counts bits) i + k < n :=
    Nat.lt_of_lt_of_le (offset_add_lt (show i < 16 by omega) hk) h.room
  have hget := vals.get_inside ⟨_, hroom⟩
  rw [valPtr_toNat h hassigned (by omega) hk, hassigned.minCode i (by omega) (by omega),
    ← BitVec.ofNat_add, hget]
  exact enterCode_isSome h hi hk

/-- **`huffCreate` stays inside of its tables** exactly if there is room for the short code words:
no check of `readDHTMarker` says so. -/
theorem huffCreate_isSome (h : Counted bits n) (vals : Buffer UInt8 n) (old : HuffTable) :
    (huffCreate bits vals old).isSome ↔ kraft (counts bits) 8 ≤ 256 := by
  have hassigned := assignCodes_assigned bits old
  have hpass : (huffCreate bits vals old).isSome ↔ ∀ i ∈ List.range 8,
      ∀ k ∈ List.range (counts bits i),
        (first (counts bits) i + k + 1) * 2 ^ (8 - (i + 1)) ≤ 256 := by
    have hfold := foldlM_isSome (f := enterLength bits vals (assignCodes bits old 16).table)
      (b := ⟨(assignCodes bits old 16).table.lookUp, ⟨fun _ => 0⟩⟩)
      fun i hi b => enterLength_isSome (t := b) h hassigned (List.mem_range.1 hi)
    refine Iff.trans ?_ hfold
    unfold huffCreate
    dsimp only
    rw [Option.bind_eq_bind, Option.isSome_bind]
    cases (List.range 8).foldlM (enterLength bits vals (assignCodes bits old 16).table)
      ⟨(assignCodes bits old 16).table.lookUp, ⟨fun _ => 0⟩⟩ <;> exact Iff.rfl
  rw [hpass]
  constructor
  · intro hall
    have main : ∀ m ≤ 8, kraft (counts bits) m * 2 ^ (8 - m) ≤ 256 := by
      intro m
      induction m with
      | zero => exact fun _ => by simp [kraft]
      | succ m ih =>
        intro hm
        by_cases h0 : counts bits m = 0
        · have hpow : 2 ^ (8 - m) = 2 * 2 ^ (8 - (m + 1)) := by
            rw [← Nat.pow_succ']
            congr 1
            omega
          have hold := ih (by omega)
          rw [hpow, ← Nat.mul_assoc, Nat.mul_comm _ 2] at hold
          rwa [kraft, h0]
        · have hlast := hall m (List.mem_range.2 hm) (counts bits m - 1)
            (List.mem_range.2 (by omega))
          have hcode : first (counts bits) m + (counts bits m - 1) + 1 =
              kraft (counts bits) (m + 1) := by
            rw [kraft_succ]
            omega
          rwa [hcode] at hlast
    have h8 := main 8 (Nat.le_refl 8)
    rwa [Nat.sub_self, Nat.pow_zero, Nat.mul_one] at h8
  · intro hle i hi k hk
    rw [List.mem_range] at hi hk
    have hcode : first (counts bits) i + k + 1 ≤ kraft (counts bits) (i + 1) := by
      rw [kraft_succ]
      omega
    exact Nat.le_trans (Nat.mul_le_mul_right _ hcode)
      (Nat.le_trans (kraft_scale _ (show i + 1 ≤ 8 from hi)) hle)

end RetroLens.Jpeg
