import Mathlib.Data.Nat.Size
import RetroLens.Jpeg.Scan

/-!
# Entropy-coded data as bits

`Reads m s l Q` says that a part of the decoder takes the bits `l` off the
stream where the stream begins with them, and ends in `Q`. Code words are read
(`decodeSymbol_reads`) and the bits that follow them (`receive_reads`), and from
those the coefficients of a block: bits that code coefficients are decoded to
them (`decodeACs_reads`), and a reduced decode passes over as many
(`decodeCoeffs_reads`).
-/

namespace RetroLens.Jpeg

open Text Bits CanonicalCode Checked Comps RetroLens.Core

variable {r : BitReader} {s s' : Pico} {l l' w : List Bool} {n k : Nat} {α β : Type}

/-! ## Readers -/

/-- The reader `n` bits further on. -/
structure Past (r : BitReader) (n : Nat) (r' : BitReader) : Prop where
  ready : r'.Ready
  bits : r'.bits true = skip n (r.bits true)

theorem Past.trans {r' r'' : BitReader} {m : Nat} (h : Past r n r') (h' : Past r' m r'') :
    Past r (n + m) r'' := ⟨h'.ready, by rw [h'.bits, h.bits, skip_skip]⟩

theorem afterBits_past (h : r.Ready) (n : Nat) : Past r n (afterBits n r) := by
  induction n with
  | zero => exact ⟨h, rfl⟩
  | succ n ih =>
    obtain ⟨-, hbits, hready⟩ := getBit_bits ih.ready
    exact ⟨hready, by rw [afterBits, hbits, ih.bits, skip_skip]⟩

theorem getBit_stream (h : r.Ready) (n : Nat) :
    (getBit (afterBits n r)).1 = r.bits true n := by
  have hpast := afterBits_past h n
  rw [(getBit_bits hpast.ready).1, hpast.bits, skip, Nat.zero_add]

/-! ## What is read -/

/-- Where the stream begins with `l`, the computation takes that and ends in `Q`. -/
def Reads (m : Pj α) (s : Pico) (l : List Bool) (Q : α → Pico → Prop) : Prop :=
  s.reader.Ready → Starts (s.reader.bits true) l →
    ∃ a s', m s = .done a s' ∧ Past s.reader l.length s'.reader ∧ Q a s'

namespace Reads

variable {m : Pj α} {f : α → Pj β} {Q Q' : α → Pico → Prop} {P : β → Pico → Prop}

theorem done {a : α} {u : Pico} (hm : m s = .done a u) (hreader : u.reader = s.reader)
    (h : Q a u) : Reads m s [] Q := fun hready _ =>
  ⟨a, u, hm, by rw [hreader]; exact ⟨hready, rfl⟩, h⟩

theorem bind (hm : Reads m s l Q) (hf : ∀ a s', Q a s' → Reads (f a) s' l' P) :
    Reads (m >>= f) s (l ++ l') P := by
  intro hready hstarts
  rw [starts_append] at hstarts
  obtain ⟨a, s₁, hdone, hpast, hq⟩ := hm hready hstarts.1
  obtain ⟨b, s₂, hdone', hpast', hp⟩ := hf a s₁ hq hpast.ready (by
    rw [hpast.bits]
    exact hstarts.2)
  refine ⟨b, s₂, by rw [bind_done hdone, hdone'], ?_, hp⟩
  rw [List.length_append]
  exact hpast.trans hpast'

/-- A step that takes no bits. -/
theorem andThen {a : α} {u : Pico} (hm : m s = .done a u) (hreader : u.reader = s.reader)
    (hf : Reads (f a) u l P) : Reads (m >>= f) s l P :=
  bind (l := []) (done (Q := fun b t => b = a ∧ t = u) hm hreader ⟨rfl, rfl⟩) fun _ _ h => by
    rw [h.1, h.2]
    exact hf

theorem mono (hm : Reads m s l Q) (h : ∀ a s', Q a s' → Q' a s') : Reads m s l Q' :=
  fun hready hstarts => by
    obtain ⟨a, s', hdone, hpast, hq⟩ := hm hready hstarts
    exact ⟨a, s', hdone, hpast, h a s' hq⟩

end Reads

/-- Nothing but the reader is another one. -/
def SameButReader (s s' : Pico) : Prop := s.withReader s'.reader = s'

/-- The table decodes a code word to a value. -/
def Tables.CodeOf (b : Tables) (t : Fin 4) (w : List Bool) (value : UInt8) : Prop :=
  ∀ r : BitReader, r.Ready → Starts (r.bits true) w →
    ∃ r', Past r w.length r' ∧ huffDecode (b.huffTab t) (b.huffVal t) r = some (value, r')

/-- **A table that was created decodes its code words.** -/
theorem huffDecode_codes {bits : Nat → UInt8} {vals : Buffer UInt8 n} {table : HuffTable}
    {i : Nat} {value : UInt8} (h : Counted bits n) (ht : table.Created (counts bits) vals)
    (hi : i < 16) (hk : k < counts bits i) (hroom : kraft (counts bits) (i + 1) < 2 ^ (i + 1))
    (hvalue : vals.get (offset (counts bits) i + k : Nat) = some value) (hr : r.Ready)
    (hstarts : Starts (r.bits true) (word (i + 1) (first (counts bits) i + k))) :
    huffDecode table vals r = some (value, afterBits (i + 1) r) := by
  have hcodes := codes_of_starts hk (Nat.le_of_lt hroom) hstarts
  have hsmall : kraft (counts bits) (i + 1) < 2 ^ 16 :=
    Nat.lt_of_lt_of_le hroom (Nat.pow_le_pow_right (by decide) (by omega))
  rw [huffDecode_eq h ht, huffDecodeBits_codes ht.assigned hi hsmall
    (Nat.le_trans h.total (by decide)) hcodes fun j _ => getBit_stream hr j, hvalue]
  rfl

theorem decodeSymbol_reads {t : Fin 4} {value : UInt8} (h : s.tables.CodeOf t w value) :
    Reads (decodeSymbol t) s w (fun a s' => a = value ∧ SameButReader s s') := by
  intro hready hstarts
  obtain ⟨r', hpast, hdecode⟩ := h s.reader hready hstarts
  exact ⟨value, s.withReader r', by rw [decodeSymbol, hdecode], hpast, rfl, rfl⟩

theorem receive_reads {x : Nat} (hn : n ≤ 16) (hx : x < 2 ^ n) :
    Reads (receive n) s (word n x)
      (fun a s' => a = BitVec.ofNat 16 x ∧ SameButReader s s') := by
  intro hready hstarts
  by_cases h0 : n = 0
  · subst h0
    obtain rfl : x = 0 := Nat.lt_one_iff.1 hx
    exact ⟨0, s, rfl, ⟨hready, rfl⟩, rfl, rfl⟩
  · obtain ⟨hnumber, hbits, hready'⟩ := getBits_bits true hready hn
    refine ⟨_, _, if_pos h0, ?_, ?_, rfl⟩
    · rw [word_length]
      exact ⟨hready', hbits⟩
    · apply BitVec.eq_of_toNat_eq
      rw [BitVec.toNat_ofNat, Nat.mod_eq_of_lt (Nat.lt_of_lt_of_le hx
        (Nat.pow_le_pow_right (by decide) hn)), ← number_word hstarts hx]
      exact hnumber

/-! ## Numbers -/

/-- How many bits a number has behind its code word. -/
def category (v : Int) : Nat := v.natAbs.size

/-- These bits: a negative number has those of the number one less. -/
def valueBits (v : Int) : Nat := if v < 0 then 2 ^ category v - 1 - v.natAbs else v.natAbs

theorem natAbs_lt (v : Int) : v.natAbs < 2 ^ category v := Nat.lt_size_self _

theorem valueBits_lt (v : Int) : valueBits v < 2 ^ category v := by
  have hlt := natAbs_lt v
  unfold valueBits
  split <;> omega

theorem category_pos {v : Int} (h : v ≠ 0) : 0 < category v :=
  Nat.size_pos.2 (Int.natAbs_pos.2 h)

/-- The first bit of a number is set. -/
theorem natAbs_ge {v : Int} (h : v ≠ 0) : 2 ^ (category v - 1) ≤ v.natAbs := by
  have hpos := category_pos h
  exact Nat.lt_size.1 (show category v - 1 < v.natAbs.size by rw [category] at hpos ⊢; omega)

/-- **A number is extended to what it was.** -/
theorem huffExtend_value {v : Int} (h : category v ≤ 15) :
    huffExtend (BitVec.ofNat 16 (valueBits v)) (UInt8.ofNat (category v)) = BitVec.ofInt 16 v := by
  by_cases h0 : v = 0
  · subst h0
    decide
  have hpos := category_pos h0
  have hlt := natAbs_lt v
  have hge := natAbs_ge h0
  have hvalue := valueBits_lt v
  have hpow : 2 ^ category v ≤ 2 ^ 15 := Nat.pow_le_pow_right (by decide) h
  have hhalf : 2 ^ category v = 2 * 2 ^ (category v - 1) := by
    rw [← Nat.pow_succ']
    congr 1
    omega
  have hsize : (UInt8.ofNat (category v)).toNat = category v := by
    rw [UInt8.toNat_ofNat']
    omega
  have hrange : 0 < UInt8.ofNat (category v) ∧ UInt8.ofNat (category v) ≤ 15 := by
    rw [UInt8.lt_iff_toNat_lt, UInt8.le_iff_toNat_le, hsize]
    exact ⟨hpos, h⟩
  have htest : (getExtendTest (UInt8.ofNat (category v))).toNat = 2 ^ (category v - 1) := by
    rw [getExtendTest, if_pos hrange, hsize, BitVec.toNat_shiftLeft, Nat.shiftLeft_eq]
    have hone : (1#16).toNat = 1 := rfl
    rw [hone, Nat.one_mul, Nat.mod_eq_of_lt (by omega)]
  have hsmall : (BitVec.ofNat 16 (valueBits v)).toNat = valueBits v := by
    rw [BitVec.toNat_ofNat, Nat.mod_eq_of_lt (by omega)]
  have hcond : BitVec.ofNat 16 (valueBits v) < getExtendTest (UInt8.ofNat (category v)) ↔
      valueBits v < 2 ^ (category v - 1) := by
    rw [BitVec.lt_def, htest, hsmall]
  unfold huffExtend
  by_cases hneg : v < 0
  · have hbits : valueBits v = 2 ^ category v - 1 - v.natAbs := if_pos hneg
    have hone : (1#16).toNat = 1 := rfl
    rw [if_pos (hcond.2 (by omega)), getExtendOffset, if_pos hrange, hsize, hbits]
    apply BitVec.eq_of_toNat_eq
    rw [BitVec.toNat_add, BitVec.toNat_sub, BitVec.toNat_shiftLeft, BitVec.toNat_ofNat,
      BitVec.toNat_ofInt, Nat.shiftLeft_eq, hone, Nat.one_mul]
    generalize 2 ^ category v = p at hlt hpow ⊢
    omega
  · have hbits : valueBits v = v.natAbs := if_neg hneg
    rw [if_neg (fun hlt' => absurd (hcond.1 hlt') (by omega)), hbits]
    apply BitVec.eq_of_toNat_eq
    rw [BitVec.toNat_ofNat, BitVec.toNat_ofInt]
    omega

/-! ## The coefficients of a block -/

/-- Bits that code the coefficients `du` of a block from coefficient `k` on. -/
inductive AcCode (b : Tables) (t : Fin 4) (du : Nat → Int) : Nat → List Bool → Prop
  | full : AcCode b t du 64 []
  | rest {k : Nat} {w : List Bool} : k < 64 → (∀ j, k ≤ j → j < 64 → du j = 0) →
      b.CodeOf t w 0 → AcCode b t du k w
  | zeros {k : Nat} {w l : List Bool} : k + 16 ≤ 64 → (∀ j, k ≤ j → j < k + 16 → du j = 0) →
      b.CodeOf t w 0xF0 → AcCode b t du (k + 16) l → AcCode b t du k (w ++ l)
  | value {k run : Nat} {w l : List Bool} : run ≤ 15 → k + run ≤ 63 →
      (∀ j, k ≤ j → j < k + run → du j = 0) → du (k + run) ≠ 0 → category (du (k + run)) ≤ 15 →
      b.CodeOf t w (UInt8.ofNat (run * 16 + category (du (k + run)))) →
      AcCode b t du (k + run + 1) l →
      AcCode b t du k
        (w ++ (word (category (du (k + run))) (valueBits (du (k + run))) ++ l))

/-- The coefficients from coefficient `k` on are `du`, and those before it as they were. -/
def Coeffs (k : Nat) (du : Nat → Int) (quant : Nat → BitVec 16) (s s' : Pico) : Prop :=
  ∀ j < 64, s'.coeffBuf (zag.getD j 0) =
    if k ≤ j then BitVec.ofInt 16 (du j) * quant j else s.coeffBuf (zag.getD j 0)

/-- Nothing but the reader and the coefficients is another one. -/
def SameButBlock (s s' : Pico) : Prop :=
  { s with reader := s'.reader, coeffBuf := s'.coeffBuf } = s'

theorem zag_inj {i j : Nat} (hi : i < 64) (hj : j < 64) (h : zag.getD i 0 = zag.getD j 0) :
    i = j := by
  have hnodup : zag.Nodup := by decide
  have hlength : zag.length = 64 := rfl
  rw [List.getD_eq_getElem _ _ (by omega), List.getD_eq_getElem _ _ (by omega)] at h
  exact (List.Nodup.getElem_inj_iff hnodup).1 h

theorem setCoeff_done {k : Nat} (hk : k < 64) (value : BitVec 16) (s : Pico) :
    ∃ coeffs, setCoeff k value s = .done () { s with coeffBuf := coeffs } ∧
      ∀ j < 64, coeffs (zag.getD j 0) = if j = k then value else s.coeffBuf (zag.getD j 0) := by
  refine ⟨_, rfl, fun j hj => ?_⟩
  by_cases hjk : j = k
  · subst hjk
    rw [if_pos rfl]
    exact Function.update_self ..
  · rw [if_neg hjk]
    exact Function.update_of_ne (fun h => hjk (zag_inj hj hk h)) _ _

/-- `n` coefficients are cleared. -/
theorem clearCoeffs_done (n k : Nat) (hk : k + n ≤ 64) (s : Pico) :
    ∃ coeffs, clearCoeffs n k s = .done () { s with coeffBuf := coeffs } ∧
      ∀ j < 64, coeffs (zag.getD j 0) =
        if k ≤ j ∧ j < k + n then 0 else s.coeffBuf (zag.getD j 0) := by
  induction n generalizing k s with
  | zero =>
    refine ⟨s.coeffBuf, rfl, fun j _ => ?_⟩
    rw [if_neg (by omega)]
  | succ n ih =>
    obtain ⟨cleared, hset, hcleared⟩ := setCoeff_done (show k < 64 by omega) 0 s
    obtain ⟨coeffs, hclear, hcoeffs⟩ := ih (k + 1) (by omega) { s with coeffBuf := cleared }
    refine ⟨coeffs, by rw [clearCoeffs, bind_done hset, hclear], fun j hj => ?_⟩
    rw [hcoeffs j hj]
    dsimp only
    rw [hcleared j hj]
    by_cases hjk : j = k
    · rw [if_neg (by omega), if_pos hjk, if_pos (by omega)]
    · rw [if_neg hjk]
      by_cases hin : k + 1 ≤ j ∧ j < k + 1 + n
      · rw [if_pos hin, if_pos (by omega)]
      · rw [if_neg hin, if_neg (by omega)]

/-- The two parts of a symbol. -/
theorem symbol_parts {run size : Nat} (hrun : run ≤ 15) (hsize : size ≤ 15) :
    (UInt8.ofNat (run * 16 + size) &&& 15) = UInt8.ofNat size ∧
      (UInt8.ofNat (run * 16 + size) >>> 4).toNat = run := by
  have hall : ∀ run ≤ 15, ∀ size ≤ 15,
      (UInt8.ofNat (run * 16 + size) &&& 15) = UInt8.ofNat size ∧
        (UInt8.ofNat (run * 16 + size) >>> 4).toNat = run := by decide
  exact hall run hrun size hsize

theorem SameButReader.coeffBuf (h : SameButReader s s') : s'.coeffBuf = s.coeffBuf := by
  rw [← h]
  rfl

theorem SameButReader.tables (h : SameButReader s s') : s'.tables = s.tables := by
  rw [← h]
  rfl

theorem SameButReader.block (h : SameButReader s s') : SameButBlock s s' := by
  rw [SameButBlock, h.coeffBuf]
  exact h

theorem SameButBlock.trans {s'' : Pico} (h : SameButBlock s s') (h' : SameButBlock s' s'') :
    SameButBlock s s'' := by
  rw [SameButBlock] at h h' ⊢
  rw [← h', ← h]

theorem SameButBlock.tables (h : SameButBlock s s') : s'.tables = s.tables := by
  rw [← h]

theorem sameButBlock_coeffs (s : Pico) (coeffs : Nat → BitVec 16) :
    SameButBlock s { s with coeffBuf := coeffs } := rfl

/-- A symbol and the bits behind it. -/
theorem symbol_reads {t : Fin 4} (run size x : Nat) {Q : Unit → Pico → Prop}
    {f : UInt8 → BitVec 16 → Pj Unit} (hrun : run ≤ 15) (hsize : size ≤ 15) (hx : x < 2 ^ size)
    (h : s.tables.CodeOf t w (UInt8.ofNat (run * 16 + size)))
    (hf : ∀ s', SameButReader s s' →
      Reads (f (UInt8.ofNat (run * 16 + size)) (BitVec.ofNat 16 x)) s' l Q) :
    Reads (decodeSymbol t >>= fun symbol => receive (symbol &&& 0xF).toNat >>= fun extraBits =>
      f symbol extraBits) s (w ++ (word size x ++ l)) Q := by
  refine (decodeSymbol_reads h).bind fun symbol s₁ h₁ => ?_
  obtain ⟨rfl, hs₁⟩ := h₁
  have hlow : (UInt8.ofNat (run * 16 + size) &&& 0xF).toNat = size := by
    rw [show (UInt8.ofNat (run * 16 + size) &&& 0xF) = UInt8.ofNat size from
      (symbol_parts hrun hsize).1, UInt8.toNat_ofNat']
    omega
  rw [hlow]
  refine (receive_reads (by omega) hx).bind fun extraBits s₂ h₂ => ?_
  obtain ⟨rfl, hs₂⟩ := h₂
  refine hf s₂ ?_
  rw [SameButReader] at hs₁ hs₂ ⊢
  rw [← hs₂, ← hs₁]
  rfl

/-- **Bits that code coefficients are decoded to them.** -/
theorem decodeACs_reads {b : Tables} {t : Fin 4} {du : Nat → Int} (quant : Nat → BitVec 16)
    (h : AcCode b t du k l) (hb : s.tables = b) (hn : 64 - k ≤ n) :
    Reads (decodeACs t quant n k) s l
      (fun _ s' => SameButBlock s s' ∧ Coeffs k du quant s s') := by
  induction h generalizing n s with
  | full =>
    refine Reads.done (a := ()) (u := s) ?_ rfl ⟨rfl, fun j hj => ?_⟩
    · cases n with
      | zero => rfl
      | succ n => rfl
    · rw [if_neg (by omega)]
  | @rest k w hk hzero hcode =>
    obtain ⟨m, rfl⟩ : ∃ m, n = m + 1 := ⟨n - 1, by omega⟩
    have hbits : w = w ++ (word 0 0 ++ []) := by rw [word, List.nil_append, List.append_nil]
    rw [decodeACs, if_pos hk, hbits]
    refine symbol_reads 0 0 0 (by decide) (by decide) (by decide) (hb ▸ hcode)
      fun s₁ hs₁ => ?_
    obtain ⟨coeffs, hclear, hcoeffs⟩ := clearCoeffs_done (64 - k) k (by omega) s₁
    refine Reads.done hclear rfl ⟨hs₁.block.trans (sameButBlock_coeffs s₁ coeffs), fun j hj => ?_⟩
    dsimp only
    rw [hcoeffs j hj, hs₁.coeffBuf]
    by_cases hkj : k ≤ j
    · rw [if_pos (by omega), if_pos hkj, hzero j hkj hj]
      simp
    · rw [if_neg (by omega), if_neg hkj]
  | @zeros k w l hk hzero hcode hrest ih =>
    obtain ⟨m, rfl⟩ : ∃ m, n = m + 1 := ⟨n - 1, by omega⟩
    have hbits : w ++ l = w ++ (word 0 0 ++ l) := by rw [word, List.nil_append]
    rw [decodeACs, if_pos (by omega), hbits]
    refine symbol_reads 15 0 0 (by decide) (by decide) (by decide) (hb ▸ hcode)
      fun s₁ hs₁ => ?_
    obtain ⟨coeffs, hclear, hcoeffs⟩ := clearCoeffs_done 16 k hk s₁
    have hroom : ¬ k + 16 > 64 := by omega
    refine Reads.andThen (check_pass hroom) rfl (Reads.andThen hclear rfl ?_)
    refine (ih (s := { s₁ with coeffBuf := coeffs }) (hs₁.tables.trans hb) (by omega)).mono
      fun _ s₂ h₂ => ⟨(hs₁.block.trans (sameButBlock_coeffs s₁ coeffs)).trans h₂.1, fun j hj => ?_⟩
    rw [h₂.2 j hj]
    dsimp only
    rw [hcoeffs j hj, hs₁.coeffBuf]
    by_cases hkj : k ≤ j
    · rw [if_pos hkj]
      by_cases hlater : k + 16 ≤ j
      · rw [if_pos hlater]
      · rw [if_neg hlater, if_pos (by omega), hzero j hkj (by omega)]
        simp
    · rw [if_neg (by omega), if_neg (by omega), if_neg hkj]
  | @value k run w l hrun hk hzero hne hsize hcode hrest ih =>
    obtain ⟨m, rfl⟩ : ∃ m, n = m + 1 := ⟨n - 1, by omega⟩
    rw [decodeACs, if_pos (by omega)]
    refine symbol_reads run (category (du (k + run))) (valueBits (du (k + run))) hrun hsize
      (valueBits_lt _) (hb ▸ hcode) fun s₁ hs₁ => ?_
    obtain ⟨hlow, hhigh⟩ := symbol_parts hrun hsize
    have hnot : UInt8.ofNat (category (du (k + run))) ≠ 0 := fun h0 => by
      have hzero' := congrArg UInt8.toNat h0
      rw [UInt8.toNat_ofNat', Nat.mod_eq_of_lt (by omega)] at hzero'
      exact Nat.ne_of_gt (category_pos hne) hzero'
    dsimp only
    rw [hlow, hhigh, if_pos hnot, huffExtend_value hsize]
    -- What the branches do to the coefficients is the same.
    have hnext (s₂ : Pico) (hs₂ : SameButBlock s₁ s₂) (hcoeffs : ∀ j < 64,
        s₂.coeffBuf (zag.getD j 0) =
          if k ≤ j ∧ j < k + run then 0 else s₁.coeffBuf (zag.getD j 0)) :
        Reads (setCoeff (k + run) (BitVec.ofInt 16 (du (k + run)) * quant (k + run)) >>= fun _ =>
          decodeACs t quant m (k + run + 1)) s₂ l
          fun _ s' => SameButBlock s s' ∧ Coeffs k du quant s s' := by
      obtain ⟨coeffs, hset, hvalue⟩ := setCoeff_done (show k + run < 64 by omega)
        (BitVec.ofInt 16 (du (k + run)) * quant (k + run)) s₂
      refine Reads.andThen hset rfl ?_
      have hafter := ih (n := m) (s := { s₂ with coeffBuf := coeffs })
        ((hs₂.tables.trans hs₁.tables).trans hb) (by omega)
      refine hafter.mono fun _ s₃ h₃ =>
        ⟨(hs₁.block.trans (hs₂.trans (sameButBlock_coeffs s₂ coeffs))).trans h₃.1, fun j hj => ?_⟩
      rw [h₃.2 j hj]
      dsimp only
      rw [hvalue j hj, hcoeffs j hj, hs₁.coeffBuf]
      by_cases hjk : j = k + run
      · subst hjk
        rw [if_neg (by omega), if_pos rfl, if_pos (by omega)]
      rw [if_neg hjk]
      by_cases hkj : k ≤ j
      · rw [if_pos hkj]
        by_cases hlater : k + run + 1 ≤ j
        · rw [if_pos hlater]
        · rw [if_neg hlater, if_pos (by omega), hzero j hkj (by omega)]
          simp
      · rw [if_neg (by omega), if_neg (by omega), if_neg hkj]
    by_cases h0 : run = 0
    · rw [if_neg (by omega)]
      subst h0
      exact hnext s₁ rfl fun j _ => by rw [if_neg (by omega)]
    · obtain ⟨coeffs, hclear, hcoeffs⟩ := clearCoeffs_done run k (by omega) s₁
      have hroom : ¬ k + run > 63 := by omega
      rw [if_pos h0]
      exact Reads.andThen (check_pass hroom) rfl (Reads.andThen hclear rfl
        (hnext _ (sameButBlock_coeffs s₁ coeffs) hcoeffs))

instance : IsPreorder Pico SameButReader where
  refl _ := rfl
  trans s s' s'' h h' := by
    rw [SameButReader] at h h' ⊢
    rw [← h', ← h]
    rfl

/-- Passing over coefficients moves the reader only. -/
theorem skipACs_keeps (t : Fin 4) (n k : Nat) :
    Keeps (fun _ => True) SameButReader (fun _ => True) (fun _ => True) (skipACs t n k) := by
  have hsymbol : Keeps (fun _ => True) SameButReader (fun _ => True) (fun _ => True)
      (decodeSymbol t) := by
    intro s _
    unfold Ensures decodeSymbol
    cases huffDecode (s.tables.huffTab t) (s.tables.huffVal t) s.reader with
    | none => trivial
    | some found => exact ⟨trivial, rfl⟩
  have hreceive (m : Nat) : Keeps (fun _ => True) SameButReader (fun _ => True) (fun _ => True)
      (receive m) := by
    intro s _
    by_cases h0 : m ≠ 0
    · exact .of_done (if_pos h0) ⟨trivial, rfl⟩
    · exact .of_done (if_neg h0) ⟨trivial, rfl⟩
  induction n generalizing k with
  | zero => exact Keeps.pure ()
  | succ n ih =>
    refine Keeps.ite (fun _ => ?_) fun _ => Keeps.pure ()
    refine hsymbol.bind fun _ => (hreceive _).bind fun _ => ?_
    refine Keeps.ite (fun _ => ?_) fun _ => ?_
    · exact Keeps.ite (fun _ => (Keeps.check trivial).bind fun _ => ih _) fun _ => ih _
    · exact Keeps.ite (fun _ => (Keeps.check trivial).bind fun _ => ih _) fun _ => Keeps.pure ()

/-- Bits that code coefficients are passed over. -/
theorem skipACs_reads {t : Fin 4} {du : Nat → Int} (h : AcCode s.tables t du k l) (h1 : 1 ≤ k)
    (hn : 64 - k ≤ n) : Reads (skipACs t n k) s l (fun _ s' => SameButReader s s') := by
  intro hready hstarts
  obtain ⟨_, s₁, hdone, hpast, -⟩ := decodeACs_reads (fun _ => 0) h rfl hn hready hstarts
  have hrel := skipACs_decodeACs t (fun _ => 0) n h1 s s ⟨rfl, rfl⟩
  have hkeeps := skipACs_keeps t n k s trivial
  rw [hdone] at hrel
  generalize hout : skipACs t n k s = o at hrel
  cases hrel with
  | @done _ s₂ _ hsame =>
    refine ⟨_, s₂, rfl, ?_, (hkeeps.done hout).2⟩
    rw [sameFirst_blind.reader hsame]
    exact hpast

/-- The bits of a difference: the code word of its length, and it. -/
theorem decodeDC_reads {c : Nat} {diff : Int} (hsize : category diff ≤ 15)
    (hcode : s.tables.CodeOf (dcTable (s.scan.compDCTab c)) w (UInt8.ofNat (category diff))) :
    Reads (decodeDC c) s (w ++ word (category diff) (valueBits diff)) fun _ s' =>
      s' = { s with
        reader := s'.reader
        lastDC := Function.update s.lastDC c (BitVec.ofInt 16 diff + s.lastDC c)
        coeffBuf := Function.update s.coeffBuf 0
          ((BitVec.ofInt 16 diff + s.lastDC c) * s.quantOf c 0) } := by
  have hbits : w ++ word (category diff) (valueBits diff) =
      w ++ (word (category diff) (valueBits diff) ++ []) := by rw [List.append_nil]
  rw [hbits, decodeDC]
  refine Reads.andThen (a := s) (u := s) rfl rfl (symbol_reads 0 (category diff) (valueBits diff)
    (by decide) hsize (valueBits_lt diff) ?_ fun s₁ hs₁ => ?_)
  · rwa [Nat.zero_mul, Nat.zero_add]
  · rw [Nat.zero_mul, Nat.zero_add, huffExtend_value hsize]
    refine Reads.done rfl rfl ?_
    rw [← hs₁]
    rfl

end RetroLens.Jpeg
