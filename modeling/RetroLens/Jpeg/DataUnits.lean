import RetroLens.Jpeg.BitWriter

/-!
# The data units of the encoder

`stbiw__jpg_processDU` writes the 64 coefficients of a block: the difference of
the first one, and for each of the others that is not 0 a symbol and its bits.
What it computes with `float`, the transform and the division by the
quantization table, stands in front of that; here `DU` is the result.

What it writes is read back (`processDU_code`, `decodeAllCoeffs_reads`): a
decoder that has tables for the encoder's code words gets each coefficient,
times its entry of the quantization table.
-/

namespace RetroLens.Jpeg

open Text Bits Checked Comps RetroLens.Core

/-- The loop of `stbiw__jpg_calcBits`. -/
def countBits : Nat → Nat → Nat → Nat
  | 0, _, bits => bits
  | n + 1, tmp1, bits =>
    let tmp1 := tmp1 >>> 1
    if tmp1 ≠ 0 then countBits n tmp1 (bits + 1) else bits

/-- `bits`: the lower bits of `val`, and how many they are. -/
def calcBits (val : Int) : Nat × Nat :=
  let tmp1 := val.natAbs
  let val := if val < 0 then val - 1 else val
  let length := countBits tmp1 tmp1 1
  ((val % 2 ^ length).toNat, length)

/-- The code words of the symbols. -/
abbrev CodeTable := Nat → Nat × Nat

/-- The last coefficient up to `n` that is not 0, or 0. -/
def findEnd (DU : Nat → Int) : Nat → Nat
  | 0 => 0
  | n + 1 => if DU (n + 1) = 0 then findEnd DU n else n + 1

def skipZeros (DU : Nat → Int) (end0pos : Nat) : Nat → Nat → Nat
  | 0, i => i
  | n + 1, i => if DU i = 0 ∧ i ≤ end0pos then skipZeros DU end0pos n (i + 1) else i

/-- Coefficient `i` behind `nrzeroes` that are 0. -/
def writeAC (DU : Nat → Int) (HTAC : CodeTable) (nrzeroes i : Nat) (w : BitWriter) : BitWriter :=
  let w := if nrzeroes ≥ 16 then (writeBits (HTAC 0xF0))^[nrzeroes >>> 4] w else w
  let nrzeroes := if nrzeroes ≥ 16 then nrzeroes &&& 15 else nrzeroes
  let bits := calcBits (DU i)
  writeBits bits (writeBits (HTAC (nrzeroes <<< 4 + bits.2)) w)

/-- The coefficients up to `end0pos` from `i` on. -/
def writeACs (DU : Nat → Int) (HTAC : CodeTable) (end0pos : Nat) : Nat → Nat → BitWriter → BitWriter
  | 0, _, w => w
  | n + 1, startpos, w =>
    if startpos ≤ end0pos then
      let i := skipZeros DU end0pos (end0pos + 1 - startpos) startpos
      writeACs DU HTAC end0pos n (i + 1) (writeAC DU HTAC (i - startpos) i w)
    else w

def writeDC (diff : Int) (HTDC : CodeTable) (w : BitWriter) : BitWriter :=
  if diff = 0 then writeBits (HTDC 0) w
  else
    let bits := calcBits diff
    writeBits bits (writeBits (HTDC bits.2) w)

/-- What `stbiw__jpg_processDU` writes. It returns `DU 0`. -/
def processDU (DU : Nat → Int) (DC : Int) (HTDC HTAC : CodeTable) (w : BitWriter) : BitWriter :=
  let w := writeDC (DU 0 - DC) HTDC w
  let end0pos := findEnd DU 63
  if end0pos = 0 then writeBits (HTAC 0) w
  else
    let w := writeACs DU HTAC end0pos 63 1 w
    if end0pos ≠ 63 then writeBits (HTAC 0) w else w

/-! ## Numbers -/

variable {DU : Nat → Int} {HTAC HTDC : CodeTable} {b : Tables} {t : Fin 4} {k n end0pos : Nat}
  {l w : List Bool}

theorem countBits_eq {tmp1 : Nat} (hn : tmp1 ≤ n) (hpos : 0 < tmp1) (bits : Nat) :
    countBits n tmp1 bits + 1 = bits + tmp1.size := by
  induction n generalizing tmp1 bits with
  | zero => omega
  | succ n ih =>
    have hhalf : tmp1.size = (tmp1 >>> 1).size + 1 := by
      rw [Nat.shiftRight_one]
      conv_lhs => rw [← Nat.bit_bodd_div2 tmp1]
      rw [Nat.size_bit (by rw [Nat.bit_bodd_div2]; omega), Nat.div2_val]
    rw [countBits]
    split
    · rename_i hmore
      rw [ih (by rw [Nat.shiftRight_one]; omega) (Nat.pos_of_ne_zero hmore), hhalf]
      omega
    · rename_i hlast
      rw [hhalf, not_not.1 hlast, Nat.size_zero]

/-- A number that is not 0 is written with as many bits as it has. -/
theorem calcBits_eq {v : Int} (h : v ≠ 0) : calcBits v = (valueBits v, category v) := by
  have hlength : countBits v.natAbs v.natAbs 1 = category v := by
    have hcount := countBits_eq (Nat.le_refl v.natAbs) (Int.natAbs_pos.2 h) 1
    rw [category]
    omega
  have hlt := natAbs_lt v
  rw [calcBits, hlength, Prod.mk.injEq]
  refine ⟨?_, rfl⟩
  have hpow : ((2 : Int) ^ category v) = ((2 ^ category v : Nat) : Int) := by simp
  rw [hpow, valueBits]
  generalize 2 ^ category v = p at hlt
  split
  · rw [← Int.add_mul_emod_self_right (v - 1) 1 p, one_mul, Int.emod_eq_of_lt (by omega) (by omega)]
    omega
  · rw [Int.emod_eq_of_lt (by omega) (by omega)]
    omega

theorem category_le {v : Int} {m : Nat} (h : v.natAbs < 2 ^ m) : category v ≤ m :=
  Nat.size_le.2 h

/-! ## The zeros -/

theorem findEnd_le (DU : Nat → Int) (n : Nat) : findEnd DU n ≤ n := by
  induction n with
  | zero => exact Nat.le_refl 0
  | succ n ih =>
    rw [findEnd]
    split
    · exact Nat.le_succ_of_le ih
    · exact Nat.le_refl _

theorem findEnd_zero (DU : Nat → Int) (n : Nat) :
    ∀ j, findEnd DU n < j → j ≤ n → DU j = 0 := by
  induction n with
  | zero => omega
  | succ n ih =>
    intro j hj hn
    rw [findEnd] at hj
    split at hj
    · rename_i hzero
      by_cases hlast : j = n + 1
      · rw [hlast, hzero]
      · exact ih j hj (by omega)
    · omega

theorem findEnd_ne (h : findEnd DU n ≠ 0) : DU (findEnd DU n) ≠ 0 := by
  induction n with
  | zero => exact absurd rfl h
  | succ n ih =>
    rw [findEnd] at h ⊢
    split
    · rename_i hzero
      rw [if_pos hzero] at h
      exact ih h
    · assumption

/-- The zeros in front of a coefficient are skipped. -/
theorem skipZeros_stops (hend : DU end0pos ≠ 0) (hk : k ≤ end0pos) (hn : end0pos - k < n) :
    k ≤ skipZeros DU end0pos n k ∧ skipZeros DU end0pos n k ≤ end0pos ∧
      DU (skipZeros DU end0pos n k) ≠ 0 ∧ ∀ j, k ≤ j → j < skipZeros DU end0pos n k → DU j = 0 := by
  induction n generalizing k with
  | zero => omega
  | succ n ih =>
    rw [skipZeros]
    split
    · rename_i hzero
      have hne : k ≠ end0pos := fun heq => hend (heq ▸ hzero.1)
      obtain ⟨hle, hlast, hvalue, hall⟩ := ih (k := k + 1) (by omega) (by omega)
      refine ⟨by omega, hlast, hvalue, fun j hj hlt => ?_⟩
      by_cases hjk : j = k
      · rw [hjk, hzero.1]
      · exact hall j (by omega) hlt
    · rename_i hstop
      exact ⟨Nat.le_refl k, hk, fun h0 => hstop ⟨h0, hk⟩, fun j hj hlt => by omega⟩

/-! ## The code of a block -/

/-- The decoder has the code word that the encoder writes for a symbol. -/
structure Tables.Codes (b : Tables) (t : Fin 4) (HT : CodeTable) (symbol : Nat) : Prop where
  short : (HT symbol).2 ≤ 16
  lt : (HT symbol).1 < 2 ^ (HT symbol).2
  code : b.CodeOf t (word (HT symbol).2 (HT symbol).1) (UInt8.ofNat symbol)

/-- The decoder has the code words for the coefficients behind the first. -/
structure Tables.CodesACs (b : Tables) (t : Fin 4) (HTAC : CodeTable) : Prop where
  eob : b.Codes t HTAC 0
  zeros : b.Codes t HTAC 0xF0
  value : ∀ run ≤ 15, ∀ size ≤ 10, 1 ≤ size → b.Codes t HTAC (run * 16 + size)

/-- What is written for a part of the coefficients, in front of what codes the rest. -/
def Extends (b : Tables) (t : Fin 4) (DU : Nat → Int) (k k' : Nat) (f : BitWriter → BitWriter) :
    Prop :=
  ∃ l, Emits f l ∧ ∀ l', AcCode b t DU k' l' → AcCode b t DU k (l ++ l')

theorem Extends.comp {k' k'' : Nat} {f g : BitWriter → BitWriter} (hf : Extends b t DU k k' f)
    (hg : Extends b t DU k' k'' g) : Extends b t DU k k'' fun w => g (f w) := by
  obtain ⟨l, hemits, hcode⟩ := hf
  obtain ⟨l', hemits', hcode'⟩ := hg
  refine ⟨l ++ l', hemits.comp hemits', fun l'' h => ?_⟩
  rw [List.append_assoc]
  exact hcode _ (hcode' l'' h)

/-- Sixteen zeros, `m` times. -/
theorem zeros_extends (h : b.Codes t HTAC 0xF0) (m : Nat) (hm : k + 16 * m ≤ 64)
    (hzero : ∀ j, k ≤ j → j < k + 16 * m → DU j = 0) :
    Extends b t DU k (k + 16 * m) (writeBits (HTAC 0xF0))^[m] := by
  induction m generalizing k with
  | zero => exact ⟨[], emits_id, fun l' h' => h'⟩
  | succ m ih =>
    have hone : Extends b t DU k (k + 16) (writeBits (HTAC 0xF0)) :=
      ⟨_, writeBits_emits h.short h.lt, fun l' h' =>
        .zeros (by omega) (fun j hj hlt => hzero j hj (by omega)) h.code h'⟩
    have hrest := ih (k := k + 16) (by omega) fun j hj hlt => hzero j (by omega) (by omega)
    rw [show k + 16 * (m + 1) = k + 16 + 16 * m by omega]
    exact hone.comp hrest

theorem writeAC_eq (DU : Nat → Int) (HTAC : CodeTable) (nrzeroes i : Nat) :
    writeAC DU HTAC nrzeroes i = fun w => writeBits (calcBits (DU i))
      (writeBits (HTAC (nrzeroes % 16 * 16 + (calcBits (DU i)).2))
        ((writeBits (HTAC 0xF0))^[nrzeroes / 16] w)) := by
  funext w
  have hand : nrzeroes &&& 15 = nrzeroes % 16 := Nat.and_two_pow_sub_one_eq_mod nrzeroes 4
  rw [writeAC, Nat.shiftLeft_eq, Nat.shiftRight_eq_div_pow, hand]
  by_cases h : nrzeroes ≥ 16
  · simp only [if_pos h]
  · simp only [if_neg h]
    rw [Nat.mod_eq_of_lt (by omega), Nat.div_eq_of_lt (by omega)]
    rfl

/-- A coefficient, with the zeros in front of it. -/
theorem writeAC_extends {i : Nat} (h : b.CodesACs t HTAC) (hk : k ≤ i) (hi : i ≤ 63)
    (hzero : ∀ j, k ≤ j → j < i → DU j = 0) (hne : DU i ≠ 0) (hsize : category (DU i) ≤ 10) :
    Extends b t DU k (i + 1) (writeAC DU HTAC (i - k) i) := by
  have hsplit : k + 16 * ((i - k) / 16) + (i - k) % 16 = i := by omega
  have hrun : (i - k) % 16 ≤ 15 := by omega
  rw [writeAC_eq, calcBits_eq hne]
  generalize (i - k) / 16 = m at hsplit
  generalize (i - k) % 16 = run at hsplit hrun
  have hzeros : Extends b t DU k (k + 16 * m) (writeBits (HTAC 0xF0))^[m] :=
    zeros_extends h.zeros m (by omega) fun j hj hlt => hzero j hj (by omega)
  have hcode := h.value run hrun (category (DU i)) hsize (category_pos hne)
  refine hzeros.comp (g := fun w => writeBits (valueBits (DU i), category (DU i))
    (writeBits (HTAC (run * 16 + category (DU i))) w)) ⟨_, (writeBits_emits hcode.short
      hcode.lt).comp (@writeBits_emits (valueBits (DU i), category (DU i)) (by
        show category (DU i) ≤ 16
        omega) (valueBits_lt (DU i))), fun l' h' => ?_⟩
  rw [List.append_assoc]
  obtain rfl := hsplit
  exact .value hrun (by omega) (fun j hj hlt => hzero j (by omega) hlt) hne (by omega) hcode.code h'

theorem writeACs_extends (h : b.CodesACs t HTAC) (hend : DU end0pos ≠ 0) (hlast : end0pos ≤ 63)
    (hsize : ∀ j, 1 ≤ j → j ≤ 63 → category (DU j) ≤ 10) (h1 : 1 ≤ k) (hk : k ≤ end0pos + 1)
    (hn : end0pos + 1 - k ≤ n) :
    Extends b t DU k (end0pos + 1) (writeACs DU HTAC end0pos n k) := by
  induction n generalizing k with
  | zero =>
    obtain rfl : k = end0pos + 1 := by omega
    exact ⟨[], emits_id, fun l' h' => h'⟩
  | succ n ih =>
    by_cases hmore : k ≤ end0pos
    · obtain ⟨hle, hi, hne, hzero⟩ := skipZeros_stops hend hmore
        (show end0pos - k < end0pos + 1 - k by omega)
      have heq : writeACs DU HTAC end0pos (n + 1) k = fun w =>
          writeACs DU HTAC end0pos n (skipZeros DU end0pos (end0pos + 1 - k) k + 1)
            (writeAC DU HTAC (skipZeros DU end0pos (end0pos + 1 - k) k - k)
              (skipZeros DU end0pos (end0pos + 1 - k) k) w) := by
        funext w
        rw [writeACs, if_pos hmore]
      rw [heq]
      exact (writeAC_extends h hle (by omega) hzero hne (hsize _ (by omega) (by omega))).comp
        (ih (by omega) (by omega) (by omega))
    · obtain rfl : k = end0pos + 1 := by omega
      have heq : writeACs DU HTAC end0pos (n + 1) (end0pos + 1) = id := by
        funext w
        rw [writeACs, if_neg hmore, id]
      rw [heq]
      exact ⟨[], emits_id, fun l' h' => h'⟩

/-- What the transform and the quantization leave is small enough to be coded. -/
structure InRange (DU : Nat → Int) (DC : Int) : Prop where
  first : (DU 0 - DC).natAbs < 2048
  rest : ∀ k, 1 ≤ k → k ≤ 63 → (DU k).natAbs < 1024

/-- The bits of a block: its difference, and its other coefficients. -/
def BlockCode (b : Tables) (tdc tac : Fin 4) (DU : Nat → Int) (DC : Int) (l : List Bool) : Prop :=
  ∃ w l', l = w ++ word (category (DU 0 - DC)) (valueBits (DU 0 - DC)) ++ l' ∧
    b.CodeOf tdc w (UInt8.ofNat (category (DU 0 - DC))) ∧ AcCode b tac DU 1 l'

theorem writeDC_code {diff : Int} (h : ∀ size ≤ 11, b.Codes t HTDC size)
    (hdiff : diff.natAbs < 2048) :
    ∃ w, Emits (writeDC diff HTDC) (w ++ word (category diff) (valueBits diff)) ∧
      b.CodeOf t w (UInt8.ofNat (category diff)) := by
  have hsize : category diff ≤ 11 := category_le hdiff
  have hcode := h (category diff) hsize
  refine ⟨word (HTDC (category diff)).2 (HTDC (category diff)).1, ?_, hcode.code⟩
  by_cases h0 : diff = 0
  · subst h0
    have hword : word (category 0) (valueBits 0) = [] := rfl
    rw [hword, List.append_nil]
    exact writeBits_emits hcode.short hcode.lt
  · have heq : writeDC diff HTDC = fun w => writeBits (valueBits diff, category diff)
        (writeBits (HTDC (category diff)) w) := by
      funext w
      rw [writeDC, if_neg h0, calcBits_eq h0]
    rw [heq]
    exact (writeBits_emits hcode.short hcode.lt).comp
      (@writeBits_emits (valueBits diff, category diff) (by
        show category diff ≤ 16
        omega) (valueBits_lt diff))

theorem processDU_code {DC : Int} {tdc tac : Fin 4} (hdc : ∀ size ≤ 11, b.Codes tdc HTDC size)
    (hac : b.CodesACs tac HTAC) (hrange : InRange DU DC) :
    ∃ l, Emits (processDU DU DC HTDC HTAC) l ∧ BlockCode b tdc tac DU DC l := by
  obtain ⟨w, hfirst, hcode⟩ := writeDC_code hdc hrange.first
  have hle := findEnd_le DU 63
  have hzero := findEnd_zero DU 63
  have heob : Extends b tac DU (findEnd DU 63 + 1) 64
      fun w => if findEnd DU 63 ≠ 63 then writeBits (HTAC 0) w else w := by
    by_cases hlast : findEnd DU 63 = 63
    · rw [hlast]
      exact ⟨[], emits_id, fun l' h' => h'⟩
    · simp only [ne_eq, hlast, not_false_eq_true, if_true]
      refine ⟨_, writeBits_emits hac.eob.short hac.eob.lt, fun l' h' => ?_⟩
      cases h' with
      | full =>
        rw [List.append_nil]
        exact .rest (by omega) (fun j hj hlt => hzero j (by omega) (by omega)) hac.eob.code
      | rest hlt => omega
      | zeros hlt => omega
      | value hrun hlt => omega
  have hrest : Extends b tac DU 1 64 fun w => if findEnd DU 63 = 0 then writeBits (HTAC 0) w
      else if findEnd DU 63 ≠ 63 then writeBits (HTAC 0) (writeACs DU HTAC (findEnd DU 63) 63 1 w)
      else writeACs DU HTAC (findEnd DU 63) 63 1 w := by
    by_cases h0 : findEnd DU 63 = 0
    · rw [h0] at heob ⊢
      exact heob
    · simp only [if_neg h0]
      exact (writeACs_extends hac (findEnd_ne h0) hle
        (fun j hj hlt => category_le (hrange.rest j hj hlt)) (Nat.le_refl 1) (by omega)
        (by omega)).comp heob
  obtain ⟨l, hemits, hextends⟩ := hrest
  refine ⟨_, hfirst.comp hemits, w, l, rfl, hcode, ?_⟩
  have hall := hextends [] .full
  rwa [List.append_nil] at hall

/-! ## Reading it back -/

variable {s : Pico} {c : Nat} {DC : Int}

theorem ofInt_difference (x y : Int) :
    BitVec.ofInt 16 (x - y) + BitVec.ofInt 16 y = BitVec.ofInt 16 x := by
  rw [← BitVec.ofInt_add, Int.sub_add_cancel]

/-- The state behind the first coefficient of a block. -/
theorem decodeDC_block (hcode : s.tables.CodeOf (dcTable (s.scan.compDCTab c)) w
      (UInt8.ofNat (category (DU 0 - DC)))) (hsize : category (DU 0 - DC) ≤ 15)
    (hlast : s.lastDC c = BitVec.ofInt 16 DC) :
    Reads (decodeDC c) s (w ++ word (category (DU 0 - DC)) (valueBits (DU 0 - DC))) fun _ s' =>
      s' = { s with
        reader := s'.reader
        lastDC := Function.update s.lastDC c (BitVec.ofInt 16 (DU 0))
        coeffBuf := Function.update s.coeffBuf 0 (BitVec.ofInt 16 (DU 0) * s.quantOf c 0) } := by
  have hreads := decodeDC_reads hsize hcode
  rwa [hlast, ofInt_difference] at hreads

/-- **A block is read back**: each coefficient is what the encoder had, times its entry of the
quantization table. -/
theorem decodeAllCoeffs_reads (hcode : BlockCode s.tables (dcTable (s.scan.compDCTab c))
      (acTable (s.scan.compACTab c)) DU DC l) (hsize : category (DU 0 - DC) ≤ 15)
    (hlast : s.lastDC c = BitVec.ofInt 16 DC) :
    Reads (decodeAllCoeffs c) s l fun _ s' =>
      s' = { s with
        reader := s'.reader
        lastDC := Function.update s.lastDC c (BitVec.ofInt 16 (DU 0))
        coeffBuf := s'.coeffBuf } ∧
      ∀ k < 64, s'.coeffBuf (zag.getD k 0) = BitVec.ofInt 16 (DU k) * s.quantOf c k := by
  obtain ⟨w, l', rfl, hdc, hac⟩ := hcode
  refine (decodeDC_block hdc hsize hlast).bind fun _ s₁ h₁ => ?_
  have htables : s₁.tables = s.tables := by rw [h₁]
  have hscan : s₁.scan = s.scan := by rw [h₁]
  have hquant : s₁.quantOf c = s.quantOf c := by rw [h₁]; rfl
  have hfirst : s₁.coeffBuf 0 = BitVec.ofInt 16 (DU 0) * s.quantOf c 0 := by
    rw [h₁]
    exact Function.update_self 0 (BitVec.ofInt 16 (DU 0) * s.quantOf c 0) s.coeffBuf
  refine Reads.andThen (a := s₁) (u := s₁) rfl rfl ?_
  rw [hscan, hquant]
  refine (decodeACs_reads (s.quantOf c) hac htables (Nat.le_refl 63)).mono fun _ s₂ h₂ => ?_
  obtain ⟨hsame, hcoeffs⟩ := h₂
  refine ⟨?_, fun k hk => ?_⟩
  · rw [SameButBlock, h₁] at hsame
    rw [← hsame]
  · rw [hcoeffs k hk]
    by_cases h1 : 1 ≤ k
    · rw [if_pos h1]
    · obtain rfl : k = 0 := by omega
      rw [if_neg h1]
      exact hfirst

theorem decodeCoeffs_reads (hcode : BlockCode s.tables (dcTable (s.scan.compDCTab c))
      (acTable (s.scan.compACTab c)) DU DC l) (hsize : category (DU 0 - DC) ≤ 15)
    (hlast : s.lastDC c = BitVec.ofInt 16 DC) :
    Reads (decodeCoeffs c) s l fun _ s' =>
      s' = { s with
        reader := s'.reader
        lastDC := Function.update s.lastDC c (BitVec.ofInt 16 (DU 0))
        coeffBuf := Function.update s.coeffBuf 0 (BitVec.ofInt 16 (DU 0) * s.quantOf c 0) } := by
  obtain ⟨w, l', rfl, hdc, hac⟩ := hcode
  refine (decodeDC_block hdc hsize hlast).bind fun _ s₁ h₁ => ?_
  have htables : s₁.tables = s.tables := by rw [h₁]
  have hscan : s₁.scan = s.scan := by rw [h₁]
  refine Reads.andThen (a := s₁) (u := s₁) rfl rfl ?_
  rw [hscan]
  refine (skipACs_reads (htables ▸ hac) (Nat.le_refl 1) (Nat.le_refl 63)).mono fun _ s₂ h₂ => ?_
  rw [SameButReader, h₁] at h₂
  rw [← h₂]
  rfl

end RetroLens.Jpeg
