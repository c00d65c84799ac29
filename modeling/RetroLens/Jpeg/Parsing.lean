import RetroLens.Jpeg.Bytes
import RetroLens.Jpeg.Markers

/-!
# Any bytes at all

Whatever a JPEG holds, `pjpeg_decode_init` comes to an end, and a frame that it
accepts is well formed (`pjpegDecodeInit_started`). It leaves its memory only
for a Huffman table with more short code words than there is room for
(`readHuffTables_overfull`).
-/

namespace RetroLens.Jpeg

open Text Bits CanonicalCode Checked Comps RetroLens.Core

variable {t : Source} {s s' s₀ : Pico} {p n : Nat} {α : Type}

/-! ## Reading -/

@[simp] theorem toByte_zeroExtend (c : UInt8) : toByte (zeroExtend c) = c := by
  apply UInt8.toNat_inj.1
  rw [toByte, UInt8.toNat_ofBitVec, zeroExtend, BitVec.toNat_setWidth, BitVec.toNat_setWidth]
  have hlt := c.toBitVec.isLt
  have hc : c.toBitVec.toNat = c.toNat := rfl
  omega

/-- The state with a reader further on. -/
def Pico.withReader (s : Pico) (r : BitReader) : Pico := { s with reader := r }

theorem read_eight (h : At t s.reader p) :
    ∃ r, At t r (p + 1) ∧ read 8 s = .done (zeroExtend (t.byteAt p)) (s.withReader r) := by
  obtain ⟨hc, hat⟩ := getBits1_byte h
  refine ⟨_, hat, ?_⟩
  rw [read, hc]
  rfl

theorem readByte_at (h : At t s.reader p) :
    ∃ r, At t r (p + 1) ∧ readByte s = .done (t.byteAt p) (s.withReader r) := by
  obtain ⟨r, hat, hread⟩ := read_eight h
  refine ⟨r, hat, ?_⟩
  rw [readByte, bind_done hread, toByte_zeroExtend]
  rfl

theorem read_sixteen (h : At t s.reader p) :
    ∃ r, At t r (p + 2) ∧ read 16 s =
      .done (zeroExtend (t.byteAt p) <<< 8 ||| zeroExtend (t.byteAt (p + 1)))
        (s.withReader r) := by
  obtain ⟨hc, hat⟩ := getBits1_word h
  refine ⟨_, hat, ?_⟩
  rw [read, hc]
  rfl

/-- Two nibbles are a byte. -/
theorem read_nibbles (h : At t s.reader p) (f : BitVec 16 → BitVec 16 → Pj α) :
    ∃ r, At t r (p + 1) ∧ (read 4 >>= fun high => read 4 >>= fun low => f high low) s =
      f (zeroExtend (t.byteAt p >>> 4)) (zeroExtend (t.byteAt p &&& 15)) (s.withReader r) := by
  obtain ⟨hhigh, hlow, hat⟩ := getBits1_nibbles h
  refine ⟨_, hat, ?_⟩
  have hone : read 4 s = .done (zeroExtend (t.byteAt p >>> 4))
      (s.withReader (getBits1 4 s.reader).2) := by
    rw [read, hhigh]
    rfl
  have htwo : read 4 (s.withReader (getBits1 4 s.reader).2) =
      .done (zeroExtend (t.byteAt p &&& 15))
        (s.withReader (getBits1 4 (getBits1 4 s.reader).2).2) := by
    rw [← hlow]
    rfl
  rw [bind_done hone, bind_done htwo]

theorem readBytes_at (h : At t s.reader p) :
    ∃ r, At t r (p + n) ∧ readBytes n s = .done (t.bytesAt p n) (s.withReader r) := by
  induction n generalizing s p with
  | zero => exact ⟨s.reader, h, rfl⟩
  | succ n ih =>
    obtain ⟨r, hat, hread⟩ := readByte_at h
    obtain ⟨r', hat', hrest⟩ := ih (s := s.withReader r) hat
    refine ⟨r', by rwa [Nat.add_right_comm] at hat', ?_⟩
    rw [readBytes, bind_done hread, bind_done hrest]
    rfl

/-! ## What is kept -/

def Pico.TablesSafe (s : Pico) : Prop := ∀ i, (s.tables.huffTab i).Safe (huffValSize i)

/-- The reader is between two bytes, the first `p` taken, and the tables can be decoded with. -/
def Pico.From (t : Source) (p : Nat) (s : Pico) : Prop :=
  (∃ q, p ≤ q ∧ At t s.reader q) ∧ s.TablesSafe

/-- The buffers that the image is decoded into are as they were. -/
structure SameBuf (s s' : Pico) : Prop where
  mcuBuf : s'.mcuBuf = s.mcuBuf
  reduce : s'.reduce = s.reduce

/-- The frame is as it was. -/
structure SameFrame (s s' : Pico) : Prop extends SameBuf s s' where
  frame : s'.frame = s.frame
  layout : s'.layout = s.layout
  remainingX : s'.numMCUSRemainingX = s.numMCUSRemainingX
  remainingY : s'.numMCUSRemainingY = s.numMCUSRemainingY

/-- How many values the table at `p` of a DHT segment has. -/
def Source.valueCount (t : Source) (p : Nat) : Nat :=
  ((t.bytesAt (p + 1) 16).map UInt8.toNat).sum

/-- What `readDHTMarker` lets through, with `left` bytes of the segment left. -/
def Source.TableRead (t : Source) (left p : Nat) : Prop :=
  ¬ (t.byteAt p &&& 0xF > 1 ∨ t.byteAt p &&& 0xF0 > 0x10) ∧
    t.valueCount p ≤ getMaxHuffCodes (tableIndex (t.byteAt p)) ∧ 1 + 16 + t.valueCount p ≤ left

/-- One of at most `n` tables from `p` on has more short code words than there is room for. -/
def Source.OverfullFrom (t : Source) : Nat → Nat → Nat → Prop
  | 0, _, _ => False
  | n + 1, left, p => left ≠ 0 ∧ t.TableRead left p ∧
      (256 < kraft (counts (bitsOf (t.bytesAt (p + 1) 16))) 8 ∨
        t.OverfullFrom n (left - (1 + 16 + t.valueCount p)) (p + (1 + 16 + t.valueCount p)))

/-- The length that a segment has at `p`. -/
def Source.lengthAt (t : Source) (p : Nat) : Nat :=
  (zeroExtend (t.byteAt p) <<< 8 ||| zeroExtend (t.byteAt (p + 1))).toNat

/-- The DHT segment at `p` has an overfull table. -/
def Source.SegmentOverfull (t : Source) (p : Nat) : Prop :=
  2 ≤ t.lengthAt p ∧ t.OverfullFrom (t.lengthAt p - 2) (t.lengthAt p - 2) (p + 2)

/-- The JPEG has a DHT marker with an overfull table. -/
def Overfull (t : Source) : Prop :=
  ∃ p, t.byteAt p = 0xFF ∧ t.byteAt (p + 1) = 0xC4 ∧ t.SegmentOverfull (p + 2)

/-- The one way to stop. -/
def Stops (t : Source) (why : Stop) : Prop := why = .outside ∧ Overfull t

instance : IsPreorder Pico SameBuf where
  refl _ := ⟨rfl, rfl⟩
  trans _ _ _ h h' := ⟨h'.mcuBuf.trans h.mcuBuf, h'.reduce.trans h.reduce⟩

instance : IsPreorder Pico SameFrame where
  refl s := ⟨refl s, rfl, rfl, rfl, rfl⟩
  trans _ _ _ h h' := ⟨IsTrans.trans _ _ _ h.toSameBuf h'.toSameBuf, h'.frame.trans h.frame,
    h'.layout.trans h.layout, h'.remainingX.trans h.remainingX, h'.remainingY.trans h.remainingY⟩

/-- A computation that goes forward, keeps a relation and stops for an overfull table only. -/
abbrev Parses (t : Source) (p : Nat) (R : Pico → Pico → Prop) (m : Pj α) : Prop :=
  Keeps (Pico.From t p) R (fun _ => True) (Stops t) m

variable {R : Pico → Pico → Prop}

theorem readByte_parses : Parses t p SameFrame readByte := by
  rintro s ⟨⟨q, hq, hat⟩, hsafe⟩
  obtain ⟨r, hat', hread⟩ := readByte_at hat
  exact .of_done hread ⟨⟨⟨q + 1, by omega, hat'⟩, hsafe⟩, ⟨rfl, rfl⟩, rfl, rfl, rfl, rfl⟩

theorem read_eight_parses : Parses t p SameFrame (read 8) := by
  rintro s ⟨⟨q, hq, hat⟩, hsafe⟩
  obtain ⟨r, hat', hread⟩ := read_eight hat
  exact .of_done hread ⟨⟨⟨q + 1, by omega, hat'⟩, hsafe⟩, ⟨rfl, rfl⟩, rfl, rfl, rfl, rfl⟩

theorem read_sixteen_parses : Parses t p SameFrame (read 16) := by
  rintro s ⟨⟨q, hq, hat⟩, hsafe⟩
  obtain ⟨r, hat', hread⟩ := read_sixteen hat
  exact .of_done hread ⟨⟨⟨q + 2, by omega, hat'⟩, hsafe⟩, ⟨rfl, rfl⟩, rfl, rfl, rfl, rfl⟩

theorem readBytes_parses (n : Nat) : Parses t p SameFrame (readBytes n) := by
  rintro s ⟨⟨q, hq, hat⟩, hsafe⟩
  obtain ⟨r, hat', hread⟩ := readBytes_at (n := n) hat
  exact .of_done hread ⟨⟨⟨q + n, by omega, hat'⟩, hsafe⟩, ⟨rfl, rfl⟩, rfl, rfl, rfl, rfl⟩

theorem read_nibbles_parses {f : BitVec 16 → BitVec 16 → Pj α} (hR : ∀ s r, R s (s.withReader r))
    [IsPreorder Pico R] (h : ∀ high low, Parses t p R (f high low)) :
    Parses t p R (read 4 >>= fun high => read 4 >>= fun low => f high low) := by
  rintro s ⟨⟨q, hq, hat⟩, hsafe⟩
  obtain ⟨r, hat', hread⟩ := read_nibbles hat f
  have hrest := (h (zeroExtend (t.byteAt q >>> 4)) (zeroExtend (t.byteAt q &&& 15))).since
    (s := s.withReader r) ⟨⟨q + 1, by omega, hat'⟩, hsafe⟩ (hR s r)
  unfold Ensures at hrest ⊢
  rwa [hread]

/-! ## The segments -/

theorem setTables_done (g : Tables → Tables) (s : Pico) :
    setTables g s = .done () (s.withTables (g s.tables)) := rfl

/-- There is room for as many values as are let through. -/
theorem Tables.copy_some (b : Tables) {i : Fin 4} {data : Bytes}
    (h : data.length ≤ huffValSize i) : ∃ vals, (b.huffVal i).copy 0 data = some vals :=
  ⟨_, if_pos (by omega)⟩

theorem storeVals_done {i : Fin 4} {data : Bytes} {vals : Buffer UInt8 (huffValSize i)}
    (h : (s.tables.huffVal i).copy 0 data = some vals) :
    storeVals i data s = .done () (s.withTables
      { s.tables with huffVal := Function.update s.tables.huffVal i vals }) := by
  simp only [storeVals, bind_apply, Comp.get, Outcome.bind, h, Comp.inside]
  rfl

theorem createTable_done {i : Fin 4} {bits : Nat → UInt8} {table : HuffTable}
    (h : huffCreate bits (s.tables.huffVal i) (s.tables.huffTab i) = some table) :
    createTable i bits s = .done () (s.withTables
      { s.tables with huffTab := Function.update s.tables.huffTab i table }) := by
  simp only [createTable, bind_apply, Comp.get, Outcome.bind, h, Comp.inside]
  rfl

theorem createTable_stop {i : Fin 4} {bits : Nat → UInt8}
    (h : huffCreate bits (s.tables.huffVal i) (s.tables.huffTab i) = none) :
    createTable i bits s = .stop .outside := by
  simp only [createTable, bind_apply, Comp.get, Outcome.bind, h, Comp.inside]
  rfl

theorem sum_eq_offset (bits : Bytes) :
    (bits.map UInt8.toNat).sum = offset (counts (bitsOf bits)) bits.length := by
  have main : ∀ l l' : Bytes, l ++ l' = bits →
      (l.map UInt8.toNat).sum = offset (counts (bitsOf bits)) l.length := by
    intro l
    induction l using List.reverseRecOn with
    | nil => exact fun _ _ => rfl
    | append_singleton l c ih =>
      intro l' h
      rw [List.append_assoc] at h
      have hc : counts (bitsOf bits) l.length = c.toNat := by
        rw [counts, bitsOf, ← h]
        simp
      rw [List.map_append, List.sum_append, ih _ h, List.length_append, List.length_singleton,
        offset, hc]
      simp
  exact main bits [] (List.append_nil bits)

theorem huffValSize_max (i : Fin 4) :
    getMaxHuffCodes i ≤ 255 ∧ getMaxHuffCodes i ≤ huffValSize i := by
  unfold getMaxHuffCodes huffValSize
  split <;> decide

theorem counted_of_le {i : Fin 4} {bits : Bytes} (hlength : bits.length = 16)
    (h : (bits.map UInt8.toNat).sum ≤ getMaxHuffCodes i) :
    Counted (bitsOf bits) (huffValSize i) := by
  rw [sum_eq_offset, hlength] at h
  exact ⟨Nat.le_trans h (huffValSize_max i).1, Nat.le_trans h (huffValSize_max i).2⟩

/-- What a table of a DHT segment makes of the tables. -/
def Tables.Entered (old : Tables) (i : Fin 4) (bits data : Bytes) (new : Tables) : Prop :=
  ∃ vals table, (old.huffVal i).copy 0 data = some vals ∧
    huffCreate (bitsOf bits) vals (old.huffTab i) = some table ∧
    new = { old with
      validHuffTables := old.validHuffTables ||| 1 <<< i.val
      huffVal := Function.update old.huffVal i vals
      huffTab := Function.update old.huffTab i table }

theorem Tables.Entered.safe {i : Fin 4} {bits data : Bytes} {b : Tables}
    (h : s.tables.Entered i bits data b) (hcount : Counted (bitsOf bits) (huffValSize i))
    (hs : s.TablesSafe) : (s.withTables b).TablesSafe := by
  obtain ⟨vals, table, -, hcreate, rfl⟩ := h
  intro j
  by_cases hj : j = i
  · subst hj
    simp only [Pico.withTables, Function.update_self]
    exact assigned_safe hcount (huffCreate_created hcount hcreate).assigned
  · simp only [Pico.withTables, Function.update_of_ne hj]
    exact hs j

/-- A table of a DHT segment that is let through is entered, unless it is overfull. -/
theorem readHuffTables_pass {left q : Nat} (hat : At t s.reader q) (hleft : left ≠ 0)
    (hread : t.TableRead left q) (n : Nat) :
    (256 < kraft (counts (bitsOf (t.bytesAt (q + 1) 16))) 8 →
      readHuffTables (n + 1) left s = .stop .outside) ∧
    (kraft (counts (bitsOf (t.bytesAt (q + 1) 16))) 8 ≤ 256 →
      ∃ r b, At t r (q + (1 + 16 + t.valueCount q)) ∧
        s.tables.Entered (tableIndex (t.byteAt q)) (t.bytesAt (q + 1) 16)
          (t.bytesAt (q + 1 + 16) (t.valueCount q)) b ∧
        readHuffTables (n + 1) left s =
          readHuffTables n (left - (1 + 16 + t.valueCount q)) ((s.withReader r).withTables b)) := by
  obtain ⟨hindex, hcount, hroom⟩ := hread
  generalize hi : tableIndex (t.byteAt q) = i at hcount ⊢
  have hcounted : Counted (bitsOf (t.bytesAt (q + 1) 16)) (huffValSize i) :=
    counted_of_le (Source.bytesAt_length ..) hcount
  obtain ⟨r₁, hat₁, hread₁⟩ := readByte_at hat
  obtain ⟨b₁, hb₁⟩ : ∃ b : Tables, { s.tables with
    validHuffTables := s.tables.validHuffTables ||| 1 <<< i.val } = b := ⟨_, rfl⟩
  obtain ⟨r₂, hat₂, hread₂⟩ := readBytes_at (n := 16) (s := (s.withReader r₁).withTables b₁) hat₁
  obtain ⟨r₃, hat₃, hread₃⟩ := readBytes_at (n := t.valueCount q)
    (s := ((s.withReader r₁).withTables b₁).withReader r₂) hat₂
  obtain ⟨vals, hcopy⟩ := b₁.copy_some (Nat.le_trans (Nat.le_of_eq
    (Source.bytesAt_length t (q + 1 + 16) (t.valueCount q)))
    (Nat.le_trans hcount (huffValSize_max i).2))
  have hstore := storeVals_done
    (s := (((s.withReader r₁).withTables b₁).withReader r₂).withReader r₃) hcopy
  have hpass : readHuffTables (n + 1) left s = (createTable i (bitsOf (t.bytesAt (q + 1) 16)) >>=
      fun _ => readHuffTables n (left - (1 + 16 + t.valueCount q)))
        ((s.withReader r₃).withTables
          { b₁ with huffVal := Function.update b₁.huffVal i vals }) := by
    rw [readHuffTables, if_neg hleft, bind_done hread₁, bind_done (check_pass hindex)]
    dsimp only
    rw [hi, bind_done (setTables_done _ _)]
    subst hb₁
    refine (bind_done hread₂).trans ?_
    have hsum : ((t.bytesAt (q + 1) 16).map UInt8.toNat).sum = t.valueCount q := rfl
    rw [hsum, bind_done (check_pass (Nat.not_lt.2 hcount))]
    refine (bind_done hread₃).trans ((bind_done hstore).trans ?_)
    rw [bind_done (check_pass (Nat.not_lt.2 hroom))]
    rfl
  have hsome := huffCreate_isSome hcounted vals (s.tables.huffTab i)
  have hvals : Function.update b₁.huffVal i vals i = vals := Function.update_self ..
  have htab : b₁.huffTab i = s.tables.huffTab i := by rw [← hb₁]
  refine ⟨fun hover => ?_, fun hfits => ?_⟩
  · have hnone : huffCreate (bitsOf (t.bytesAt (q + 1) 16)) vals (s.tables.huffTab i) = none := by
      rw [← Option.not_isSome_iff_eq_none, hsome]
      omega
    rw [hpass]
    refine bind_stop (createTable_stop ?_)
    show huffCreate _ (Function.update b₁.huffVal i vals i) (b₁.huffTab i) = none
    rw [hvals, htab, hnone]
  · obtain ⟨table, hcreate⟩ := Option.isSome_iff_exists.1 (hsome.2 hfits)
    refine ⟨r₃, { b₁ with
        huffVal := Function.update b₁.huffVal i vals
        huffTab := Function.update b₁.huffTab i table }, ?_, ⟨vals, table, ?_, hcreate, ?_⟩, ?_⟩
    · rw [Nat.add_assoc, Nat.add_assoc] at hat₃
      rwa [Nat.add_assoc 1]
    · rw [← hcopy, ← hb₁]
    · rw [← hb₁]
    · rw [hpass]
      have hcreate' : huffCreate (bitsOf (t.bytesAt (q + 1) 16))
          (Function.update b₁.huffVal i vals i) (b₁.huffTab i) = some table := by
        rw [hvals, htab, hcreate]
      exact bind_done (createTable_done (s := (s.withReader r₃).withTables
        { b₁ with huffVal := Function.update b₁.huffVal i vals }) hcreate')

/-- A table that is not let through ends the segment. -/
theorem readHuffTables_fails {left q : Nat} (hat : At t s.reader q) (hsafe : s.TablesSafe)
    (hleft : left ≠ 0) (hread : ¬ t.TableRead left q) (n : Nat) :
    ∃ e s', readHuffTables (n + 1) left s = .fail e s' ∧ s'.From t q ∧ SameFrame s s' := by
  obtain ⟨r₁, hat₁, hread₁⟩ := readByte_at hat
  rw [readHuffTables, if_neg hleft, bind_done hread₁]
  by_cases hindex : t.byteAt q &&& 0xF > 1 ∨ t.byteAt q &&& 0xF0 > 0x10
  · exact ⟨_, _, bind_fail (check_fail hindex), ⟨⟨q + 1, by omega, hat₁⟩, hsafe⟩, ⟨rfl, rfl⟩, rfl,
      rfl, rfl, rfl⟩
  rw [bind_done (check_pass hindex)]
  dsimp only
  generalize hi : tableIndex (t.byteAt q) = i
  rw [bind_done (setTables_done _ _)]
  obtain ⟨r₂, hat₂, hread₂⟩ := readBytes_at (n := 16) (s := (s.withReader r₁).withTables
    { s.tables with validHuffTables := s.tables.validHuffTables ||| 1 <<< i.val }) hat₁
  have hpass := bind_done (f := fun bits => Comp.check ((bits.map UInt8.toNat).sum >
      getMaxHuffCodes i) Status.badDhtCounts >>= fun _ =>
    readBytes (bits.map UInt8.toNat).sum >>= fun data => storeVals i data >>= fun _ =>
    Comp.check (left < 1 + 16 + (bits.map UInt8.toNat).sum) Status.badDhtMarker >>= fun _ =>
    createTable i (bitsOf bits) >>= fun _ =>
    readHuffTables n (left - (1 + 16 + (bits.map UInt8.toNat).sum))) hread₂
  have hsum : ((t.bytesAt (q + 1) 16).map UInt8.toNat).sum = t.valueCount q := rfl
  rw [hsum] at hpass
  by_cases hcount : t.valueCount q > getMaxHuffCodes i
  · exact ⟨_, _, hpass.trans (bind_fail (check_fail hcount)), ⟨⟨q + 1 + 16, by omega, hat₂⟩, hsafe⟩,
      ⟨rfl, rfl⟩, rfl, rfl, rfl, rfl⟩
  have hroom : left < 1 + 16 + t.valueCount q := by
    by_contra hle
    exact hread ⟨hindex, by rw [hi]; omega, by omega⟩
  obtain ⟨r₃, hat₃, hread₃⟩ := readBytes_at (n := t.valueCount q)
    (s := ((s.withReader r₁).withTables { s.tables with
      validHuffTables := s.tables.validHuffTables ||| 1 <<< i.val }).withReader r₂) hat₂
  obtain ⟨vals, hcopy⟩ := s.tables.copy_some (Nat.le_trans (Nat.le_of_eq
    (Source.bytesAt_length t (q + 1 + 16) (t.valueCount q)))
    (Nat.le_trans (Nat.le_of_not_lt hcount) (huffValSize_max i).2))
  have hstore := storeVals_done (s := ((s.withReader r₁).withTables { s.tables with
      validHuffTables := s.tables.validHuffTables ||| 1 <<< i.val }).withReader r₂ |>.withReader r₃)
    hcopy
  rw [bind_done (check_pass hcount), bind_done hread₃, bind_done hstore,
    bind_fail (check_fail hroom)] at hpass
  exact ⟨_, _, hpass, ⟨⟨q + 1 + 16 + t.valueCount q, by omega, hat₃⟩, hsafe⟩, ⟨rfl, rfl⟩, rfl, rfl,
    rfl, rfl⟩

/-- An overfull table takes the decoder out of its memory. -/
theorem readHuffTables_overfull {left q : Nat} (hat : At t s.reader q)
    (h : t.OverfullFrom n left q) : readHuffTables n left s = .stop .outside := by
  induction n generalizing left q s with
  | zero => exact h.elim
  | succ n ih =>
    obtain ⟨hleft, hread, hover⟩ := h
    obtain ⟨hstop, hgo⟩ := readHuffTables_pass hat hleft hread n
    by_cases hkraft : 256 < kraft (counts (bitsOf (t.bytesAt (q + 1) 16))) 8
    · exact hstop hkraft
    · obtain ⟨r, b, hat', -, hrest⟩ := hgo (Nat.le_of_not_lt hkraft)
      rw [hrest]
      exact ih hat' (hover.resolve_left hkraft)

/-- Nothing else does. -/
theorem readHuffTables_from {left q : Nat} (hat : At t s.reader q) (hsafe : s.TablesSafe) :
    Ensures (readHuffTables n left) s (fun _ s' => s'.From t q ∧ SameFrame s s')
      (fun _ s' => s'.From t q ∧ SameFrame s s')
      fun why => why = .outside ∧ t.OverfullFrom n left q := by
  induction n generalizing left q s with
  | zero => exact .pure ⟨⟨⟨q, Nat.le_refl q, hat⟩, hsafe⟩, refl s⟩
  | succ n ih =>
    by_cases hleft : left = 0
    · rw [readHuffTables, if_pos hleft]
      exact .pure ⟨⟨⟨q, Nat.le_refl q, hat⟩, hsafe⟩, refl s⟩
    by_cases hread : t.TableRead left q
    swap
    · obtain ⟨e, s', hfail, hfrom, hsame⟩ := readHuffTables_fails hat hsafe hleft hread n
      unfold Ensures
      rw [hfail]
      exact ⟨hfrom, hsame⟩
    obtain ⟨hstop, hgo⟩ := readHuffTables_pass hat hleft hread n
    by_cases hkraft : 256 < kraft (counts (bitsOf (t.bytesAt (q + 1) 16))) 8
    · unfold Ensures
      rw [hstop hkraft]
      exact ⟨rfl, hleft, hread, .inl hkraft⟩
    obtain ⟨r, b, hat', hentered, hrest⟩ := hgo (Nat.le_of_not_lt hkraft)
    have hsafe' : ((s.withReader r).withTables b).TablesSafe :=
      hentered.safe (s := s) (counted_of_le (Source.bytesAt_length ..) hread.2.1) hsafe
    have hsame : SameFrame s ((s.withReader r).withTables b) := ⟨⟨rfl, rfl⟩, rfl, rfl, rfl, rfl⟩
    have hback : ∀ s' : Pico, s'.From t (q + (1 + 16 + t.valueCount q)) → s'.From t q :=
      fun s' h => ⟨⟨h.1.choose, Nat.le_trans (by omega) h.1.choose_spec.1, h.1.choose_spec.2⟩, h.2⟩
    generalize hmore : left - (1 + 16 + t.valueCount q) = more at hrest
    have hih : Ensures (readHuffTables n more) _ _ _ _ := ih hat' hsafe'
    unfold Ensures at hih ⊢
    rw [hrest]
    cases hout : readHuffTables n more ((s.withReader r).withTables b) with
    | done value s' =>
      rw [hout] at hih
      exact ⟨hback s' hih.1, IsTrans.trans _ _ _ hsame hih.2⟩
    | fail e s' =>
      rw [hout] at hih
      exact ⟨hback s' hih.1, IsTrans.trans _ _ _ hsame hih.2⟩
    | stop why =>
      rw [hout] at hih
      exact ⟨hih.1, hleft, hread, .inr (hmore ▸ hih.2)⟩

theorem readDHTMarker_from {q : Nat} (hat : At t s.reader q) (hsafe : s.TablesSafe) :
    Ensures readDHTMarker s (fun _ s' => s'.From t q ∧ SameFrame s s')
      (fun _ s' => s'.From t q ∧ SameFrame s s')
      fun why => why = .outside ∧ t.SegmentOverfull q := by
  obtain ⟨r, hat', hread⟩ := read_sixteen hat
  refine .bind (.of_done hread (.bind (.check (fun _ => ?_) fun hlength => ?_)))
  · exact ⟨⟨⟨q + 2, by omega, hat'⟩, hsafe⟩, ⟨rfl, rfl⟩, rfl, rfl, rfl, rfl⟩
  have hback : ∀ s' : Pico, s'.From t (q + 2) → s'.From t q :=
    fun s' h => ⟨⟨h.1.choose, Nat.le_trans (by omega) h.1.choose_spec.1, h.1.choose_spec.2⟩, h.2⟩
  have hsame : SameFrame s (s.withReader r) := ⟨⟨rfl, rfl⟩, rfl, rfl, rfl, rfl⟩
  exact (readHuffTables_from (s := s.withReader r) hat' hsafe).mono
    (fun _ s' h => ⟨hback s' h.1, IsTrans.trans _ _ _ hsame h.2⟩)
    (fun _ s' h => ⟨hback s' h.1, IsTrans.trans _ _ _ hsame h.2⟩)
    fun why h => ⟨h.1, Nat.le_of_not_lt hlength, h.2⟩

theorem readQuant_parses (prec : UInt8) : Parses t p SameFrame (readQuant prec) :=
  read_eight_parses.bind fun _ =>
    Keeps.ite (fun _ => read_eight_parses.bind fun _ => Keeps.pure _) fun _ => Keeps.pure _

/-- Quantization tables are neither of the frame nor decoded with by the Huffman decoder. -/
theorem setTables_parses {g : Tables → Tables} (h : ∀ b, (g b).huffTab = b.huffTab) :
    Parses t p SameFrame (setTables g) :=
  Keeps.modify fun s hs => ⟨⟨hs.1, fun i => by
    have hi := hs.2 i
    rwa [← h s.tables] at hi⟩, ⟨rfl, rfl⟩, rfl, rfl, rfl, rfl⟩

theorem readQuants_parses (k : Fin 2) (prec : UInt8) (m i : Nat) :
    Parses t p SameFrame (readQuants k prec m i) := by
  induction m generalizing i with
  | zero => exact Keeps.pure ()
  | succ m ih =>
    exact (readQuant_parses prec).bind fun _ =>
      (setTables_parses (by intro b; rfl)).bind fun _ => ih (i + 1)

theorem readQuantTables_parses (m left : Nat) :
    Parses t p SameFrame (readQuantTables m left) := by
  induction m generalizing left with
  | zero => exact Keeps.pure ()
  | succ m ih =>
    refine Keeps.ite (fun _ => Keeps.pure ()) fun _ => ?_
    exact readByte_parses.bind fun _ => (Keeps.check trivial).bind fun _ =>
      (setTables_parses (by intro b; rfl)).bind fun _ => (readQuants_parses _ _ _ _).bind fun _ =>
      (setTables_parses (by intro b; rfl)).bind fun _ => (Keeps.check trivial).bind fun _ => ih _

theorem readDQTMarker_parses : Parses t p SameFrame readDQTMarker :=
  read_sixteen_parses.bind fun _ => (Keeps.check trivial).bind fun _ => readQuantTables_parses _ _

theorem skipVariableMarker_parses : Parses t p SameFrame skipVariableMarker :=
  read_sixteen_parses.bind fun _ => (Keeps.check trivial).bind fun _ =>
    (readBytes_parses _).bind fun _ => Keeps.pure ()

theorem readDRIMarker_parses : Parses t p SameFrame readDRIMarker :=
  read_sixteen_parses.bind fun _ => (Keeps.check trivial).bind fun _ =>
    read_sixteen_parses.bind fun _ => Keeps.modify fun _ hs => ⟨hs, ⟨rfl, rfl⟩, rfl, rfl, rfl, rfl⟩

theorem setScan_parses (g : ScanHeader → ScanHeader) : Parses t p SameFrame (setScan g) :=
  Keeps.modify fun _ hs => ⟨hs, ⟨rfl, rfl⟩, rfl, rfl, rfl, rfl⟩

theorem readScanComps_parses (n i : Nat) : Parses t p SameFrame (readScanComps n i) := by
  induction n generalizing i with
  | zero => exact Keeps.pure ()
  | succ n ih =>
    exact readByte_parses.bind fun _ => readByte_parses.bind fun _ => Keeps.get.bind fun _ =>
      (Keeps.check trivial).bind fun _ =>
      (setScan_parses _).bind fun _ => ih _

theorem readSOSMarker_parses : Parses t p SameFrame readSOSMarker :=
  read_sixteen_parses.bind fun _ => readByte_parses.bind fun _ =>
    (setScan_parses _).bind fun _ => (Keeps.check trivial).bind fun _ =>
    (readScanComps_parses _ _).bind fun _ =>
    readByte_parses.bind fun _ => readByte_parses.bind fun _ =>
    read_nibbles_parses (fun _ _ => ⟨⟨rfl, rfl⟩, rfl, rfl, rfl, rfl⟩) fun _ _ =>
      (readBytes_parses _).bind fun _ => Keeps.pure ()

/-- The segment behind the marker at `q`. -/
theorem processSegment_from {q : Nat} (hat : At t s.reader (q + 2)) (hsafe : s.TablesSafe)
    (hff : t.byteAt q = 0xFF) :
    Ensures (processSegment (t.byteAt (q + 1))) s
      (fun _ s' => s'.From t (q + 2) ∧ SameFrame s s')
      (fun _ s' => s'.From t (q + 2) ∧ SameFrame s s') (Stops t) := by
  have hs : s.From t (q + 2) := ⟨⟨q + 2, Nat.le_refl _, hat⟩, hsafe⟩
  have hother (m : Pj Unit) (hm : Parses t (q + 2) SameFrame m) :
      Ensures m s (fun _ s' => s'.From t (q + 2) ∧ SameFrame s s')
        (fun _ s' => s'.From t (q + 2) ∧ SameFrame s s') (Stops t) :=
    (hm s hs).mono (fun _ _ h => h) (fun _ _ h => h.2) fun _ h => h
  unfold processSegment
  split
  · rename_i hc
    exact ((readDHTMarker_from hat hsafe).mono (fun _ _ h => h) (fun _ _ h => h)
      fun _ h => ⟨h.1, q, hff, hc, h.2⟩).ignore
  refine hother _ (Keeps.ite (fun _ => Keeps.fail trivial) fun _ => ?_)
  refine Keeps.ite (fun _ => readDQTMarker_parses.ignore) fun _ => ?_
  refine Keeps.ite (fun _ => readDRIMarker_parses.ignore) fun _ => ?_
  exact Keeps.ite (fun _ => Keeps.fail trivial) fun _ => skipVariableMarker_parses.ignore

/-! ## Looking for markers -/

theorem seekFF_at (h : At t s.reader p) (hn : t.rest.length - p + 2 ≤ n) :
    ∃ r q, p ≤ q ∧ At t r (q + 1) ∧ t.byteAt q = 0xFF ∧
      seekFF n s = .done () (s.withReader r) := by
  induction n generalizing s p with
  | zero => omega
  | succ n ih =>
    obtain ⟨r, hat, hread⟩ := readByte_at h
    rw [seekFF, bind_done hread]
    by_cases hff : t.byteAt p = 0xFF
    · rw [if_pos hff]
      exact ⟨r, p, Nat.le_refl p, hat, hff, rfl⟩
    rw [if_neg hff]
    by_cases hp : p < t.rest.length
    · obtain ⟨r', q, hq, hat', hff', hseek⟩ := ih (s := s.withReader r) hat (by omega)
      exact ⟨r', q, by omega, hat', hff', hseek⟩
    -- Behind the JPEG the next byte is the one looked for.
    · obtain ⟨hff', -⟩ | ⟨-, hff'⟩ := t.byteAt_end (Nat.le_of_not_lt hp)
      · exact absurd hff' hff
      obtain ⟨m, rfl⟩ : ∃ m, n = m + 1 := ⟨n - 1, by omega⟩
      obtain ⟨r', hat', hread'⟩ := readByte_at (s := s.withReader r) hat
      refine ⟨r', p + 1, by omega, hat', hff', ?_⟩
      rw [seekFF, bind_done hread', if_pos hff']
      rfl

theorem skipFF_at (h : At t s.reader (p + 1)) (hff : t.byteAt p = 0xFF)
    (hn : t.rest.length - (p + 1) + 2 ≤ n) :
    ∃ r q, p ≤ q ∧ At t r (q + 2) ∧ t.byteAt q = 0xFF ∧
      skipFF n s = .done (t.byteAt (q + 1)) (s.withReader r) ∧
      (t.rest.length ≤ p + 1 → t.byteAt (q + 1) = 0xD9) := by
  induction n generalizing s p with
  | zero => omega
  | succ n ih =>
    obtain ⟨r, hat, hread⟩ := readByte_at h
    rw [skipFF, bind_done hread]
    by_cases hmore : t.byteAt (p + 1) = 0xFF
    · rw [if_pos hmore]
      by_cases hp : p + 1 < t.rest.length
      · obtain ⟨r', q, hq, hat', hff', hskip, -⟩ := ih (s := s.withReader r) hat hmore (by omega)
        exact ⟨r', q, by omega, hat', hff', hskip, fun hle => by omega⟩
      · obtain ⟨-, heoi⟩ | ⟨heoi, -⟩ := t.byteAt_end (Nat.le_of_not_lt hp)
        · obtain ⟨m, rfl⟩ : ∃ m, n = m + 1 := ⟨n - 1, by omega⟩
          obtain ⟨r', hat', hread'⟩ := readByte_at (s := s.withReader r) hat
          refine ⟨r', p + 1, by omega, hat', hmore, ?_, fun _ => heoi⟩
          rw [skipFF, bind_done hread', if_neg (by rw [heoi]; decide)]
          rfl
        · rw [heoi] at hmore
          exact absurd hmore (by decide)
    · rw [if_neg hmore]
      refine ⟨r, p, Nat.le_refl p, hat, hff, rfl, fun hle => ?_⟩
      obtain ⟨hff', -⟩ | ⟨heoi, -⟩ := t.byteAt_end hle
      · exact absurd hff' hmore
      · exact heoi

/-- **The next marker is found**: behind the JPEG it is the end of the image. -/
theorem nextMarker_at {fuel : Nat} (hfuel : t.rest.length + 2 ≤ fuel) (h : At t s.reader p)
    (hn : t.rest.length - p + 1 ≤ n) :
    ∃ r q, p ≤ q ∧ At t r (q + 2) ∧ t.byteAt q = 0xFF ∧
      nextMarker fuel n s = .done (t.byteAt (q + 1)) (s.withReader r) ∧
      (t.rest.length ≤ p → t.byteAt (q + 1) = 0xD9) := by
  induction n generalizing s p with
  | zero => omega
  | succ n ih =>
    obtain ⟨r, q, hq, hat, hff, hseek⟩ := seekFF_at h (show t.rest.length - p + 2 ≤ fuel by omega)
    obtain ⟨r', q', hq', hat', hff', hskip, hend⟩ := skipFF_at (s := s.withReader r) hat hff
      (show t.rest.length - (q + 1) + 2 ≤ fuel by omega)
    rw [nextMarker, bind_done hseek, bind_done hskip]
    by_cases hc : t.byteAt (q' + 1) = 0
    · rw [if_pos hc]
      have hlt : q + 1 < t.rest.length := by
        by_contra hle
        rw [hend (by omega)] at hc
        exact absurd hc (by decide)
      obtain ⟨r'', q'', hq'', hat'', hff'', hnext, -⟩ :=
        ih (s := (s.withReader r).withReader r') hat' (by omega)
      exact ⟨r'', q'', by omega, hat'', hff'', hnext, fun hle => by omega⟩
    · rw [if_neg hc]
      exact ⟨r', q', by omega, hat', hff', rfl, fun hle => hend (by omega)⟩

/-- **The search for a marker that matters ends.** -/
theorem processMarkers_from {fuel : Nat} (hfuel : t.rest.length + 2 ≤ fuel)
    (hn : t.rest.length - p + 1 ≤ n) (hs : s.From t p) :
    Ensures (processMarkers fuel n) s
      (fun c s' => (s'.From t p ∧ SameFrame s s') ∧ isReturned c = true)
      (fun _ s' => s'.From t p ∧ SameFrame s s') (Stops t) := by
  induction n generalizing s p with
  | zero => omega
  | succ n ih =>
    obtain ⟨⟨q, hq, hat⟩, hsafe⟩ := hs
    obtain ⟨r, q', hq', hat', hff, hnext, hend⟩ := nextMarker_at hfuel hat (show
      t.rest.length - q + 1 ≤ fuel by omega)
    refine Ensures.bind (.of_done hnext ?_)
    have hsame : SameFrame s (s.withReader r) := ⟨⟨rfl, rfl⟩, rfl, rfl, rfl, rfl⟩
    by_cases hc : isReturned (t.byteAt (q' + 1)) = true
    · rw [if_pos hc]
      exact .pure ⟨⟨⟨⟨q' + 2, by omega, hat'⟩, hsafe⟩, hsame⟩, hc⟩
    rw [if_neg hc]
    have hlt : q < t.rest.length := by
      by_contra hle
      rw [hend (by omega)] at hc
      exact hc rfl
    have hback : ∀ s' : Pico, s'.From t (q' + 2) → s'.From t p := fun s' h =>
      ⟨⟨h.1.choose, Nat.le_trans (by omega) h.1.choose_spec.1, h.1.choose_spec.2⟩, h.2⟩
    refine Ensures.bind ((processSegment_from (s := s.withReader r) hat' hsafe hff).mono ?_ ?_
      fun _ h => h)
    · rintro _ s' ⟨hfrom, hsame'⟩
      refine (ih (p := q' + 2) (by omega) hfrom).mono ?_ ?_ fun _ h => h
      · exact fun c' s'' h => ⟨⟨hback _ h.1.1, IsTrans.trans _ _ _ hsame
          (IsTrans.trans _ _ _ hsame' h.1.2)⟩, h.2⟩
      · exact fun c' s'' h => ⟨hback _ h.1, IsTrans.trans _ _ _ hsame
          (IsTrans.trans _ _ _ hsame' h.2)⟩
    · exact fun _ s' h => ⟨hback _ h.1, IsTrans.trans _ _ _ hsame h.2⟩

/-! ## What is accepted -/

/-- What `readSOFMarker` lets through. -/
structure FrameHeader.Valid (f : FrameHeader) : Prop where
  width : 1 ≤ f.imageXSize ∧ f.imageXSize ≤ maxSize
  height : 1 ≤ f.imageYSize ∧ f.imageYSize ≤ maxSize
  quant : ∀ i < f.compsInFrame, f.compQuant i ≤ 1

theorem setFrame_parses {g : FrameHeader → FrameHeader} :
    Parses t p SameBuf (setFrame g) :=
  Keeps.modify fun _ hs => ⟨hs, rfl, rfl⟩

theorem readComps_parses (n i : Nat) : Parses t p SameBuf (readComps n i) := by
  induction n generalizing i with
  | zero => exact Keeps.pure ()
  | succ n ih =>
    have hbyte : Parses t p SameBuf readByte := readByte_parses.mono fun _ _ h => h.toSameBuf
    exact hbyte.bind fun _ => read_nibbles_parses (fun _ _ => ⟨rfl, rfl⟩) fun _ _ =>
      hbyte.bind fun _ => setFrame_parses.bind fun _ => (Keeps.check trivial).bind fun _ => ih _

theorem readSOFMarker_parses : Parses t p SameBuf readSOFMarker := by
  have hword : Parses t p SameBuf (read 16) :=
    read_sixteen_parses.mono fun _ _ h => h.toSameBuf
  have hbyte : Parses t p SameBuf readByte := readByte_parses.mono fun _ _ h => h.toSameBuf
  exact hword.bind fun _ => (read_eight_parses.mono fun _ _ h => h.toSameBuf).bind fun _ =>
    (Keeps.check trivial).bind fun _ => hword.bind fun _ => setFrame_parses.bind fun _ =>
    (Keeps.check trivial).bind fun _ => hword.bind fun _ => setFrame_parses.bind fun _ =>
    (Keeps.check trivial).bind fun _ => hbyte.bind fun _ => setFrame_parses.bind fun _ =>
    (Keeps.check trivial).bind fun _ => (Keeps.check trivial).bind fun _ => readComps_parses _ _

theorem read_done (numBits : Nat) (s : Pico) :
    ∃ x r, read numBits s = .done x (s.withReader r) := ⟨_, _, rfl⟩

theorem readByte_done (s : Pico) : ∃ c r, readByte s = .done c (s.withReader r) := ⟨_, _, rfl⟩

theorem readBytes_done (n : Nat) (s : Pico) :
    ∃ l r, readBytes n s = .done l (s.withReader r) := by
  induction n generalizing s with
  | zero => exact ⟨[], s.reader, rfl⟩
  | succ n ih =>
    obtain ⟨c, r, hread⟩ := readByte_done s
    obtain ⟨l, r', hrest⟩ := ih (s.withReader r)
    refine ⟨c :: l, r', ?_⟩
    rw [readBytes, bind_done hread, bind_done hrest]
    rfl

/-- The components of a frame: none of them names a third quantization table. -/
theorem readComps_valid (n i : Nat) (hn : i + n = s.frame.compsInFrame)
    (hwidth : 1 ≤ s.frame.imageXSize ∧ s.frame.imageXSize ≤ maxSize)
    (hheight : 1 ≤ s.frame.imageYSize ∧ s.frame.imageYSize ≤ maxSize)
    (hquant : ∀ j < i, s.frame.compQuant j ≤ 1) :
    Ensures (readComps n i) s (fun _ s' => s'.frame.Valid) (fun _ _ => True) fun _ => True := by
  induction n generalizing s i with
  | zero => exact .pure ⟨hwidth, hheight, by rwa [← hn]⟩
  | succ n ih =>
    obtain ⟨ident, r₁, hread₁⟩ := readByte_done s
    obtain ⟨h, r₂, hread₂⟩ := read_done 4 (s.withReader r₁)
    obtain ⟨v, r₃, hread₃⟩ := read_done 4 ((s.withReader r₁).withReader r₂)
    obtain ⟨quant, r₄, hread₄⟩ := readByte_done (((s.withReader r₁).withReader r₂).withReader r₃)
    refine .bind (.of_done hread₁ (.bind (.of_done hread₂ (.bind (.of_done hread₃
      (.bind (.of_done hread₄ (.bind (.modify (.bind (.check (fun _ => trivial)
        fun hle => ?_)))))))))))
    refine ih (i + 1) (by rw [Nat.add_right_comm, Nat.add_assoc]; exact hn) hwidth hheight ?_
    intro j hj
    by_cases hji : j = i
    · subst hji
      show Function.update s.frame.compQuant j quant j ≤ 1
      rw [Function.update_self]
      exact UInt8.not_lt.1 hle
    · show Function.update s.frame.compQuant i quant j ≤ 1
      rw [Function.update_of_ne hji]
      exact hquant j (by omega)

theorem readSOFMarker_valid (s : Pico) :
    Ensures readSOFMarker s (fun _ s' => s'.frame.Valid) (fun _ _ => True) fun _ => True := by
  obtain ⟨left, r₁, hread₁⟩ := read_done 16 s
  obtain ⟨precision, r₂, hread₂⟩ := read_done 8 (s.withReader r₁)
  refine .bind (.of_done hread₁ (.bind (.of_done hread₂ (.bind (.check (fun _ => trivial)
    fun _ => ?_)))))
  obtain ⟨height, r₃, hread₃⟩ := read_done 16 ((s.withReader r₁).withReader r₂)
  refine .bind (.of_done hread₃ (.bind (.modify (.bind (.check (fun _ => trivial)
    fun hheight => ?_)))))
  obtain ⟨width, r₄, hread₄⟩ := read_done 16
    { (((s.withReader r₁).withReader r₂).withReader r₃) with frame :=
      { s.frame with imageYSize := height.toNat } }
  refine .bind (.of_done hread₄ (.bind (.modify (.bind (.check (fun _ => trivial)
    fun hwidth => ?_)))))
  refine .bind (.of_done rfl (.bind (.modify (.bind (.check (fun _ => trivial) fun _ =>
    .bind (.check (fun _ => trivial) fun _ => ?_))))))
  have hsize : ∀ x : BitVec 16, ¬ (x = 0 ∨ x.toNat > maxSize) →
      1 ≤ x.toNat ∧ x.toNat ≤ maxSize := by
    intro x hx
    rw [not_or, Nat.not_lt] at hx
    refine ⟨Nat.one_le_iff_ne_zero.2 fun h0 => hx.1 (BitVec.eq_of_toNat_eq h0), hx.2⟩
  exact readComps_valid _ 0 (Nat.zero_add _) (hsize width hwidth) (hsize height hheight)
    fun j hj => absurd hj (Nat.not_lt_zero j)

theorem scanSOI_parses (n : Nat) (c : UInt8) : Parses t p SameFrame (scanSOI n c) := by
  induction n generalizing c with
  | zero => exact Keeps.fail trivial
  | succ n ih =>
    exact readByte_parses.bind fun _ => Keeps.ite (fun _ => Keeps.pure ()) fun _ =>
      Keeps.ite (fun _ => Keeps.fail trivial) fun _ => ih _

theorem locateSOIMarker_parses : Parses t p SameFrame locateSOIMarker :=
  readByte_parses.bind fun _ => readByte_parses.bind fun _ =>
    Keeps.ite (fun _ => Keeps.pure ()) fun _ => (scanSOI_parses _ _).bind fun _ =>
    Keeps.get.bind fun _ => Keeps.check trivial

theorem locateSOFMarker_valid {fuel : Nat} (hfuel : t.rest.length + 2 ≤ fuel) (hs : s.From t p) :
    Ensures (locateSOFMarker fuel) s (fun _ s' => (s'.From t p ∧ s'.frame.Valid) ∧ SameBuf s s')
      (fun _ s' => s'.From t p ∧ SameBuf s s') (Stops t) := by
  refine .bind ((locateSOIMarker_parses s hs).mono (fun _ s₁ h₁ => ?_)
    (fun _ _ h => ⟨h.2.1, h.2.2.toSameBuf⟩) fun _ h => h)
  have hback {s' : Pico} (h : SameFrame s₁ s') : SameBuf s s' :=
    IsTrans.trans _ _ _ h₁.2.toSameBuf h.toSameBuf
  refine .bind ((processMarkers_from hfuel (by omega) h₁.1).mono (fun c s₂ h₂ => ?_)
    (fun _ _ h => ⟨h.1, hback h.2⟩) fun _ h => h)
  obtain ⟨⟨hfrom, hsame⟩, -⟩ := h₂
  split
  · exact .fail ⟨hfrom, hback hsame⟩
  split
  · exact ((readSOFMarker_parses s₂ hfrom).and (readSOFMarker_valid s₂)).mono
      (fun _ _ h => ⟨⟨h.1.1, h.2⟩, IsTrans.trans _ _ _ (hback hsame) h.1.2⟩)
      (fun _ _ h => ⟨h.1.2.1, IsTrans.trans _ _ _ (hback hsame) h.1.2.2⟩) fun _ h => h.1
  split
  · exact .fail ⟨hfrom, hback hsame⟩
  · exact .fail ⟨hfrom, hback hsame⟩

/-! ## The MCUs -/

/-- The component of each block of an MCU. -/
def blockComps : ScanType → List Nat
  | .grayscale => [0]
  | .yh1v1 => [0, 1, 2]
  | .yh1v2 | .yh2v1 => [0, 0, 1, 2]
  | .yh2v2 => [0, 0, 0, 0, 1, 2]

def Pico.info (s : Pico) : ImageInfo :=
  ⟨s.frame.imageXSize, s.frame.imageYSize, s.layout.scanType⟩

/-- What `initFrame` sets up. -/
structure Pico.LaidOut (s : Pico) : Prop where
  comps : s.frame.compsInFrame = if s.layout.scanType = .grayscale then 1 else 3
  org : s.layout.mcuOrg = blockComps s.layout.scanType
  perRow : s.layout.maxMCUSPerRow = s.info.mcusPerRow
  perCol : s.layout.maxMCUSPerCol = s.info.mcusPerCol
  remainingX : s.numMCUSRemainingX = s.info.mcusPerRow
  remainingY : s.numMCUSRemainingY = s.info.mcusPerCol

theorem SameFrame.laidOut (h : SameFrame s s') (hs : s.LaidOut) : s'.LaidOut := by
  have hinfo : s'.info = s.info := by rw [Pico.info, Pico.info, h.frame, h.layout]
  exact ⟨by rw [h.frame, h.layout]; exact hs.comps, by rw [h.layout]; exact hs.org,
    by rw [hinfo, h.layout]; exact hs.perRow, by rw [hinfo, h.layout]; exact hs.perCol,
    by rw [hinfo, h.remainingX]; exact hs.remainingX,
    by rw [hinfo, h.remainingY]; exact hs.remainingY⟩

theorem setLayout_laidOut {scan : ScanType} {E : Status → Pico → Prop} (hs : s.From t p)
    (hcomps : s.frame.compsInFrame = if scan = .grayscale then 1 else 3) :
    Ensures (setLayout scan (blockComps scan)) s
      (fun _ s' => (s'.From t p ∧ SameBuf s s') ∧ s'.frame = s.frame ∧ s'.LaidOut) E (Stops t) :=
  .modify ⟨⟨hs, rfl, rfl⟩, rfl, hcomps, rfl, rfl, rfl, rfl, rfl⟩

theorem initFrame_laidOut (hs : s.From t p) :
    Ensures initFrame s
      (fun _ s' => (s'.From t p ∧ SameBuf s s') ∧ s'.frame = s.frame ∧ s'.LaidOut)
      (fun _ s' => s'.From t p ∧ SameBuf s s') (Stops t) := by
  refine .bind (.get ?_)
  dsimp only
  split
  · rename_i hone
    exact .bind (.check (fun _ => ⟨hs, refl s⟩) fun _ => setLayout_laidOut hs hone)
  split
  · rename_i hthree
    refine .bind (.check (fun _ => ⟨hs, refl s⟩) fun _ => ?_)
    split
    · exact setLayout_laidOut hs hthree
    split
    · exact setLayout_laidOut hs hthree
    split
    · exact setLayout_laidOut hs hthree
    split
    · exact setLayout_laidOut hs hthree
    · exact .fail ⟨hs, refl s⟩
  · exact .fail ⟨hs, refl s⟩

/-! ## The scan -/

/-- What a scan names is there. -/
structure Pico.ScanValid (s : Pico) : Prop where
  comps : 1 ≤ s.scan.compsInScan ∧ s.scan.compsInScan ≤ 3
  list : ∀ i < s.scan.compsInScan, s.scan.compList i < s.frame.compsInFrame
  huff : ∀ i < s.scan.compsInScan,
    s.tables.validHuffTables &&& 1 <<< (s.scan.compDCTab (s.scan.compList i)).toNat ≠ 0 ∧
      s.tables.validHuffTables &&& 1 <<< ((s.scan.compACTab (s.scan.compList i)).toNat + 2) ≠ 0
  quant : ∀ i < s.scan.compsInScan,
    s.tables.validQuantTables &&& (if s.frame.compQuant (s.scan.compList i) ≠ 0 then 2 else 1) ≠ 0

theorem readScanComps_list (n i : Nat) (hlist : ∀ j < i, s.scan.compList j < s.frame.compsInFrame) :
    Ensures (readScanComps n i) s (fun _ s' => s'.scan.compsInScan = s.scan.compsInScan ∧
        ∀ j < i + n, s'.scan.compList j < s.frame.compsInFrame)
      (fun _ _ => True) fun _ => True := by
  induction n generalizing s i with
  | zero => exact .pure ⟨rfl, hlist⟩
  | succ n ih =>
    obtain ⟨cc, r₁, hread₁⟩ := readByte_done s
    obtain ⟨c, r₂, hread₂⟩ := readByte_done (s.withReader r₁)
    refine .bind (.of_done hread₁ (.bind (.of_done hread₂ (.bind (.get (.bind (.check
      (fun _ => trivial) fun hfound => .bind (.modify ?_))))))))
    refine (ih (i + 1) fun j hj => ?_).mono (fun _ s' h => ?_) (fun _ _ h => h) fun _ h => h
    · by_cases hji : j = i
      · subst hji
        show Function.update s.scan.compList j _ j < s.frame.compsInFrame
        rw [Function.update_self]
        exact Nat.lt_of_not_le hfound
      · show Function.update s.scan.compList i _ j < s.frame.compsInFrame
        rw [Function.update_of_ne hji]
        exact hlist j (by omega)
    · exact ⟨h.1, fun j hj => h.2 j (by omega)⟩

/-- What `readSOSMarker` lets through. -/
structure Pico.ScanRead (s : Pico) : Prop where
  comps : 1 ≤ s.scan.compsInScan ∧ s.scan.compsInScan ≤ 3
  list : ∀ i < s.scan.compsInScan, s.scan.compList i < s.frame.compsInFrame

theorem readSOSMarker_read (s : Pico) :
    Ensures readSOSMarker s (fun _ s' => s'.frame = s.frame → s'.ScanRead) (fun _ _ => True)
      fun _ => True := by
  obtain ⟨left, r₁, hread₁⟩ := read_done 16 s
  obtain ⟨comps, r₂, hread₂⟩ := readByte_done (s.withReader r₁)
  refine .bind (.of_done hread₁ (.bind (.of_done hread₂ (.bind (.modify (.bind (.check
    (fun _ => trivial) fun hcheck => .bind ?_)))))))
  rw [not_or, not_or] at hcheck
  have hcomps : 1 ≤ comps.toNat ∧ comps.toNat ≤ 3 :=
    ⟨UInt8.le_iff_toNat_le.1 (UInt8.not_lt.1 hcheck.2.1),
      UInt8.le_iff_toNat_le.1 (UInt8.not_lt.1 hcheck.2.2)⟩
  refine (readScanComps_list comps.toNat 0 fun j hj => absurd hj (Nat.not_lt_zero j)).mono
    (fun _ s₁ h₁ => ?_) (fun _ _ h => h) fun _ h => h
  have hcount : s₁.scan.compsInScan = comps.toNat := h₁.1
  have hlist : ∀ j < comps.toNat, s₁.scan.compList j < s.frame.compsInFrame := fun j hj =>
    h₁.2 j (by rw [Nat.zero_add]; exact hj)
  obtain ⟨c₁, r₃, hread₃⟩ := readByte_done s₁
  obtain ⟨c₂, r₄, hread₄⟩ := readByte_done (s₁.withReader r₃)
  obtain ⟨x₁, r₅, hread₅⟩ := read_done 4 ((s₁.withReader r₃).withReader r₄)
  obtain ⟨x₂, r₆, hread₆⟩ := read_done 4 (((s₁.withReader r₃).withReader r₄).withReader r₅)
  obtain ⟨l, r₇, hread₇⟩ := readBytes_done ((left - 3).toNat - 2 * comps.toNat - 3)
    ((((s₁.withReader r₃).withReader r₄).withReader r₅).withReader r₆)
  refine .bind (.of_done hread₃ (.bind (.of_done hread₄ (.bind (.of_done hread₅
    (.bind (.of_done hread₆ (.bind (.of_done hread₇ (.pure fun hframe => ?_))))))))))
  have hframe : s₁.frame = s.frame := hframe
  refine ⟨?_, fun j hj => ?_⟩
  · show 1 ≤ s₁.scan.compsInScan ∧ s₁.scan.compsInScan ≤ 3
    rwa [hcount]
  · show s₁.scan.compList j < s₁.frame.compsInFrame
    rw [hframe]
    exact hlist j (hcount ▸ hj)

/-- The checks of the tables. -/
theorem checkHuffTables_valid (n i : Nat) (s : Pico) :
    Ensures (checkHuffTables n i) s (fun _ s' => s' = s ∧ ∀ j, i ≤ j → j < i + n →
        s.tables.validHuffTables &&& 1 <<< (s.scan.compDCTab (s.scan.compList j)).toNat ≠ 0 ∧
        s.tables.validHuffTables &&& 1 <<< ((s.scan.compACTab (s.scan.compList j)).toNat + 2) ≠ 0)
      (fun _ s' => s' = s) fun _ => False := by
  induction n generalizing i with
  | zero => exact .pure ⟨rfl, fun j hj hlt => by omega⟩
  | succ n ih =>
    refine .bind (.get (.bind (.check (fun _ => rfl) fun hcheck => ?_)))
    rw [not_or] at hcheck
    refine (ih (i + 1)).mono (fun _ s' h => ⟨h.1, fun j hj hlt => ?_⟩) (fun _ _ h => h) fun _ h => h
    by_cases hji : j = i
    · rw [hji]
      exact hcheck
    · exact h.2 j (by omega) (by omega)

theorem checkQuantTables_valid (n i : Nat) (s : Pico) :
    Ensures (checkQuantTables n i) s (fun _ s' => s' = s ∧ ∀ j, i ≤ j → j < i + n →
        s.tables.validQuantTables &&&
          (if s.frame.compQuant (s.scan.compList j) ≠ 0 then 2 else 1) ≠ 0)
      (fun _ s' => s' = s) fun _ => False := by
  induction n generalizing i with
  | zero => exact .pure ⟨rfl, fun j hj hlt => by omega⟩
  | succ n ih =>
    refine .bind (.get (.bind (.check (fun _ => rfl) fun hcheck => ?_)))
    refine (ih (i + 1)).mono (fun _ s' h => ⟨h.1, fun j hj hlt => ?_⟩) (fun _ _ h => h) fun _ h => h
    by_cases hji : j = i
    · rw [hji]
      exact hcheck
    · exact h.2 j (by omega) (by omega)

theorem locateSOSMarker_read {fuel : Nat} (hfuel : t.rest.length + 2 ≤ fuel) (hs : s.From t p) :
    Ensures (locateSOSMarker fuel) s
      (fun found s' => (s'.From t p ∧ SameFrame s s') ∧ (found = false → s'.ScanRead))
      (fun _ s' => s'.From t p ∧ SameFrame s s') (Stops t) := by
  refine .bind ((processMarkers_from hfuel (by omega) hs).mono (fun c s₁ h₁ => ?_)
    (fun _ _ h => h) fun _ h => h)
  obtain ⟨⟨hfrom, hsame⟩, -⟩ := h₁
  split
  · exact .pure ⟨⟨hfrom, hsame⟩, fun h => by cases h⟩
  refine .bind (.check (fun _ => ⟨hfrom, hsame⟩) fun _ => .bind ?_)
  refine ((readSOSMarker_parses s₁ hfrom).and (readSOSMarker_read s₁)).mono
    (fun _ s₂ h₂ => .pure ⟨⟨h₂.1.1, IsTrans.trans _ _ _ hsame h₂.1.2⟩, fun _ => ?_⟩)
    (fun _ _ h => ⟨h.1.2.1, IsTrans.trans _ _ _ hsame h.1.2.2⟩) fun _ h => h.1
  exact h₂.2 h₂.1.2.frame

/-! ## The bit buffer is filled anew -/

/-- Two bytes have gone out of the buffer, and one has come in. -/
theorem getBits8Twice_eq (ffCheck : Bool) (r : BitReader) : getBits8Twice ffCheck r =
    { input := (getOctet ffCheck r.input).2
      bitBuf := zeroExtend (getOctet ffCheck r.input).1 <<< 8
      bitsLeft := 0 } := by
  have hfirst : (getBits 8 ffCheck { r with bitsLeft := 8 }).2 =
      { r with bitsLeft := 0, bitBuf := r.bitBuf <<< 8 } := by
    have hlt : ¬ 8 < 8 := by decide
    rw [getBits_snd _ (Nat.le_refl 8)]
    simp only [if_neg hlt, Nat.sub_self]
  have hout : (r.bitBuf <<< 8 ||| zeroExtend (getOctet ffCheck r.input).1) <<< 8 =
      zeroExtend (getOctet ffCheck r.input).1 <<< 8 := by
    refine BitVec.eq_of_getMsbD_eq fun i hi => ?_
    rw [BitVec.getMsbD_shiftLeft, BitVec.getMsbD_or, BitVec.getMsbD_shiftLeft,
      BitVec.getMsbD_of_ge r.bitBuf _ (by omega), Bool.false_or, BitVec.getMsbD_shiftLeft]
  rw [getBits8Twice, hfirst, getBits_snd _ (Nat.le_refl 8), if_pos (show 0 < 8 by decide)]
  simp only [shiftIn, BitVec.shiftLeft_zero, Nat.sub_zero, Nat.sub_self, hout]

/-- What the bit buffer is filled with is what the entropy-coded data begins with. -/
theorem getBits8Twice_ready {r : BitReader} (h : r.input.Room) :
    (getBits8Twice true r).Ready ∧
      (getBits8Twice true r).bits true = ofBytes (r.input.source.octets true) := by
  obtain ⟨hc, hsource, hroom⟩ := getOctet_source true h
  rw [getBits8Twice_eq]
  refine ⟨⟨Nat.zero_le 8, fun i hi => ?_, hroom⟩, funext fun i => ?_⟩
  · rw [BitVec.getMsbD_shiftLeft, zeroExtend_getMsbD, BitVec.getMsbD_of_ge _ _ (by omega),
      Bool.and_false]
  · simp only [BitReader.bits, Nat.add_zero]
    by_cases hi : i < 8
    · rw [if_pos hi, BitVec.getMsbD_shiftLeft, zeroExtend_getMsbD, decide_eq_true (by omega),
        Bool.true_and, Nat.add_sub_cancel, ofBytes, Nat.div_eq_of_lt hi, Nat.mod_eq_of_lt hi, hc]
      rfl
    · have hskip := congrFun (skip_ofBytes (r.input.source.octets true) 1) (i - 8)
      rw [if_neg hi, hsource]
      apply hskip.symm.trans
      rw [skip]
      congr 1
      omega

/-- `fixInBuffer` puts back what the buffer holds. -/
theorem fixInBuffer_ready (h : At t s.reader p) :
    ∃ r, fixInBuffer s = .done () (s.withReader r) ∧ r.Ready ∧
      r.bits true = ofBytes (((t.drop (p + 1)).back (t.byteAt p)).octets true) := by
  have hleft : ¬ s.reader.bitsLeft > 0 := by rw [h.left]; decide
  have hbyte : toByte (s.reader.bitBuf >>> 8) = t.byteAt p := by
    rw [h.buf, zeroExtend_upper, toByte_zeroExtend]
  have hroom : s.reader.input.inBufLeft.toNat < 255 := by
    have := h.room
    omega
  have hsource := stuffChar_source (c := t.byteAt p) hroom
  have hroom' : (stuffChar (t.byteAt p) s.reader.input).Room := by
    rw [Input.Room, stuffChar_left hroom]
    have := h.room
    omega
  rw [h.source] at hsource
  obtain ⟨hready, hbits⟩ := getBits8Twice_ready
    (r := { s.reader with input := stuffChar (t.byteAt p) s.reader.input }) hroom'
  refine ⟨_, ?_, hready, ?_⟩
  · simp only [fixInBuffer, Comp.modify, if_neg hleft, hbyte]
    rfl
  · rw [hbits, hsource]

/-! ## `pjpeg_decode_init` -/

/-- What `pjpeg_decode_mcu` goes on from. -/
structure Pico.Started (s : Pico) : Prop where
  frame : s.frame.Valid
  laidOut : s.LaidOut
  scan : s.ScanValid
  tables : s.TablesSafe
  ready : s.reader.Ready
  lastDC : s.lastDC = noDC

theorem initScan_started {fuel : Nat} (hfuel : t.rest.length + 2 ≤ fuel) (hs : s.From t p)
    (hframe : s.frame.Valid) (hlaid : s.LaidOut) :
    Ensures (initScan fuel) s (fun _ s' => s'.Started ∧ SameFrame s s')
      (fun _ s' => s'.TablesSafe ∧ SameFrame s s') (Stops t) := by
  refine .bind ((locateSOSMarker_read hfuel hs).mono (fun found s₁ h₁ => ?_)
    (fun _ _ h => ⟨h.1.2, h.2⟩) fun _ h => h)
  obtain ⟨⟨⟨⟨q, -, hat⟩, hsafe⟩, hsame⟩, hread⟩ := h₁
  have hfail {s' : Pico} (h : s' = s₁) : s'.TablesSafe ∧ SameFrame s s' := h ▸ ⟨hsafe, hsame⟩
  refine .bind (.check (fun _ => hfail rfl) fun hfound => .bind (.get (.bind ?_)))
  have hread := hread (Bool.eq_false_iff.2 hfound)
  refine (checkHuffTables_valid s₁.scan.compsInScan 0 s₁).mono ?_ (fun _ _ h => hfail h)
    fun _ h => h.elim
  rintro _ s₂ ⟨hs₂, hhuff⟩
  rw [hs₂]
  refine .bind ((checkQuantTables_valid s₁.scan.compsInScan 0 s₁).mono ?_
    (fun _ _ h => hfail h) fun _ h => h.elim)
  rintro _ s₃ ⟨hs₃, hquant⟩
  rw [hs₃]
  refine .bind (.modify ?_)
  obtain ⟨r, hfix, hready, -⟩ := fixInBuffer_ready (s := { s₁ with
    lastDC := noDC
    restarts :=
      if s₁.restarts.restartInterval ≠ 0 then
        { s₁.restarts with restartsLeft := s₁.restarts.restartInterval, nextRestartNum := 0 }
      else s₁.restarts }) hat
  have hlaid₁ := hsame.laidOut hlaid
  have hscan : s₁.ScanValid := ⟨hread.comps, hread.list,
    fun i hi => hhuff i (Nat.zero_le i) (by rwa [Nat.zero_add]),
    fun i hi => hquant i (Nat.zero_le i) (by rwa [Nat.zero_add])⟩
  exact .of_done hfix ⟨⟨hsame.frame ▸ hframe, ⟨hlaid₁.1, hlaid₁.2, hlaid₁.3, hlaid₁.4,
    hlaid₁.5, hlaid₁.6⟩, ⟨hscan.1, hscan.2, hscan.3, hscan.4⟩, hsafe, hready, rfl⟩,
    ⟨⟨hsame.mcuBuf, hsame.reduce⟩, hsame.frame, hsame.layout, hsame.remainingX,
      hsame.remainingY⟩⟩

theorem init_at (jpeg : Bytes) (reduce : UInt8) (s : Pico) :
    ∃ s', init jpeg reduce s = .done () s' ∧ At ⟨jpeg, false⟩ s'.reader 0 ∧
      s'.tables.huffTab = s.tables.huffTab ∧ s'.mcuBuf = s.mcuBuf ∧ s'.reduce = reduce := by
  refine ⟨_, rfl, ?_, rfl, rfl, rfl⟩
  dsimp only
  rw [getBits8Twice_eq]
  generalize hinput : { s.reader.input with
    callbackData := (⟨jpeg, 0⟩ : JpegInput)
    inBufOfs := 0
    inBufLeft := 0
    temFlag := false } = input
  have hsource : input.source = ⟨jpeg, false⟩ := by
    rw [← hinput]
    rfl
  have hleft : input.inBufLeft.toNat = 0 := by
    rw [← hinput]
    rfl
  obtain ⟨hc, hrest, -⟩ := getOctet_source false (s := input) (by rw [Input.Room, hleft]; decide)
  rw [hsource] at hc hrest
  refine ⟨rfl, ?_, hrest, getChar_left (Nat.le_refl 252) (by rw [hleft]; decide)⟩
  rw [hc]
  rfl

/-- **Every byte string is read to an end**, with a status or with a frame that is well formed.
Nothing but an overfull Huffman table takes the reading out of its memory, and a JPEG that is
refused leaves the buffers of the image as they were. -/
theorem pjpegDecodeInit_started {fuel : Nat} {jpeg : Bytes} (hfuel : jpeg.length + 2 ≤ fuel)
    (reduce : UInt8) (hsafe : s.TablesSafe) :
    Ensures (pjpegDecodeInit fuel jpeg reduce) s
      (fun info s' => (s'.Started ∧ info = s'.info) ∧ s'.mcuBuf = s.mcuBuf ∧ s'.reduce = reduce)
      (fun _ s' => s'.TablesSafe ∧ s'.mcuBuf = s.mcuBuf ∧ s'.reduce = reduce)
      (Stops ⟨jpeg, false⟩) := by
  obtain ⟨s₁, hinit, hat, htab, hbuf, hreduce⟩ := init_at jpeg reduce s
  have hfrom : s₁.From ⟨jpeg, false⟩ 0 := ⟨⟨0, Nat.le_refl 0, hat⟩, fun i => by
    rw [htab]
    exact hsafe i⟩
  have hkept {s' : Pico} (h : SameBuf s₁ s') : s'.mcuBuf = s.mcuBuf ∧ s'.reduce = reduce :=
    ⟨h.mcuBuf.trans hbuf, h.reduce.trans hreduce⟩
  refine .bind (.of_done hinit (.bind ((locateSOFMarker_valid hfuel hfrom).mono
    (fun _ s₂ h₂ => ?_) (fun _ _ h => ⟨h.1.2, hkept h.2⟩) fun _ h => h)))
  refine .bind ((initFrame_laidOut h₂.1.1).mono (fun _ s₃ h₃ => ?_)
    (fun _ _ h => ⟨h.1.2, hkept (IsTrans.trans _ _ _ h₂.2 h.2)⟩) fun _ h => h)
  have hsame₃ : SameBuf s₁ s₃ := IsTrans.trans _ _ _ h₂.2 h₃.1.2
  refine .bind ((initScan_started hfuel h₃.1.1 (h₃.2.1 ▸ h₂.1.2) h₃.2.2).mono
    (fun _ s₄ h₄ => ?_)
    (fun _ _ h => ⟨h.1, hkept (IsTrans.trans _ _ _ hsame₃ h.2.toSameBuf)⟩) fun _ h => h)
  exact .bind (.get (.pure ⟨⟨h₄.1, rfl⟩, hkept (IsTrans.trans _ _ _ hsame₃ h₄.2.toSameBuf)⟩))

end RetroLens.Jpeg
