import RetroLens.Jpeg.Stream

/-!
# The segments of a header

`Takes m s l Q` says that a part of `pjpeg_decode_init` takes the bytes `l`
where they come next, and ends in `Q`. The segments that an encoder writes are
taken one by one: the tables, the frame and the scan are what their bytes say.
-/

namespace RetroLens.Jpeg

open Text Bits CanonicalCode Checked Comps RetroLens.Core

variable {t : Source} {s s' : Pico} {l l' : Bytes} {c : UInt8} {n p left : Nat} {α β : Type}

theorem Source.bytesAt_append (t : Source) (p m n : Nat) :
    t.bytesAt p (m + n) = t.bytesAt p m ++ t.bytesAt (p + m) n := by
  induction m generalizing p with
  | zero => rw [Nat.zero_add]; rfl
  | succ m ih =>
    rw [Nat.add_right_comm, bytesAt, ih, bytesAt, List.cons_append]
    congr 3
    omega

/-- The bytes that come next are two pieces. -/
theorem Source.bytesAt_split (h : t.bytesAt p (l ++ l').length = l ++ l') :
    t.bytesAt p l.length = l ∧ t.bytesAt (p + l.length) l'.length = l' := by
  rw [List.length_append, Source.bytesAt_append] at h
  exact List.append_inj h (Source.bytesAt_length ..)

/-- Two bytes as a number. -/
def wordOf (high low : UInt8) : BitVec 16 := zeroExtend high <<< 8 ||| zeroExtend low

/-- Where the bytes `l` come next, the computation takes them and ends in `Q`. -/
def Takes (m : Pj α) (s : Pico) (l : Bytes) (Q : α → Pico → Prop) : Prop :=
  ∀ t p, At t s.reader p → t.bytesAt p l.length = l →
    ∃ a s', m s = .done a s' ∧ At t s'.reader (p + l.length) ∧ Q a s'

namespace Takes

variable {m : Pj α} {f : α → Pj β} {Q Q' : α → Pico → Prop} {P : β → Pico → Prop}

theorem done {a : α} {u : Pico} (hm : m s = .done a u) (hreader : u.reader = s.reader)
    (h : Q a u) : Takes m s [] Q := fun _ _ hat _ => ⟨a, u, hm, by rwa [hreader], h⟩

theorem bind {k : Bytes} (hm : Takes m s l Q) (hf : ∀ a s', Q a s' → Takes (f a) s' k P) :
    Takes (m >>= f) s (l ++ k) P := by
  intro t p hat hbytes
  obtain ⟨hl, hk⟩ := Source.bytesAt_split hbytes
  obtain ⟨a, s₁, hdone, hat₁, hq⟩ := hm t p hat hl
  obtain ⟨b, s₂, hdone', hat₂, hp⟩ := hf a s₁ hq t _ hat₁ hk
  refine ⟨b, s₂, by rw [bind_done hdone, hdone'], ?_, hp⟩
  rwa [List.length_append, ← Nat.add_assoc]

/-- A step that takes nothing. -/
theorem andThen {a : α} {u : Pico} (hm : m s = .done a u) (hreader : u.reader = s.reader)
    (hf : Takes (f a) u l P) : Takes (m >>= f) s l P := by
  intro t p hat hbytes
  obtain ⟨b, s₂, hdone, hat', hp⟩ := hf t p (by rwa [hreader]) hbytes
  exact ⟨b, s₂, by rw [bind_done hm, hdone], hat', hp⟩

theorem mono (hm : Takes m s l Q) (h : ∀ a s', Q a s' → Q' a s') : Takes m s l Q' :=
  fun t p hat hbytes => by
    obtain ⟨a, s', hdone, hat', hq⟩ := hm t p hat hbytes
    exact ⟨a, s', hdone, hat', h a s' hq⟩

theorem ignore {m : Pj Unit} {Q : Unit → Pico → Prop} (hm : Takes m s l Q) :
    Takes (Comp.ignore m) s l Q := fun t p hat hbytes => by
  obtain ⟨a, s', hdone, hat', hq⟩ := hm t p hat hbytes
  exact ⟨a, s', by rw [Comp.ignore, hdone], hat', hq⟩

/-! ## Bytes -/

theorem byte {f : UInt8 → Pj β} (h : ∀ r, Takes (f c) (s.withReader r) l P) :
    Takes (readByte >>= f) s (c :: l) P := by
  intro t p hat hbytes
  obtain ⟨hc, hl⟩ := Source.bytesAt_split (l := [c]) hbytes
  have hc : t.byteAt p = c := List.head_eq_of_cons_eq hc
  obtain ⟨r, hat', hread⟩ := readByte_at hat
  rw [hc] at hread
  obtain ⟨b, s', hdone, hat'', hp⟩ := h r t (p + 1) hat' hl
  refine ⟨b, s', by rw [bind_done hread, hdone], ?_, hp⟩
  rwa [List.length_cons, Nat.add_comm l.length, ← Nat.add_assoc]

theorem eight {f : BitVec 16 → Pj β} (h : ∀ r, Takes (f (zeroExtend c)) (s.withReader r) l P) :
    Takes (read 8 >>= f) s (c :: l) P := by
  intro t p hat hbytes
  obtain ⟨hc, hl⟩ := Source.bytesAt_split (l := [c]) hbytes
  have hc : t.byteAt p = c := List.head_eq_of_cons_eq hc
  obtain ⟨r, hat', hread⟩ := read_eight hat
  rw [hc] at hread
  obtain ⟨b, s', hdone, hat'', hp⟩ := h r t (p + 1) hat' hl
  refine ⟨b, s', by rw [bind_done hread, hdone], ?_, hp⟩
  rwa [List.length_cons, Nat.add_comm l.length, ← Nat.add_assoc]

theorem sixteen {high low : UInt8} {f : BitVec 16 → Pj β}
    (h : ∀ r, Takes (f (wordOf high low)) (s.withReader r) l P) :
    Takes (read 16 >>= f) s (high :: low :: l) P := by
  intro t p hat hbytes
  obtain ⟨hc, hl⟩ := Source.bytesAt_split (l := [high, low]) hbytes
  have hhigh : t.byteAt p = high := List.head_eq_of_cons_eq hc
  have hlow : t.byteAt (p + 1) = low := List.head_eq_of_cons_eq (List.tail_eq_of_cons_eq hc)
  obtain ⟨r, hat', hread⟩ := read_sixteen hat
  rw [hhigh, hlow] at hread
  obtain ⟨b, s', hdone, hat'', hp⟩ := h r t (p + 2) hat' hl
  refine ⟨b, s', by rw [bind_done hread]; exact hdone, ?_, hp⟩
  rwa [List.length_cons, List.length_cons, Nat.add_assoc l.length, Nat.add_comm l.length,
    ← Nat.add_assoc]

theorem nibbles {f : BitVec 16 → BitVec 16 → Pj β}
    (h : ∀ r, Takes (f (zeroExtend (c >>> 4)) (zeroExtend (c &&& 15))) (s.withReader r) l P) :
    Takes (read 4 >>= fun high => read 4 >>= fun low => f high low) s (c :: l) P := by
  intro t p hat hbytes
  obtain ⟨hc, hl⟩ := Source.bytesAt_split (l := [c]) hbytes
  have hc : t.byteAt p = c := List.head_eq_of_cons_eq hc
  obtain ⟨r, hat', hread⟩ := read_nibbles hat f
  rw [hc] at hread
  obtain ⟨b, s', hdone, hat'', hp⟩ := h r t (p + 1) hat' hl
  refine ⟨b, s', by rw [hread, hdone], ?_, hp⟩
  rwa [List.length_cons, Nat.add_comm l.length, ← Nat.add_assoc]

theorem bytes {f : Bytes → Pj β} (hn : l.length = n)
    (h : ∀ r, Takes (f l) (s.withReader r) l' P) :
    Takes (readBytes n >>= f) s (l ++ l') P := by
  intro t p hat hbytes
  obtain ⟨hl, hl'⟩ := Source.bytesAt_split hbytes
  obtain ⟨r, hat', hread⟩ := readBytes_at (n := n) hat
  rw [hn] at hl hl'
  rw [hl] at hread
  obtain ⟨b, s', hdone, hat'', hp⟩ := h r t (p + n) hat' hl'
  refine ⟨b, s', by rw [bind_done hread, hdone], ?_, hp⟩
  rwa [List.length_append, hn, ← Nat.add_assoc]

end Takes

theorem wordOf_toNat (high low : UInt8) :
    (wordOf high low).toNat = high.toNat * 256 + low.toNat := by
  have hhigh := high.toNat_lt
  have hlow := low.toNat_lt
  rw [wordOf, zeroExtend_eq, zeroExtend_eq, BitVec.toNat_or, BitVec.toNat_shiftLeft,
    BitVec.toNat_ofNat, BitVec.toNat_ofNat, Nat.mod_eq_of_lt (by omega : low.toNat < 2 ^ 16),
    Nat.mod_eq_of_lt (by omega : high.toNat < 2 ^ 16), Nat.shiftLeft_eq,
    Nat.mod_eq_of_lt (by omega : high.toNat * 2 ^ 8 < 2 ^ 16), Nat.mul_comm,
    ← Nat.two_pow_add_eq_or_of_lt hlow]
  omega

/-! ## Markers -/

theorem skipVariableMarker_takes {high low : UInt8}
    (h : (wordOf high low).toNat = l.length + 2) :
    Takes skipVariableMarker s (high :: low :: l) fun _ s' => ∃ r, s' = s.withReader r := by
  refine Takes.sixteen fun r => Takes.andThen (check_pass (by omega)) rfl ?_
  rw [← List.append_nil l]
  exact Takes.bytes (by omega) fun r' => Takes.done rfl rfl ⟨r', rfl⟩

theorem nextMarker_takes {fuel : Nat} (hff : c ≠ 0xFF) (h0 : c ≠ 0) :
    Takes (nextMarker (fuel + 1) (n + 1)) s [0xFF, c]
      fun a s' => a = c ∧ ∃ r, s' = s.withReader r := by
  have hseek : Takes (seekFF (fuel + 1)) s [0xFF] fun _ s' => ∃ r, s' = s.withReader r :=
    Takes.byte fun r => Takes.done rfl rfl ⟨r, rfl⟩
  refine hseek.bind (k := [c]) fun _ s₁ h₁ => ?_
  obtain ⟨r₁, rfl⟩ := h₁
  have hskip : Takes (skipFF (fuel + 1)) (s.withReader r₁) [c]
      fun a s' => a = c ∧ ∃ r, s' = s.withReader r :=
    Takes.byte fun r => Takes.done (by rw [if_neg hff]; rfl) rfl ⟨rfl, r, rfl⟩
  rw [← List.append_nil [c]]
  refine hskip.bind fun a s₂ h₂ => ?_
  obtain ⟨rfl, r₂, rfl⟩ := h₂
  exact Takes.done (by rw [if_neg h0]; rfl) rfl ⟨rfl, r₂, rfl⟩

/-- A marker that the search ends with. -/
theorem processMarkers_returns {fuel : Nat} (hc : isReturned c = true) :
    Takes (processMarkers (fuel + 1) (n + 1)) s [0xFF, c]
      fun a s' => a = c ∧ ∃ r, s' = s.withReader r := by
  have hff : c ≠ 0xFF := fun h => by rw [h] at hc; exact absurd hc (by decide)
  have h0 : c ≠ 0 := fun h => by rw [h] at hc; exact absurd hc (by decide)
  rw [← List.append_nil [0xFF, c]]
  refine (nextMarker_takes hff h0).bind fun a s₁ h₁ => ?_
  obtain ⟨rfl, r, rfl⟩ := h₁
  exact Takes.done (by rw [if_pos hc]; rfl) rfl ⟨rfl, r, rfl⟩

/-- A segment that the search goes on behind. -/
theorem processMarkers_segment {fuel : Nat} {Q : Unit → Pico → Prop} {P : UInt8 → Pico → Prop}
    (hc : isReturned c = false) (hff : c ≠ 0xFF) (h0 : c ≠ 0)
    (hsegment : ∀ r, Takes (processSegment c) (s.withReader r) l Q)
    (hrest : ∀ s', Q () s' → Takes (processMarkers (fuel + 1) n) s' l' P) :
    Takes (processMarkers (fuel + 1) (n + 1)) s (0xFF :: c :: (l ++ l')) P := by
  refine (nextMarker_takes hff h0).bind (k := l ++ l') fun a s₁ h₁ => ?_
  obtain ⟨rfl, r, rfl⟩ := h₁
  rw [if_neg (by rw [hc]; decide)]
  exact (hsegment r).bind fun _ s' h => hrest s' h

/-! ## Tables -/

/-- An entry of a DHT segment. -/
structure HuffEntry where
  index : UInt8
  bits : Bytes
  values : Bytes

def HuffEntry.bytes (e : HuffEntry) : Bytes := e.index :: (e.bits ++ e.values)

/-- What `readDHTMarker` takes for a table that it can enter. -/
structure HuffEntry.WellFormed (e : HuffEntry) : Prop where
  index : ¬ (e.index &&& 0xF > 1 ∨ e.index &&& 0xF0 > 0x10)
  length : e.bits.length = 16
  total : (e.bits.map UInt8.toNat).sum = e.values.length
  room : e.values.length ≤ getMaxHuffCodes (tableIndex e.index)
  kraft : kraft (counts (bitsOf e.bits)) 8 ≤ 256

theorem readHuffTables_entry {e : HuffEntry} (he : e.WellFormed) (hleft : e.bytes.length ≤ left)
    {Q : Unit → Pico → Prop} (h : ∀ r b, s.tables.Entered (tableIndex e.index) e.bits e.values b →
      Takes (readHuffTables n (left - e.bytes.length)) ((s.withReader r).withTables b) l Q) :
    Takes (readHuffTables (n + 1) left) s (e.bytes ++ l) Q := by
  intro t p hat hbytes
  have hlength : e.bytes.length = 1 + 16 + e.values.length := by
    rw [HuffEntry.bytes, List.length_cons, List.length_append, he.length]
    omega
  obtain ⟨hentry, hl⟩ := Source.bytesAt_split hbytes
  obtain ⟨hindex, hrest⟩ := Source.bytesAt_split (l := [e.index]) hentry
  obtain ⟨hbits, hvalues⟩ := Source.bytesAt_split hrest
  have hindex : t.byteAt p = e.index := List.head_eq_of_cons_eq hindex
  rw [List.length_singleton, he.length] at hbits hvalues
  have hcount : t.valueCount p = e.values.length := by
    rw [Source.valueCount, hbits, he.total]
  have hread : t.TableRead left p :=
    ⟨by rw [hindex]; exact he.index, by rw [hcount, hindex]; exact he.room,
      by rw [hcount]; omega⟩
  obtain ⟨r, b, hat', hentered, hrun⟩ := (readHuffTables_pass hat (by omega) hread n).2 (by
    rw [hbits]
    exact he.kraft)
  rw [hcount, hindex, hbits, hvalues] at hentered
  rw [hcount, ← hlength] at hat' hrun
  obtain ⟨u, s', hdone, hat'', hq⟩ := h r b hentered t _ hat' hl
  refine ⟨u, s', by rw [hrun, hdone], ?_, hq⟩
  rwa [List.length_append, ← Nat.add_assoc]

/-- What a DHT segment with these tables makes of the tables. -/
inductive Tables.EnteredAll : Tables → List HuffEntry → Tables → Prop
  | nil (b : Tables) : EnteredAll b [] b
  | cons {b b' b'' : Tables} {e : HuffEntry} {es : List HuffEntry} :
      b.Entered (tableIndex e.index) e.bits e.values b' → EnteredAll b' es b'' →
      EnteredAll b (e :: es) b''

def huffBytes (es : List HuffEntry) : Bytes := es.flatMap HuffEntry.bytes

theorem readHuffTables_takes {es : List HuffEntry} (h : ∀ e ∈ es, e.WellFormed)
    (hn : es.length ≤ n) :
    Takes (readHuffTables n (huffBytes es).length) s (huffBytes es) fun _ s' =>
      ∃ r b, s' = (s.withReader r).withTables b ∧ s.tables.EnteredAll es b := by
  induction es generalizing n s with
  | nil =>
    refine Takes.done (a := ()) (u := s) ?_ rfl ⟨s.reader, s.tables, rfl, .nil _⟩
    cases n <;> rfl
  | cons e es ih =>
    obtain ⟨m, rfl⟩ : ∃ m, n = m + 1 := ⟨n - 1, by rw [List.length_cons] at hn; omega⟩
    rw [huffBytes, List.flatMap_cons]
    refine readHuffTables_entry (h e List.mem_cons_self) (by
      rw [List.length_append]; omega) fun r b hb => ?_
    rw [List.length_append, Nat.add_sub_cancel_left]
    refine (ih (fun e' he' => h e' (List.mem_cons_of_mem _ he'))
      (Nat.le_of_succ_le_succ hn)).mono fun _ s' h' => ?_
    obtain ⟨r', b', rfl, hall⟩ := h'
    exact ⟨r', b', rfl, .cons hb hall⟩

theorem huffBytes_length (es : List HuffEntry) : es.length ≤ (huffBytes es).length := by
  induction es with
  | nil => exact Nat.zero_le _
  | cons e es ih =>
    rw [huffBytes, List.flatMap_cons, List.length_append, HuffEntry.bytes, List.length_cons,
      List.length_cons]
    rw [huffBytes] at ih
    omega

theorem readDHTMarker_takes {high low : UInt8} {es : List HuffEntry} (h : ∀ e ∈ es, e.WellFormed)
    (hlength : (wordOf high low).toNat = (huffBytes es).length + 2) :
    Takes readDHTMarker s (high :: low :: huffBytes es) fun _ s' =>
      ∃ r b, s' = (s.withReader r).withTables b ∧ s.tables.EnteredAll es b := by
  refine Takes.sixteen fun r => Takes.andThen (check_pass (by omega)) rfl ?_
  rw [hlength, Nat.add_sub_cancel]
  exact (readHuffTables_takes (s := s.withReader r) h (huffBytes_length es)).mono
    fun _ s' ⟨r', b, hs', hb⟩ => ⟨r', b, hs', hb⟩

/-- A Huffman table with these code words and values has been entered. -/
structure Tables.HasTable (b : Tables) (i : Fin 4) (bits values : Bytes) : Prop where
  counted : Counted (bitsOf bits) (huffValSize i)
  created : (b.huffTab i).Created (counts (bitsOf bits)) (b.huffVal i)
  values : ∀ k (h : k < values.length), (b.huffVal i).get (k : Nat) = some values[k]
  valid : b.validHuffTables &&& 1 <<< i.val ≠ 0

theorem Tables.Entered.hasTable {b b' : Tables} {e : HuffEntry} (he : e.WellFormed)
    (h : b.Entered (tableIndex e.index) e.bits e.values b') :
    b'.HasTable (tableIndex e.index) e.bits e.values := by
  have hcounted := counted_of_le he.length (he.total ▸ he.room)
  obtain ⟨vals, table, hcopy, hcreate, rfl⟩ := h
  generalize tableIndex e.index = i at *
  refine ⟨hcounted, ?_, fun k hk => ?_, ?_⟩
  · simp only [Function.update_self]
    exact huffCreate_created hcounted hcreate
  · simp only [Function.update_self]
    unfold Buffer.copy at hcopy
    split at hcopy
    · rename_i hroom
      obtain rfl := Option.some.inj hcopy
      rw [Buffer.get, dif_pos ⟨Int.natCast_nonneg _, Int.ofNat_lt.2 (by omega)⟩]
      simp [hk]
    · cases hcopy
  · intro h0
    have hbit := congrArg (fun x => x.testBit i) h0
    simp [Nat.testBit_or, Nat.one_shiftLeft] at hbit

theorem Tables.Entered.keeps {b b' : Tables} {i j : Fin 4} {bits values bits' values' : Bytes}
    (h : b.Entered i bits values b') (hj : j ≠ i) (ht : b.HasTable j bits' values') :
    b'.HasTable j bits' values' := by
  obtain ⟨vals, table, -, -, rfl⟩ := h
  refine ⟨ht.counted, ?_, ?_, fun h0 => ht.valid ?_⟩
  · simp only [Function.update_of_ne hj]
    exact ht.created
  · simp only [Function.update_of_ne hj]
    exact ht.values
  · rw [Nat.and_or_distrib_right, Nat.or_eq_zero_iff] at h0
    exact h0.1

theorem Tables.EnteredAll.hasTable {b b' : Tables} {es : List HuffEntry}
    (h : b.EnteredAll es b') (hes : ∀ e ∈ es, e.WellFormed)
    (hdistinct : es.Pairwise fun e e' => tableIndex e.index ≠ tableIndex e'.index) :
    ∀ e ∈ es, b'.HasTable (tableIndex e.index) e.bits e.values := by
  have hkeep : ∀ {b b' : Tables} {es : List HuffEntry} {j : Fin 4} {bits values : Bytes},
      b.EnteredAll es b' → (∀ e ∈ es, j ≠ tableIndex e.index) → b.HasTable j bits values →
      b'.HasTable j bits values := by
    intro b b' es j bits values h hj ht
    induction h with
    | nil => exact ht
    | cons hentered _ ih =>
      exact ih (fun e he => hj e (List.mem_cons_of_mem _ he))
        (hentered.keeps (hj _ List.mem_cons_self) ht)
  induction h with
  | nil => exact fun e he => absurd he List.not_mem_nil
  | @cons b b' b'' e es hentered hall ih =>
    obtain ⟨hfirst, hrest⟩ := List.pairwise_cons.1 hdistinct
    intro e' he'
    rcases List.mem_cons.1 he' with rfl | he'
    · exact hkeep hall hfirst (hentered.hasTable (hes _ List.mem_cons_self))
    · exact ih (fun e he => hes e (List.mem_cons_of_mem _ he)) hrest e' he'

theorem Tables.EnteredAll.quant {b b' : Tables} {es : List HuffEntry} (h : b.EnteredAll es b') :
    b'.quant = b.quant ∧ b'.validQuantTables = b.validQuantTables := by
  induction h with
  | nil => exact ⟨rfl, rfl⟩
  | cons hentered _ ih =>
    obtain ⟨_, _, -, -, rfl⟩ := hentered
    exact ih

/-- The entries of a quantization table as they are used. -/
def quantEntries (l : Bytes) : Nat → BitVec 16 :=
  createWinogradQuant fun k => zeroExtend (l.getD k 0)

theorem readQuants_takes (i : Fin 2) (k : Nat) :
    Takes (readQuants i 0 l.length k) s l fun _ s' => ∃ r q,
      s' = (s.withReader r).withTables
        { s.tables with quant := Function.update s.tables.quant i q } ∧
      ∀ j, q j = if k ≤ j ∧ j < k + l.length then zeroExtend (l.getD (j - k) 0)
        else s.tables.quant i j := by
  induction l generalizing s k with
  | nil =>
    refine Takes.done (a := ()) (u := s) rfl rfl ⟨s.reader, s.tables.quant i, ?_, fun j => ?_⟩
    · rw [Function.update_eq_self]
      rfl
    · rw [if_neg (by rw [List.length_nil]; omega)]
  | cons c l ih =>
    have hquant : Takes (readQuant 0) s [c] fun a s' => a = zeroExtend c ∧
        ∃ r, s' = s.withReader r :=
      Takes.eight fun r => Takes.done rfl rfl ⟨rfl, r, rfl⟩
    rw [List.length_cons, readQuants]
    refine hquant.bind (k := l) fun a s₁ h₁ => ?_
    obtain ⟨rfl, r, rfl⟩ := h₁
    refine Takes.andThen (setTables_done _ _) rfl ((ih (k + 1)).mono fun _ s' h' => ?_)
    obtain ⟨r', q, rfl, hq⟩ := h'
    refine ⟨r', q, ?_, fun j => ?_⟩
    · simp only [Pico.withTables, Pico.withReader, Function.update_idem]
    · rw [hq j]
      simp only [Pico.withTables, Pico.withReader, Function.update_self]
      by_cases hjk : j = k
      · subst hjk
        rw [if_neg (by omega), if_pos (by omega), Function.update_self, Nat.sub_self]
        rfl
      · rw [Function.update_of_ne hjk]
        by_cases hin : k + 1 ≤ j ∧ j < k + 1 + l.length
        · rw [if_pos hin, if_pos (by omega), show j - k = j - (k + 1) + 1 by omega,
            List.getD_cons_succ]
        · rw [if_neg hin, if_neg (by omega)]

theorem quantIndex : ∀ i : Fin 2, UInt8.ofNat i >>> 4 = 0 ∧ ¬ UInt8.ofNat i &&& 0x0F > 1 ∧
    (if UInt8.ofNat i &&& 0x0F ≠ 0 then 1 else 0) = i := by decide

/-- A quantization table of a DQT segment, of one byte for an entry. -/
theorem readQuantTables_entry (i : Fin 2) (hl : l.length = 64) (hleft : 65 ≤ left)
    {Q : Unit → Pico → Prop} (h : ∀ r q, (∀ k < 64, q k = quantEntries l k) →
      Takes (readQuantTables n (left - 65)) ((s.withReader r).withTables
        { s.tables with
          quant := Function.update s.tables.quant i q
          validQuantTables := s.tables.validQuantTables ||| (if i = 1 then 2 else 1) }) l' Q) :
    Takes (readQuantTables (n + 1) left) s (UInt8.ofNat i :: (l ++ l')) Q := by
  obtain ⟨hprec, hcheck, hi⟩ := quantIndex i
  rw [readQuantTables, if_neg (by omega)]
  refine Takes.byte fun r => Takes.andThen (check_pass hcheck) rfl ?_
  dsimp only
  rw [hprec, hi]
  refine Takes.andThen (setTables_done _ _) rfl ?_
  have hread := readQuants_takes (l := l) (s := (s.withReader r).withTables
    { s.tables with
      validQuantTables := s.tables.validQuantTables ||| (if i = 1 then 2 else 1) }) i 0
  rw [hl] at hread
  refine hread.bind fun _ s₁ h₁ => ?_
  obtain ⟨r', q, rfl, hq⟩ := h₁
  refine Takes.andThen (setTables_done _ _) rfl (Takes.andThen (check_pass (by
    simp only [ne_eq, not_true_eq_false, if_false]; omega)) rfl ?_)
  have hafter := h r' (createWinogradQuant q) fun k hk => by
    rw [createWinogradQuant, if_pos hk, hq k, if_pos (by omega), quantEntries,
      createWinogradQuant, if_pos hk, Nat.sub_zero]
  refine (congrArg (fun u => Takes (readQuantTables n (left - 65)) u l' Q) ?_).mp hafter
  simp only [Pico.withTables, Pico.withReader, Function.update_idem, Function.update_self]

/-! ## The frame and the scan -/

/-- A frame of three components, of which the first is sampled `hv` times. -/
structure FrameHeader.Colour (f : FrameHeader) (width height : Nat) (hv : UInt8) : Prop where
  width : f.imageXSize = width
  height : f.imageYSize = height
  comps : f.compsInFrame = 3
  ident : f.compIdent 0 = 1 ∧ f.compIdent 1 = 2 ∧ f.compIdent 2 = 3
  hSamp : f.compHSamp 0 = hv >>> 4 ∧ f.compHSamp 1 = 1 ∧ f.compHSamp 2 = 1
  vSamp : f.compVSamp 0 = hv &&& 15 ∧ f.compVSamp 1 = 1 ∧ f.compVSamp 2 = 1
  quant : f.compQuant 0 = 0 ∧ f.compQuant 1 = 1 ∧ f.compQuant 2 = 1

/-- The frame with a component more. -/
def FrameHeader.withComp (f : FrameHeader) (i : Nat) (ident hv quant : UInt8) : FrameHeader :=
  { f with
    compIdent := Function.update f.compIdent i ident
    compHSamp := Function.update f.compHSamp i (hv >>> 4)
    compVSamp := Function.update f.compVSamp i (hv &&& 15)
    compQuant := Function.update f.compQuant i quant }

theorem readComps_comp {i : Nat} {ident hv quant : UInt8} (hquant : ¬ quant > 1)
    {Q : Unit → Pico → Prop} (h : ∀ r, Takes (readComps n (i + 1))
      { s.withReader r with frame := s.frame.withComp i ident hv quant } l Q) :
    Takes (readComps (n + 1) i) s (ident :: hv :: quant :: l) Q :=
  Takes.byte fun _ => Takes.nibbles fun _ => Takes.byte fun r => Takes.andThen rfl rfl (by
    simp only [toByte_zeroExtend]
    exact Takes.andThen (check_pass hquant) rfl (h r))

/-- The segment of a frame of three components. -/
def sofBytes (wh wl hh hl hv : UInt8) : Bytes :=
  [0, 0x11, 8, hh, hl, wh, wl, 3, 1, hv, 0, 2, 0x11, 1, 3, 0x11, 1]

theorem readSOFMarker_takes {wh wl hh hl hv : UInt8}
    (hwidth : 1 ≤ (wordOf wh wl).toNat ∧ (wordOf wh wl).toNat ≤ maxSize)
    (hheight : 1 ≤ (wordOf hh hl).toNat ∧ (wordOf hh hl).toNat ≤ maxSize) :
    Takes readSOFMarker s (sofBytes wh wl hh hl hv) fun _ s' => ∃ r f,
      s' = { s.withReader r with frame := f } ∧
        f.Colour (wordOf wh wl).toNat (wordOf hh hl).toNat hv := by
  have hsize : ∀ x : BitVec 16, 1 ≤ x.toNat ∧ x.toNat ≤ maxSize →
      ¬ (x = 0 ∨ x.toNat > maxSize) := by
    rintro x ⟨hpos, hle⟩ (rfl | hlt)
    · exact absurd hpos (by decide)
    · omega
  refine Takes.sixteen fun _ => Takes.eight fun _ => Takes.andThen (check_pass (by decide)) rfl ?_
  refine Takes.sixteen fun _ => Takes.andThen rfl rfl (Takes.andThen
    (check_pass (hsize _ hheight)) rfl ?_)
  refine Takes.sixteen fun _ => Takes.andThen rfl rfl (Takes.andThen
    (check_pass (hsize _ hwidth)) rfl ?_)
  refine Takes.byte fun _ => Takes.andThen rfl rfl (Takes.andThen (check_pass (by decide)) rfl
    (Takes.andThen (check_pass (by decide)) rfl ?_))
  refine readComps_comp (by decide) fun _ => readComps_comp (by decide) fun _ =>
    readComps_comp (by decide) fun r => Takes.done (a := ()) rfl rfl ⟨r, _, rfl, ?_⟩
  exact ⟨rfl, rfl, rfl, ⟨rfl, rfl, rfl⟩, ⟨rfl, rfl, rfl⟩, ⟨rfl, rfl, rfl⟩, rfl, rfl, rfl⟩

/-- The samplings that the encoder has. -/
def scanTypeOf (subsample : Bool) : ScanType := if subsample then .yh2v2 else .yh1v1

theorem initFrame_colour {width height : Nat} {subsample : Bool}
    (h : s.frame.Colour width height (if subsample then 0x22 else 0x11)) :
    initFrame s = setLayout (scanTypeOf subsample) (blockComps (scanTypeOf subsample)) s := by
  obtain ⟨-, -, hcomps, -, ⟨hh0, hh1, hh2⟩, ⟨hv0, hv1, hv2⟩, -⟩ := h
  have hone : ¬ s.frame.compsInFrame = 1 := by rw [hcomps]; decide
  have hcheck : ¬ ((s.frame.compHSamp 1 ≠ 1 ∨ s.frame.compVSamp 1 ≠ 1) ∨
      (s.frame.compHSamp 2 ≠ 1 ∨ s.frame.compVSamp 2 ≠ 1)) := by
    rw [hh1, hh2, hv1, hv2]
    decide
  have hget : initFrame s = (do
      Comp.check ((s.frame.compHSamp 1 ≠ 1 ∨ s.frame.compVSamp 1 ≠ 1) ∨
        (s.frame.compHSamp 2 ≠ 1 ∨ s.frame.compVSamp 2 ≠ 1)) Status.unsupportedSampFactors
      if s.frame.compHSamp 0 = 1 ∧ s.frame.compVSamp 0 = 1 then setLayout .yh1v1 [0, 1, 2]
      else if s.frame.compHSamp 0 = 1 ∧ s.frame.compVSamp 0 = 2 then setLayout .yh1v2 [0, 0, 1, 2]
      else if s.frame.compHSamp 0 = 2 ∧ s.frame.compVSamp 0 = 1 then setLayout .yh2v1 [0, 0, 1, 2]
      else if s.frame.compHSamp 0 = 2 ∧ s.frame.compVSamp 0 = 2 then
        setLayout .yh2v2 [0, 0, 0, 0, 1, 2]
      else Comp.fail Status.unsupportedSampFactors) s := by
    rw [initFrame, bind_done (show (Comp.get : Pj Pico) s = .done s s from rfl), if_neg hone,
      if_pos hcomps]
  rw [hget, bind_done (check_pass hcheck), hh0, hv0]
  cases subsample <;> rfl

/-- The scan has the three components in order, the first with its own tables. -/
structure ScanHeader.Colour (h : ScanHeader) : Prop where
  comps : h.compsInScan = 3
  list : h.compList 0 = 0 ∧ h.compList 1 = 1 ∧ h.compList 2 = 2
  dcTab : h.compDCTab 0 = 0 ∧ h.compDCTab 1 = 1 ∧ h.compDCTab 2 = 1
  acTab : h.compACTab 0 = 0 ∧ h.compACTab 1 = 1 ∧ h.compACTab 2 = 1

/-- The scan with a component more. -/
def ScanHeader.withComp (h : ScanHeader) (i ci : Nat) (tables : UInt8) : ScanHeader :=
  { h with
    compList := Function.update h.compList i ci
    compDCTab := Function.update h.compDCTab ci ((tables >>> 4) &&& 15)
    compACTab := Function.update h.compACTab ci (tables &&& 15) }

theorem readScanComps_comp {f : FrameHeader} {i ci : Nat} {cc tables : UInt8} (hf : s.frame = f)
    (hci : findComp f cc = ci) (hlt : ci < f.compsInFrame) {Q : Unit → Pico → Prop}
    (h : ∀ r, Takes (readScanComps n (i + 1))
      { s.withReader r with scan := s.scan.withComp i ci tables } l Q) :
    Takes (readScanComps (n + 1) i) s (cc :: tables :: l) Q := by
  subst hf
  refine Takes.byte fun _ => Takes.byte fun r => Takes.andThen rfl rfl (Takes.andThen
    (check_pass (not_le.2 ?_)) rfl ?_)
  · exact hci ▸ hlt
  · exact Takes.andThen rfl rfl (hci ▸ h r)

theorem findComp_colour {f : FrameHeader} {width height : Nat} {hv : UInt8}
    (h : f.Colour width height hv) :
    findComp f 1 = 0 ∧ findComp f 2 = 1 ∧ findComp f 3 = 2 := by
  obtain ⟨h0, h1, h2⟩ := h.ident
  have hrange : List.range 3 = [0, 1, 2] := rfl
  simp only [findComp, h.comps, hrange, List.find?_cons, h0, h1, h2]
  exact ⟨rfl, rfl, rfl⟩

/-- The segment of a scan of three components. -/
def sosBytes : Bytes := [0, 0xC, 3, 1, 0, 2, 0x11, 3, 0x11, 0, 0x3F, 0]

theorem readSOSMarker_takes {width height : Nat} {hv : UInt8}
    (h : s.frame.Colour width height hv) :
    Takes readSOSMarker s sosBytes fun _ s' => ∃ r scan,
      s' = { s.withReader r with scan := scan } ∧ scan.Colour := by
  obtain ⟨hc0, hc1, hc2⟩ := findComp_colour h
  refine Takes.sixteen fun _ => Takes.byte fun _ => Takes.andThen rfl rfl (Takes.andThen
    (check_pass (by decide)) rfl ?_)
  refine Takes.bind (l := [1, 0, 2, 0x11, 3, 0x11]) (k := [0, 0x3F, 0])
    (Q := fun _ s' => ∃ r scan, s' = { s.withReader r with scan := scan } ∧ scan.Colour) ?_ ?_
  · have hlt : ∀ ci ≤ 2, ci < s.frame.compsInFrame := fun ci hci => by rw [h.comps]; omega
    refine readScanComps_comp (n := 2) (i := 0) (by rfl) hc0 (hlt 0 (by decide)) fun _ => ?_
    refine readScanComps_comp (n := 1) (i := 1) (by rfl) hc1 (hlt 1 (by decide)) fun _ => ?_
    refine readScanComps_comp (n := 0) (i := 2) (by rfl) hc2 (hlt 2 (by decide)) fun r => ?_
    refine Takes.done (a := ()) rfl rfl ⟨r, _, rfl, ?_⟩
    exact ⟨rfl, ⟨rfl, rfl, rfl⟩, ⟨rfl, rfl, rfl⟩, rfl, rfl, rfl⟩
  · rintro _ s' ⟨r, scan, rfl, hscan⟩
    refine Takes.byte fun _ => Takes.byte fun _ => Takes.nibbles fun _ => ?_
    exact Takes.bytes (l := []) rfl fun r' => Takes.done rfl rfl ⟨r', scan, rfl, hscan⟩

end RetroLens.Jpeg
