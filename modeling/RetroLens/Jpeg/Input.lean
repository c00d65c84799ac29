import RetroLens.Lib.Bits

/-!
# picojpeg's input

`readJpeg` hands picojpeg the JPEG in pieces of at most 252 bytes. picojpeg
takes them one by one from a buffer of 256 bytes, and puts bytes back into it.
The offset into the buffer is a `uint8`, so that the buffer is a ring.

`Source` is what it is for: the bytes still to come, with bytes put back in
front of them, and `FF D9` over and over behind the last (`getOctet_source`).
-/

namespace RetroLens.Jpeg

open Text Bits

/-! ## The statics -/

structure JpegInput where
  data : Bytes
  offset : Nat
  deriving DecidableEq, Repr

/-- The bytes that a call of `readJpeg` delivers. It returns 0, as picojpeg passes no null
pointer. -/
def readJpeg (requested : Nat) (input : JpegInput) : Bytes × JpegInput :=
  let remaining := if input.offset < input.data.length then input.data.length - input.offset else 0
  let count := if remaining < requested then remaining else requested
  ((input.data.drop input.offset).take count, { input with offset := input.offset + count })

/-- `PJPG_MAX_IN_BUF_SIZE`. -/
def maxInBufSize : Nat := 256

/-- The statics behind `getChar`. -/
structure Input where
  callbackData : JpegInput
  inBuf : UInt8 → UInt8
  inBufOfs : UInt8
  inBufLeft : UInt8
  /-- `gTemFlag` is 0 or 0xFF. -/
  temFlag : Bool

def fillInBuf (s : Input) : Input :=
  let r := readJpeg (maxInBufSize - 4) s.callbackData
  { s with
    callbackData := r.2
    inBufOfs := 4
    inBufLeft := UInt8.ofNat r.1.length
    inBuf := fun i =>
      if h : 4 ≤ i.toNat ∧ i.toNat - 4 < r.1.length then r.1[i.toNat - 4] else s.inBuf i }

def getChar (s : Input) : UInt8 × Input :=
  let s := if s.inBufLeft = 0 then fillInBuf s else s
  if s.inBufLeft = 0 then
    (if !s.temFlag then 0xFF else 0xD9, { s with temFlag := !s.temFlag })
  else
    (s.inBuf s.inBufOfs,
      { s with inBufLeft := s.inBufLeft - 1, inBufOfs := s.inBufOfs + 1 })

def stuffChar (c : UInt8) (s : Input) : Input :=
  { s with
    inBufOfs := s.inBufOfs - 1
    inBuf := Function.update s.inBuf (s.inBufOfs - 1) c
    inBufLeft := s.inBufLeft + 1 }

def getOctet (ffCheck : Bool) (s : Input) : UInt8 × Input :=
  let r := getChar s
  if ffCheck && r.1 == 0xFF then
    let n := getChar r.2
    if n.1 ≠ 0 then (r.1, stuffChar 0xFF (stuffChar n.1 n.2)) else (r.1, n.2)
  else r

/-! ## What is still to come -/

/-- The bytes still to come, and the turn of `FF D9` that follows them. -/
structure Source where
  rest : Bytes
  tem : Bool
  deriving DecidableEq, Repr

namespace Source

def next : Source → UInt8 × Source
  | ⟨c :: rest, tem⟩ => (c, ⟨rest, tem⟩)
  | ⟨[], tem⟩ => (if !tem then 0xFF else 0xD9, ⟨[], !tem⟩)

def back (c : UInt8) (t : Source) : Source := { t with rest := c :: t.rest }

/-- A byte of entropy-coded data: a marker is not passed. -/
def octet (ffCheck : Bool) (t : Source) : UInt8 × Source :=
  if ffCheck && t.next.1 == 0xFF then
    if t.next.2.next.1 ≠ 0 then (t.next.1, back 0xFF (back t.next.2.next.1 t.next.2.next.2))
    else (t.next.1, t.next.2.next.2)
  else t.next

/-- All bytes that calls of `getOctet` deliver. -/
def octets (ffCheck : Bool) (t : Source) : Nat → UInt8
  | 0 => (t.octet ffCheck).1
  | n + 1 => octets ffCheck (t.octet ffCheck).2 n

end Source

/-- `n` bytes of the ring from `ofs` on. -/
def held (buf : UInt8 → UInt8) (ofs : UInt8) : Nat → Bytes
  | 0 => []
  | n + 1 => buf ofs :: held buf (ofs + 1) n

def Input.source (s : Input) : Source :=
  ⟨held s.inBuf s.inBufOfs s.inBufLeft.toNat ++ s.callbackData.data.drop s.callbackData.offset,
    s.temFlag⟩

/-- There is room to put two bytes back. -/
def Input.Room (s : Input) : Prop := s.inBufLeft.toNat ≤ 253

variable {s : Input} {buf : UInt8 → UInt8} {ofs : UInt8} {t : Source}

theorem held_eq {l : Bytes} (h : ∀ k (hk : k < l.length), buf (ofs + UInt8.ofNat k) = l[k]) :
    held buf ofs l.length = l := by
  induction l generalizing ofs with
  | nil => rfl
  | cons c l ih =>
    have hc := h 0 (by rw [List.length_cons]; omega)
    rw [show UInt8.ofNat 0 = 0 from rfl, UInt8.add_zero, List.getElem_cons_zero] at hc
    rw [List.length_cons, held, hc, ih fun k hk => ?_]
    have hnext := h (k + 1) (by rw [List.length_cons]; omega)
    rw [List.getElem_cons_succ] at hnext
    rw [← hnext, UInt8.ofNat_add, UInt8.add_assoc, UInt8.add_comm 1]
    rfl

theorem held_congr {buf' : UInt8 → UInt8} {n : Nat}
    (h : ∀ k < n, buf' (ofs + UInt8.ofNat k) = buf (ofs + UInt8.ofNat k)) :
    held buf' ofs n = held buf ofs n := by
  induction n generalizing ofs with
  | zero => rfl
  | succ n ih =>
    have h0 : buf' ofs = buf ofs := by simpa using h 0 (by omega)
    rw [held, held, h0, ih fun k hk => ?_]
    have hnext := h (k + 1) (by omega)
    rwa [UInt8.ofNat_add, UInt8.add_comm (UInt8.ofNat k), ← UInt8.add_assoc] at hnext

theorem readJpeg_fst (requested : Nat) (input : JpegInput) :
    (readJpeg requested input).1 = (input.data.drop input.offset).take requested := by
  simp only [readJpeg]
  split
  · split
    · rw [List.take_of_length_le (by simp), List.take_of_length_le (by simp; omega)]
    · rfl
  · rw [List.drop_eq_nil_of_le (by omega)]
    simp

theorem readJpeg_length (requested : Nat) (input : JpegInput) :
    (readJpeg requested input).1.length ≤ requested := by
  rw [readJpeg_fst]
  exact List.length_take_le ..

/-- Nothing of the JPEG is lost or delivered twice. -/
theorem readJpeg_whole (requested : Nat) (input : JpegInput) :
    (readJpeg requested input).1 ++
        (readJpeg requested input).2.data.drop (readJpeg requested input).2.offset =
      input.data.drop input.offset := by
  have hdata : (readJpeg requested input).2.data = input.data := rfl
  have hoffset : (readJpeg requested input).2.offset =
      input.offset + (readJpeg requested input).1.length := by
    simp only [readJpeg, List.length_take, List.length_drop]
    split <;> split <;> omega
  have hlen : (readJpeg requested input).1.length =
      min requested (input.data.drop input.offset).length := by
    rw [readJpeg_fst, List.length_take]
  rw [hdata, hoffset, ← List.drop_drop, readJpeg_fst]
  rw [readJpeg_fst] at hlen
  rw [hlen]
  by_cases h : requested ≤ (input.data.drop input.offset).length
  · rw [Nat.min_eq_left h, List.take_append_drop]
  · rw [Nat.min_eq_right (by omega), List.take_of_length_le (by omega), List.drop_length,
      List.append_nil]

theorem fillInBuf_left (s : Input) : (fillInBuf s).inBufLeft.toNat =
    (readJpeg (maxInBufSize - 4) s.callbackData).1.length := by
  have hlen := readJpeg_length (maxInBufSize - 4) s.callbackData
  simp only [maxInBufSize] at hlen
  simp only [fillInBuf, UInt8.toNat_ofNat']
  simp only [maxInBufSize]
  omega

theorem fillInBuf_room (s : Input) : (fillInBuf s).inBufLeft.toNat ≤ 252 := by
  rw [fillInBuf_left]
  exact readJpeg_length ..

/-- An empty buffer is filled with what comes next. -/
theorem fillInBuf_source (h : s.inBufLeft = 0) : (fillInBuf s).source = s.source := by
  have hheld : held (fillInBuf s).inBuf (fillInBuf s).inBufOfs
      (readJpeg (maxInBufSize - 4) s.callbackData).1.length =
        (readJpeg (maxInBufSize - 4) s.callbackData).1 := by
    refine held_eq fun k hk => ?_
    have hlen := readJpeg_length (maxInBufSize - 4) s.callbackData
    have hindex : (4 + UInt8.ofNat k).toNat = 4 + k := by
      simp only [maxInBufSize] at hlen hk
      rw [UInt8.toNat_add, UInt8.toNat_ofNat']
      simp only [UInt8.reduceToNat]
      omega
    simp only [fillInBuf, hindex, Nat.le_add_right, true_and, Nat.add_sub_cancel_left]
    exact dif_pos hk
  have hnone : s.inBufLeft.toNat = 0 := by rw [h]; rfl
  have hwhole := readJpeg_whole (maxInBufSize - 4) s.callbackData
  have hcallback : (fillInBuf s).callbackData =
      (readJpeg (maxInBufSize - 4) s.callbackData).2 := rfl
  have htem : (fillInBuf s).temFlag = s.temFlag := rfl
  rw [Input.source, fillInBuf_left, hheld, Input.source, hnone, held, List.nil_append,
    hcallback, hwhole, htem]

theorem held_front {n : UInt8} (h : n ≠ 0) :
    held buf ofs n.toNat = buf ofs :: held buf (ofs + 1) (n - 1).toNat := by
  have hpos : 0 < n.toNat := Nat.pos_of_ne_zero fun h0 => h (UInt8.toNat_inj.1 h0)
  have hlt := n.toNat_lt
  have hsucc : n.toNat = (n - 1).toNat + 1 := by
    rw [UInt8.toNat_sub]
    simp only [UInt8.reduceToNat]
    omega
  rw [hsucc, held]

/-- **`getChar` takes the next byte**, from the buffer, the callback or the endless tail. -/
theorem getChar_source (s : Input) :
    (getChar s).1 = s.source.next.1 ∧ (getChar s).2.source = s.source.next.2 := by
  have main : ∀ u : Input, u.source = s.source → (u.inBufLeft = 0 → u.source.rest = []) →
      getChar s = (if u.inBufLeft = 0 then
        (if !u.temFlag then 0xFF else 0xD9, { u with temFlag := !u.temFlag })
      else (u.inBuf u.inBufOfs,
        { u with inBufLeft := u.inBufLeft - 1, inBufOfs := u.inBufOfs + 1 })) →
      (getChar s).1 = s.source.next.1 ∧ (getChar s).2.source = s.source.next.2 := by
    intro u hu hend heq
    rw [heq, ← hu]
    split
    · rename_i hleft
      have hsource : u.source = ⟨[], u.temFlag⟩ := by
        rw [← hend hleft]
        rfl
      have hnone : u.inBufLeft.toNat = 0 := by rw [hleft]; rfl
      rw [hsource]
      refine ⟨rfl, ?_⟩
      have hrest := hend hleft
      simp only [Input.source] at hrest ⊢
      rw [hrest]
      rfl
    · rename_i hleft
      simp only [Input.source, held_front hleft, List.cons_append]
      exact ⟨rfl, rfl⟩
  by_cases hleft : s.inBufLeft = 0
  · refine main (fillInBuf s) (fillInBuf_source hleft) (fun h => ?_) ?_
    · have hlen := fillInBuf_left s
      have hnone : (fillInBuf s).inBufLeft.toNat = 0 := by rw [h]; rfl
      have hwhole := readJpeg_whole (maxInBufSize - 4) s.callbackData
      rw [hnone] at hlen
      have hdrop : s.callbackData.data.drop s.callbackData.offset = [] := by
        rw [readJpeg_fst] at hlen
        simp only [maxInBufSize, List.length_take] at hlen
        exact List.eq_nil_of_length_eq_zero (by omega)
      rw [fillInBuf_source hleft, Input.source, hleft]
      exact hdrop
    · simp only [getChar, if_pos hleft]
  · exact main s rfl (fun h => absurd h hleft) (by simp only [getChar, if_neg hleft])

theorem getChar_left {n : Nat} (hn : 252 ≤ n) (h : s.inBufLeft.toNat ≤ n) :
    (getChar s).2.inBufLeft.toNat ≤ n - 1 := by
  have main : ∀ u : Input, u.inBufLeft.toNat ≤ n →
      (if u.inBufLeft = 0 then
        (if !u.temFlag then (0xFF : UInt8) else 0xD9, { u with temFlag := !u.temFlag })
      else (u.inBuf u.inBufOfs,
        { u with inBufLeft := u.inBufLeft - 1, inBufOfs := u.inBufOfs + 1 })).2.inBufLeft.toNat ≤
          n - 1 := by
    intro u hu
    split
    · rename_i hleft
      simp only [hleft, UInt8.reduceToNat]
      omega
    · rename_i hleft
      have hpos : u.inBufLeft.toNat ≠ 0 := fun h0 => hleft (UInt8.toNat_inj.1 h0)
      have hsub := UInt8.toNat_sub u.inBufLeft 1
      simp only [UInt8.reduceToNat] at hsub
      simp only [hsub]
      omega
  by_cases hleft : s.inBufLeft = 0
  · have hfill := main (fillInBuf s) (Nat.le_trans (fillInBuf_room s) hn)
    simpa only [getChar, if_pos hleft] using hfill
  · simpa only [getChar, if_neg hleft] using main s h

theorem stuffChar_left {c : UInt8} (h : s.inBufLeft.toNat < 255) :
    (stuffChar c s).inBufLeft.toNat = s.inBufLeft.toNat + 1 := by
  simp only [stuffChar, UInt8.toNat_add, UInt8.reduceToNat]
  omega

/-- **`stuffChar` puts a byte back**: the ring has room for it. -/
theorem stuffChar_source {c : UInt8} (h : s.inBufLeft.toNat < 255) :
    (stuffChar c s).source = s.source.back c := by
  have hrest : held (Function.update s.inBuf (s.inBufOfs - 1) c) s.inBufOfs s.inBufLeft.toNat =
      held s.inBuf s.inBufOfs s.inBufLeft.toNat := by
    refine held_congr fun k hk => Function.update_of_ne (fun heq => ?_) _ _
    have hback : UInt8.ofNat k = 255 := by
      have hsub : s.inBufOfs + UInt8.ofNat k - s.inBufOfs = s.inBufOfs - 1 - s.inBufOfs := by
        rw [heq]
      rw [UInt8.add_comm, UInt8.add_sub_cancel] at hsub
      rw [hsub, UInt8.sub_eq_add_neg, UInt8.sub_eq_add_neg, UInt8.add_comm s.inBufOfs,
        UInt8.add_assoc, UInt8.add_right_neg]
      decide
    have htoNat := congrArg UInt8.toNat hback
    simp only [UInt8.toNat_ofNat', UInt8.reduceToNat] at htoNat
    omega
  have hofs : (stuffChar c s).inBufOfs + 1 = s.inBufOfs := by
    simp only [stuffChar, UInt8.sub_add_cancel]
  have hcell : (stuffChar c s).inBuf (stuffChar c s).inBufOfs = c := Function.update_self ..
  rw [Input.source, stuffChar_left h, held, hofs, hcell]
  simp only [stuffChar, hrest]
  rfl

/-- **A byte of the entropy-coded data** is the next one of the source, stuffing removed. -/
theorem getOctet_source (ffCheck : Bool) (h : s.Room) :
    (getOctet ffCheck s).1 = (s.source.octet ffCheck).1 ∧
      (getOctet ffCheck s).2.source = (s.source.octet ffCheck).2 ∧
      (getOctet ffCheck s).2.Room := by
  obtain ⟨hc, hcs⟩ := getChar_source s
  obtain ⟨hn, hns⟩ := getChar_source (getChar s).2
  have hleft : (getChar s).2.inBufLeft.toNat ≤ 252 := getChar_left (by omega) h
  have hnleft : (getChar (getChar s).2).2.inBufLeft.toNat ≤ 251 := getChar_left (by omega) hleft
  rw [hcs] at hn hns
  unfold getOctet Source.octet
  dsimp only
  rw [← hc]
  split
  · rw [← hn]
    split
    · refine ⟨rfl, ?_, ?_⟩
      · rw [stuffChar_source (by rw [stuffChar_left (by omega)]; omega),
          stuffChar_source (by omega), hns]
      · rw [Input.Room, stuffChar_left (by rw [stuffChar_left (by omega)]; omega),
          stuffChar_left (by omega)]
        omega
    · exact ⟨rfl, hns, Nat.le_trans hnleft (by omega)⟩
  · exact ⟨hc, hcs, Nat.le_trans hleft (by omega)⟩

end RetroLens.Jpeg
