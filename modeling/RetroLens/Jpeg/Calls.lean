import RetroLens.Jpeg.Blocks

/-!
# picojpeg in a process

The statics live as long as the process: a JPEG is decoded with what the ones
before it have left, whatever became of them. All callers ask for reduced
decodes. Nothing that these leave makes a call go on for ever or leave its
tables (`runCalls_ends`); an overfull Huffman table does, and a JPEG can be
searched for one.
-/

namespace RetroLens.Jpeg

open Text CanonicalCode Checked Comps RetroLens.Core

/-- The statics of a process that has decoded nothing. -/
def Pico.zeroed : Pico where
  reader := ⟨⟨⟨[], 0⟩, fun _ => 0, 0, 0, false⟩, 0, 0⟩
  tables := ⟨fun _ => .zeroed, fun _ => ⟨fun _ => 0⟩, 0, fun _ _ => 0, 0⟩
  frame := ⟨0, 0, 0, fun _ => 0, fun _ => 0, fun _ => 0, fun _ => 0⟩
  scan := ⟨0, fun _ => 0, fun _ => 0, fun _ => 0⟩
  layout := ⟨.grayscale, [], 0, 0, 0, 0⟩
  restarts := ⟨0, 0, 0⟩
  numMCUSRemainingX := 0
  numMCUSRemainingY := 0
  lastDC := noDC
  coeffBuf := fun _ => 0
  mcuBuf := Core.zeroed
  reduce := 0

theorem zeroed_tablesSafe : Pico.zeroed.TablesSafe := fun i => zeroed_safe (by
  unfold huffValSize
  split <;> decide)

/-! ## Overfull tables -/

variable {t : Source} {s : Pico}

instance (left p : Nat) : Decidable (t.TableRead left p) :=
  inferInstanceAs (Decidable (_ ∧ _ ∧ _))

def decideOverfullFrom (t : Source) : (n left p : Nat) → Decidable (t.OverfullFrom n left p)
  | 0, _, _ => isFalse id
  | n + 1, left, p =>
    have := decideOverfullFrom t n (left - (1 + 16 + t.valueCount p))
      (p + (1 + 16 + t.valueCount p))
    inferInstanceAs (Decidable (_ ∧ _ ∧ (_ ∨ _)))

instance (n left p : Nat) : Decidable (t.OverfullFrom n left p) := decideOverfullFrom t n left p

instance (p : Nat) : Decidable (t.SegmentOverfull p) := inferInstanceAs (Decidable (_ ∧ _))

/-- Behind the JPEG there are no markers of tables. -/
theorem overfull_iff : Overfull t ↔ ∃ p < t.rest.length,
    t.byteAt p = 0xFF ∧ t.byteAt (p + 1) = 0xC4 ∧ t.SegmentOverfull (p + 2) := by
  constructor
  · rintro ⟨p, hff, hdht, hover⟩
    refine ⟨p, ?_, hff, hdht, hover⟩
    by_contra hend
    obtain ⟨-, heoi⟩ | ⟨heoi, -⟩ := t.byteAt_end (Nat.le_of_not_lt hend)
    · rw [heoi] at hdht
      exact absurd hdht (by decide)
    · rw [heoi] at hff
      exact absurd hff (by decide)
  · rintro ⟨p, -, hmarker⟩
    exact ⟨p, hmarker⟩

instance : Decidable (Overfull t) := decidable_of_iff' _ overfull_iff

/-- **A DHT segment is read within the tables' memory exactly if none of its tables is
overfull**, whatever was in the tables before. -/
theorem readDHTMarker_outside {q : Nat} (hat : At t s.reader q) (hsafe : s.TablesSafe) :
    readDHTMarker s = .stop .outside ↔ t.SegmentOverfull q := by
  constructor
  · intro hstop
    have hfrom := readDHTMarker_from hat hsafe
    unfold Ensures at hfrom
    rw [hstop] at hfrom
    exact hfrom.2
  · rintro ⟨hlength, hover⟩
    obtain ⟨r, hat', hread⟩ := read_sixteen hat
    unfold Source.lengthAt at hlength hover
    rw [readDHTMarker, bind_done hread, bind_done (check_pass (Nat.not_lt.2 hlength))]
    exact readHuffTables_overfull (s := s.withReader r) hat' hover

/-- A segment with one table of three code words of one bit. -/
def threeCodes : Bytes := [0, 22, 0, 3, 0, 0, 0, 0, 0, 0, 0, 0, 0, 0, 0, 0, 0, 0, 0, 1, 2, 3]

theorem readDHTMarker_threeCodes : ∃ s : Pico, readDHTMarker s = .stop .outside := by
  obtain ⟨s, -, hat, htab, -⟩ := init_at threeCodes 1 .zeroed
  have hsafe : s.TablesSafe := fun i => by
    rw [htab]
    exact zeroed_tablesSafe i
  exact ⟨s, (readDHTMarker_outside hat hsafe).2 (by decide +kernel)⟩

/-! ## Any calls -/

/-- What `reduce` is for a reduced decode. -/
abbrev Reduce := { reduce : UInt8 // reduce ≠ 0 }

inductive Call where
  | decodeInit (jpeg : Bytes) (reduce : Reduce)
  | decodeMcu

/-- A call, whatever it returns. A loop of it has as many passes as the JPEG has bytes, and two
more. -/
def Call.run : Call → Pj Unit
  | .decodeInit jpeg reduce => Comp.ignore do
    let _ ← pjpegDecodeInit (jpeg.length + 2) jpeg reduce.1
    pure ()
  | .decodeMcu => Comp.ignore pjpegDecodeMcu

def runCalls : List Call → Pj Unit
  | [] => pure ()
  | call :: calls => do
    call.run
    runCalls calls

/-- What reduced decodes leave: tables that can be decoded with, and `reduce` set wherever there
are MCUs to come. -/
structure Pico.Reduced (s : Pico) : Prop where
  tables : s.TablesSafe
  reduce : s.numMCUSRemainingX = 0 ∧ s.numMCUSRemainingY = 0 ∨ s.reduce ≠ 0

theorem zeroed_reduced : Pico.zeroed.Reduced := ⟨zeroed_tablesSafe, .inl ⟨rfl, rfl⟩⟩

theorem pjpegDecodeMcu_reduced (hs : s.Reduced) :
    Ensures pjpegDecodeMcu s (fun _ s' => s'.Reduced) (fun _ s' => s'.Reduced)
      fun _ => False := by
  refine .bind (.get (.bind (.check (fun _ => hs) fun hmore => ?_)))
  have hreduce : s.reduce ≠ 0 := hs.reduce.resolve_left hmore
  refine .bind ((decodeNextMCU_decodes s hs.tables).mono (fun _ s₁ h => ?_)
    (fun _ _ h => ⟨h.2.1, .inr (by rwa [h.2.2.reduce])⟩) fun _ h => h)
  obtain ⟨s₂, hcount, hscan, htables, -⟩ := countMcu_done s₁
  refine .of_done hcount ⟨fun i => ?_, .inr ?_⟩
  · rw [htables]
    exact h.1 i
  · rwa [hscan.reduce, h.2.reduce]

/-- The two kinds of call. -/
theorem call_ends (call : Call) (hs : s.Reduced) :
    Ensures call.run s (fun _ s' => s'.Reduced) (fun _ _ => False)
      fun _ => ∃ jpeg reduce, call = .decodeInit jpeg reduce ∧ Overfull ⟨jpeg, false⟩ := by
  cases call with
  | decodeMcu =>
    exact ((pjpegDecodeMcu_reduced hs).mono (fun _ _ h => h) (fun _ _ h => h)
      fun _ h => h.elim).ignore
  | decodeInit jpeg reduce =>
    have hreduced {s' : Pico} (htables : s'.TablesSafe) (h : s'.reduce = reduce.1) : s'.Reduced :=
      ⟨htables, .inr (by rw [h]; exact reduce.2)⟩
    exact (Ensures.bind ((pjpegDecodeInit_started (Nat.le_refl _) reduce.1 hs.tables).mono
      (fun _ s' h' => .pure (hreduced h'.1.1.tables h'.2.2)) (fun _ _ h' => hreduced h'.1 h'.2.2)
      fun why h' => ⟨jpeg, reduce, rfl, h'.2⟩)).ignore

theorem runCalls_ensures (calls : List Call) (hs : s.Reduced) :
    Ensures (runCalls calls) s (fun _ s' => s'.Reduced) (fun _ _ => False)
      fun _ => ∃ jpeg reduce, .decodeInit jpeg reduce ∈ calls ∧ Overfull ⟨jpeg, false⟩ := by
  induction calls generalizing s with
  | nil => exact .pure hs
  | cons call calls ih =>
    refine .bind ((call_ends call hs).mono (fun _ s₁ hs₁ => (ih hs₁).mono (fun _ _ h => h)
      (fun _ _ h => h) fun _ h => ?_) (fun _ _ h => h) fun _ h => ?_)
    · obtain ⟨jpeg, reduce, hmem, hover⟩ := h
      exact ⟨jpeg, reduce, List.mem_cons_of_mem _ hmem, hover⟩
    · obtain ⟨jpeg, reduce, rfl, hover⟩ := h
      exact ⟨jpeg, reduce, List.mem_cons_self, hover⟩

variable {calls : List Call}

theorem runCalls_reduced (hrun : runCalls calls Pico.zeroed = .done () s) : s.Reduced :=
  (runCalls_ensures calls zeroed_reduced).done hrun

/-- A call that goes on to an MCU finds `reduce` set: the branch of `decodeNextMCU` for whole blocks
is not taken in such a process. -/
theorem runCalls_reduce (hrun : runCalls calls Pico.zeroed = .done () s)
    (hmore : ∀ s', pjpegDecodeMcu s ≠ .fail .noMoreBlocks s') : s.reduce ≠ 0 := by
  refine (runCalls_reduced hrun).reduce.resolve_left fun hnone => hmore s ?_
  have hget : (Comp.get : Pj Pico) s = .done s s := rfl
  rw [pjpegDecodeMcu, bind_done hget, bind_fail (check_fail hnone)]

/-- **Every call of a process comes back**, in whatever order it makes them and whatever bytes it
is given, as long as none of the JPEGs has an overfull table. -/
theorem runCalls_ends (calls : List Call)
    (h : ∀ jpeg reduce, .decodeInit jpeg reduce ∈ calls → ¬ Overfull ⟨jpeg, false⟩) :
    ∃ s, runCalls calls Pico.zeroed = .done () s := by
  have hends := runCalls_ensures calls zeroed_reduced
  unfold Ensures at hends
  cases hrun : runCalls calls Pico.zeroed with
  | done value s => exact ⟨s, rfl⟩
  | fail e s =>
    rw [hrun] at hends
    exact hends.elim
  | stop why =>
    rw [hrun] at hends
    obtain ⟨jpeg, reduce, hmem, hover⟩ := hends
    exact absurd hover (h jpeg reduce hmem)

/-- A JPEG in colour, of two MCUs: each block is a byte with its first coefficient. -/
def twoMcus : Bytes :=
  [0xFF, 0xD8, 0xFF, 0xDB, 0, 0x43, 0] ++ List.replicate 64 8 ++
    [0xFF, 0xC0, 0, 0x11, 8, 0, 8, 0, 16, 3, 1, 0x11, 0, 2, 0x11, 0, 3, 0x11, 0,
      0xFF, 0xC4, 0, 0x14, 0, 1, 0, 0, 0, 0, 0, 0, 0, 0, 0, 0, 0, 0, 0, 0, 0, 6,
      0xFF, 0xC4, 0, 0x14, 0x10, 1, 0, 0, 0, 0, 0, 0, 0, 0, 0, 0, 0, 0, 0, 0, 0, 0,
      0xFF, 0xDA, 0, 12, 3, 1, 0, 2, 0, 3, 0, 0, 0x3F, 0,
      0x64, 0x3E, 0x78, 0, 0x7E, 0x28, 0xFF, 0xD9]

/-- A decode that is left at its first MCU, and one that is refused. -/
def earlierCalls : List Call :=
  [.decodeInit twoMcus ⟨1, by decide⟩, .decodeMcu,
    .decodeInit [0xFF, 0xD8, 0xFF, 0xC4] ⟨2, by decide⟩, .decodeMcu]

theorem runCalls_ends_twice :
    ∃ s, runCalls (earlierCalls ++ earlierCalls) Pico.zeroed = .done () s := by
  refine runCalls_ends _ fun jpeg reduce hmem => ?_
  simp only [earlierCalls, List.cons_append, List.nil_append, List.mem_cons,
    Call.decodeInit.injEq, reduceCtorEq, false_or, or_false, List.not_mem_nil] at hmem
  obtain ⟨rfl, -⟩ | ⟨rfl, -⟩ | ⟨rfl, -⟩ | ⟨rfl, -⟩ := hmem
  all_goals decide +kernel

/-! ## A JPEG that is accepted -/

variable {jpeg : Bytes} {info : ImageInfo} {s₀ : Pico}

theorem decodeInit_started (reduce : Reduce) (hs : runCalls calls Pico.zeroed = .done () s)
    (hinit : pjpegDecodeInit (jpeg.length + 2) jpeg reduce.1 s = .done info s₀) :
    (s₀.Started ∧ info = s₀.info) ∧ s₀.mcuBuf = s.mcuBuf ∧ s₀.reduce = reduce.1 :=
  (pjpegDecodeInit_started (Nat.le_refl _) reduce.1 (runCalls_reduced hs).tables).done hinit

/-- **A JPEG that is accepted has a size, and as many MCUs as that takes**: whatever was decoded
before, so many calls of `pjpeg_decode_mcu` succeed at most, and once they have the next one says
that there are no more. -/
theorem decodeInit_mcus (reduce : Reduce) (hs : runCalls calls Pico.zeroed = .done () s)
    (hinit : pjpegDecodeInit (jpeg.length + 2) jpeg reduce.1 s = .done info s₀) :
    (1 ≤ info.width ∧ info.width ≤ maxSize ∧ 1 ≤ info.height ∧ info.height ≤ maxSize) ∧
    ∀ n s', decodeMcus n s₀ = .done () s' → n ≤ info.mcusPerCol * info.mcusPerRow ∧
      (n = info.mcusPerCol * info.mcusPerRow ↔
        ∃ s'', pjpegDecodeMcu s' = .fail .noMoreBlocks s'') := by
  obtain ⟨⟨hstarted, rfl⟩, -⟩ := decodeInit_started reduce hs hinit
  have hframe := hstarted.frame
  exact ⟨⟨hframe.width.1, hframe.width.2, hframe.height.1, hframe.height.2⟩,
    fun n s' hrun => decodeMcus_count hstarted hrun⟩

/-- **The calls for a JPEG return what it holds.** Its blocks do not depend on what earlier
decodes left in the buffers, and each call paints those of its MCU over what the calls before it
have left. -/
theorem decodeInit_blocks (hs : runCalls calls Pico.zeroed = .done () s)
    (hinit : pjpegDecodeInit (jpeg.length + 2) jpeg 1 s = .done info s₀) :
    (jpegBlocks s₀).info = some info ∧ s₀.mcuBuf = s.mcuBuf ∧
      ∀ buf, picoJpegFrom (s₀.withMcu buf) = (jpegBlocks s₀).picoJpeg buf := by
  obtain ⟨⟨hstarted, rfl⟩, hbuf, hreduce⟩ := decodeInit_started ⟨1, by decide⟩ hs hinit
  exact ⟨rfl, hbuf, picoJpeg_blocks hstarted hreduce⟩

/-- `twoMcus` after `earlierCalls`: the buffers are not empty, and are painted over. -/
theorem twoMcus_accepted : ∃ s s₀, runCalls earlierCalls Pico.zeroed = .done () s ∧
    pjpegDecodeInit (twoMcus.length + 2) twoMcus 1 s = .done ⟨16, 8, .yh1v1⟩ s₀ ∧
    (samplesOf 1 s₀).value? = some [115, 159, 145] ∧ s.mcuBuf.pixel 0 = ⟨178, 146, 121⟩ ∧
    ∃ s', decodeMcus 2 s₀ = .done () s' ∧ s'.mcuBuf.pixel 0 = ⟨139, 93, 169⟩ := by
  generalize hall : (do
    runCalls earlierCalls
    let s ← Comp.get
    let info ← pjpegDecodeInit (twoMcus.length + 2) twoMcus 1
    let s₀ ← Comp.get
    decodeMcus 2
    let s' ← Comp.get
    pure (info, (samplesOf 1 s₀).value?, s.mcuBuf.pixel 0, s'.mcuBuf.pixel 0) :
      Pj (ImageInfo × Option (List UInt8) × Pixel × Pixel)) = m
  have hvalue : (m Pico.zeroed).value? =
      some (⟨16, 8, .yh1v1⟩, some [115, 159, 145], ⟨178, 146, 121⟩, ⟨139, 93, 169⟩) := by
    rw [← hall]
    decide +kernel
  obtain ⟨u, hm⟩ := Outcome.value?_eq_some.1 hvalue
  rw [← hall] at hm
  obtain ⟨_, s, hrun, hm⟩ := bind_eq_done.1 hm
  obtain ⟨_, _, ⟨⟩, hm⟩ := bind_eq_done.1 hm
  obtain ⟨info, s₀, hinit, hm⟩ := bind_eq_done.1 hm
  obtain ⟨_, _, ⟨⟩, hm⟩ := bind_eq_done.1 hm
  obtain ⟨_, s', hmcus, hm⟩ := bind_eq_done.1 hm
  obtain ⟨_, _, ⟨⟩, hm⟩ := bind_eq_done.1 hm
  obtain ⟨hfound, -⟩ := Outcome.done.inj hm
  simp only [Prod.mk.injEq] at hfound
  obtain ⟨rfl, hsamples, hbefore, hafter⟩ := hfound
  exact ⟨s, s₀, hrun, hinit, hsamples, hbefore, s', hmcus, hafter⟩

theorem twoMcus_mcus : ∃ s₀, (∀ n s', decodeMcus n s₀ = .done () s' → n ≤ 2) ∧
    ∃ s', decodeMcus 2 s₀ = .done () s' ∧ ∃ s'', pjpegDecodeMcu s' = .fail .noMoreBlocks s'' := by
  obtain ⟨s, s₀, hrun, hinit, -, -, s', hmcus, -⟩ := twoMcus_accepted
  have hcount := (decodeInit_mcus ⟨1, by decide⟩ hrun hinit).2
  exact ⟨s₀, fun n u h => (hcount n u h).1, s', hmcus, (hcount 2 s' hmcus).2.1 rfl⟩

theorem twoMcus_blocks : ∃ s₀ : Pico, s₀.mcuBuf.pixel 0 = ⟨178, 146, 121⟩ ∧
    (∀ buf, picoJpegFrom (s₀.withMcu buf) = (jpegBlocks s₀).picoJpeg buf) ∧
    ((jpegBlocks s₀).blocks 1).map (fun block => block 0 0) = some ⟨139, 93, 169⟩ := by
  obtain ⟨s, s₀, hrun, hinit, hsamples, hbefore, -⟩ := twoMcus_accepted
  obtain ⟨hinfo, hbuf, hblocks⟩ := decodeInit_blocks hrun hinit
  refine ⟨s₀, by rw [hbuf, hbefore], hblocks, ?_⟩
  have hscan : s₀.layout.scanType = .yh1v1 :=
    congrArg ImageInfo.scanType (Option.some.inj hinfo)
  simp only [jpegBlocks, hsamples, hscan, Option.map_some]
  decide

end RetroLens.Jpeg
