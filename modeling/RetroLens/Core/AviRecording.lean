import RetroLens.Core.AviFile
import RetroLens.Core.AviWriter

/-!
# What the writer records

A file that `finish` calls good has the bytes of a movie of the accepted frames
(`finish_movie`), and these are the frames within the limits of `addFrame`
(`record_admissible`). So it is a movie file if its length fits a 32-bit size
field, and no movie file otherwise (`finish_good_iff`).
-/

namespace RetroLens.Core

open Text Stdio Riff

variable {faults : Faults} {file : Bytes} {width height fps : Int} {w : AviWriter}
  {frames : List Bytes}

/-! ## The field writers -/

theorem toUInt8_congr {a b : Nat} (h : a % 2 ^ 8 = b % 2 ^ 8) : a.toUInt8 = b.toUInt8 := by
  apply UInt8.toNat_inj.1
  simpa only [Nat.toUInt8_eq, UInt8.toNat_ofNat'] using h

theorem le32_congr {a b : Nat} (h : a % 2 ^ 32 = b % 2 ^ 32) : le32 a = le32 b := by
  simp only [le32, List.cons.injEq, and_true]
  refine ⟨?_, ?_, ?_, ?_⟩ <;> apply toUInt8_congr <;> omega

theorem toUInt8_toNat (v : UInt16) : v.toUInt8 = v.toNat.toUInt8 := by
  apply UInt8.toNat_inj.1
  rw [UInt16.toNat_toUInt8, Nat.toUInt8_eq, UInt8.toNat_ofNat']

theorem u16_bytes (v : UInt16) : [(v &&& 255).toUInt8, ((v >>> 8) &&& 255).toUInt8] = u16 v := by
  have hand : ∀ x : UInt16, (x &&& 255).toUInt8 = x.toNat.toUInt8 := by
    intro x
    have h255 : (255 : UInt16).toNat = 2 ^ 8 - 1 := rfl
    rw [toUInt8_toNat, UInt16.toNat_and, h255, Nat.and_two_pow_sub_one_eq_mod]
    exact toUInt8_congr (Nat.mod_mod _ _)
  have hshift : (v >>> 8).toNat = v.toNat / 2 ^ 8 := by
    rw [UInt16.toNat_shiftRight, Nat.shiftRight_eq_div_pow]
    rfl
  rw [hand, hand, hshift]
  rfl

theorem u32_bytes (v : UInt32) :
    u16 (v &&& 0xffff).toUInt16 ++ u16 (v >>> 16).toUInt16 = u32 v := by
  have hlow : (v &&& 0xffff).toUInt16.toNat = v.toNat % 2 ^ 16 := by
    have hmask : (0xffff : UInt32).toNat = 2 ^ 16 - 1 := rfl
    rw [UInt32.toNat_toUInt16, UInt32.toNat_and, hmask, Nat.and_two_pow_sub_one_eq_mod,
      Nat.mod_mod]
  have hhigh : (v >>> 16).toUInt16.toNat = v.toNat / 2 ^ 16 % 2 ^ 16 := by
    rw [UInt32.toNat_toUInt16, UInt32.toNat_shiftRight, Nat.shiftRight_eq_div_pow]
    rfl
  simp only [u16, u32, le16, le32, hlow, hhigh, List.cons_append, List.nil_append,
    List.cons.injEq, and_true]
  refine ⟨?_, ?_, ?_, ?_⟩ <;> apply toUInt8_congr <;> omega

theorem writeU16_eq (v : UInt16) : writeU16 faults v = Out.fputs faults (u16 v) := by
  rw [← u16_bytes]
  rfl

theorem writeU32_eq (v : UInt32) : writeU32 faults v = Out.fputs faults (u32 v) := by
  rw [← u32_bytes, ← fputs_bind, ← writeU16_eq, ← writeU16_eq]
  rfl

theorem writeFourCC_eq {v : String} (h : (ascii v).length = 4) :
    writeFourCC faults v = Out.fputs faults (ascii v) :=
  congrArg (Out.fputs faults) (List.take_of_length_le (Nat.le_of_eq h))

theorem writeZeros_eq (count : Nat) :
    writeZeros faults count = Out.fputs faults (List.replicate count 0) := by
  induction count with
  | zero => rfl
  | succ count ih =>
    rw [writeZeros, ih]
    rfl

theorem u32_zero : u32 0 = le32 0 := rfl

theorem clean_patchU32 {offset : Nat} (h : offset + 4 ≤ file.length) (v : UInt32) :
    Clean (AtEnd file) (patchU32 faults offset v) fun _ =>
      AtEnd (overwrite file offset (u32 v)) := by
  have hv : (u32 v).length = 4 := rfl
  have hlen : (overwrite file offset (u32 v)).length = file.length := by
    rw [overwrite_length (by omega), hv]
    omega
  unfold patchU32
  rw [writeU32_eq]
  refine .ftell ((clean_fseek faults (by omega)).bind fun _ => ?_)
  refine (clean_fputs faults (by omega) _).bind fun _ => ?_
  refine (clean_fseek faults (by omega)).imp (fun _ hs => hs) fun _ s hs => ?_
  rwa [AtEnd, hlen]

/-! ## The header -/

theorem clean_writeAvih :
    Clean (AtEnd file) (writeAvih faults width height fps) fun r s => r = file.length + 24 ∧
      AtEnd (file ++ (ascii "avih" ++ u32 56 ++ avihData width height fps 0)) s := by
  simp (disch := decide) only [writeAvih, writeFourCC_eq, writeU32_eq, writeZeros_eq,
    fputs_bind_bind]
  refine (clean_append faults _).bind fun _ => .ftell ((clean_append faults _).bind fun _ => ?_)
  refine .pure _ fun s hs => ⟨by rw [List.length_append]; rfl, ?_⟩
  simpa only [avihData, avihHead, avihTail, u32_zero, List.append_assoc] using hs

theorem clean_writeStrh :
    Clean (AtEnd file) (writeStrh faults width height fps) fun r s => r = file.length + 40 ∧
      AtEnd (file ++ (ascii "strh" ++ u32 56 ++ strhData width height fps 0)) s := by
  simp (disch := decide) only [writeStrh, writeFourCC_eq, writeU32_eq, writeU16_eq,
    fputs_bind_bind]
  refine (clean_append faults _).bind fun _ => .ftell ((clean_append faults _).bind fun _ => ?_)
  refine .pure _ fun s hs => ⟨by rw [List.length_append]; rfl, ?_⟩
  simpa only [strhData, strhHead, strhTail, u32_zero, List.append_assoc] using hs

theorem clean_writeStrf :
    Clean (AtEnd file) (writeStrf faults width height) fun _ =>
      AtEnd (file ++ (ascii "strf" ++ u32 40 ++ strfData width height)) := by
  simp (disch := decide) only [writeStrf, writeFourCC_eq, writeU32_eq, writeU16_eq,
    fputs_bind]
  refine (clean_append faults _).imp (fun _ hs => hs) fun _ s hs => ?_
  simpa only [strfData, List.append_assoc] using hs

section Patches

variable {riff hdrl strl avihFrames strhFrames : Nat} {rest new : Bytes} {v : UInt32}

theorem patch_field (n : Nat) (v : UInt32) (b : Bytes) :
    overwrite (le32 n ++ b) 0 (u32 v) = le32 v.toNat ++ b :=
  overwrite_front _ _ _ rfl

theorem patch_riff : overwrite (aviBytes width height fps riff hdrl strl avihFrames strhFrames
    rest) 4 (u32 v) =
      aviBytes width height fps v.toNat hdrl strl avihFrames strhFrames rest := by
  unfold aviBytes
  rw [show 4 = 4 + 0 from rfl, overwrite_skip (n := 4) rfl, patch_field]

theorem patch_hdrl : overwrite (aviBytes width height fps riff hdrl strl avihFrames strhFrames
    rest) 16 (u32 v) =
      aviBytes width height fps riff v.toNat strl avihFrames strhFrames rest := by
  unfold aviBytes
  rw [show 16 = 4 + (4 + (8 + 0)) from rfl, overwrite_skip (n := 4) rfl,
    overwrite_skip (n := 4) rfl, overwrite_skip (n := 8) rfl, patch_field]

theorem patch_avihFrames : overwrite (aviBytes width height fps riff hdrl strl avihFrames
    strhFrames rest) 48 (u32 v) =
      aviBytes width height fps riff hdrl strl v.toNat strhFrames rest := by
  unfold aviBytes
  rw [show 48 = 4 + (4 + (8 + (4 + (28 + 0)))) from rfl, overwrite_skip (n := 4) rfl,
    overwrite_skip (n := 4) rfl, overwrite_skip (n := 8) rfl, overwrite_skip (n := 4) rfl,
    overwrite_skip (n := 28) rfl, patch_field]

theorem patch_strl : overwrite (aviBytes width height fps riff hdrl strl avihFrames strhFrames
    rest) 92 (u32 v) =
      aviBytes width height fps riff hdrl v.toNat avihFrames strhFrames rest := by
  unfold aviBytes
  rw [show 92 = 4 + (4 + (8 + (4 + (28 + (4 + (40 + 0)))))) from rfl,
    overwrite_skip (n := 4) rfl, overwrite_skip (n := 4) rfl, overwrite_skip (n := 8) rfl,
    overwrite_skip (n := 4) rfl, overwrite_skip (n := 28) rfl, overwrite_skip (n := 4) rfl,
    overwrite_skip (n := 40) rfl, patch_field]

theorem patch_strhFrames : overwrite (aviBytes width height fps riff hdrl strl avihFrames
    strhFrames rest) 140 (u32 v) =
      aviBytes width height fps riff hdrl strl avihFrames v.toNat rest := by
  unfold aviBytes
  rw [show 140 = 4 + (4 + (8 + (4 + (28 + (4 + (40 + (4 + (44 + 0)))))))) from rfl,
    overwrite_skip (n := 4) rfl, overwrite_skip (n := 4) rfl, overwrite_skip (n := 8) rfl,
    overwrite_skip (n := 4) rfl, overwrite_skip (n := 28) rfl, overwrite_skip (n := 4) rfl,
    overwrite_skip (n := 40) rfl, overwrite_skip (n := 4) rfl, overwrite_skip (n := 44) rfl,
    patch_field]

theorem patch_rest (k : Nat) : overwrite (aviBytes width height fps riff hdrl strl avihFrames
    strhFrames rest) (212 + k) new =
      aviBytes width height fps riff hdrl strl avihFrames strhFrames (overwrite rest k new) := by
  rw [← List.nil_append rest, aviBytes_append, overwrite_skip aviBytes_nil_length,
    ← aviBytes_append, List.nil_append, List.nil_append]

end Patches

/-- `ftell` at the end of a file of `n` bytes. -/
theorem Clean.ftell_end {α : Type} {f : Nat → Out α} {Q : α → Stream → Prop} (n : Nat)
    (hn : file.length = n) (h : Clean (AtEnd file) (f n) Q) :
    Clean (AtEnd file) (Out.ftell >>= f) Q := by
  subst hn
  exact .ftell h

theorem clean_writeHeader (faults : Faults) (width height fps : Int) :
    Clean (AtEnd []) (writeHeader faults width height fps) fun r s =>
      r = (⟨4, 216, 220, 48, 140⟩, 224) ∧
        AtEnd (aviBytes width height fps 0 192 116 0 0
          (ascii "LIST" ++ le32 0 ++ ascii "movi")) s := by
  simp (disch := decide) only [writeHeader, writeFourCC_eq, writeU32_eq, fputs_bind_bind]
  refine (clean_append faults _).bind fun _ => Clean.ftell_end 4 rfl ?_
  refine (clean_append faults _).bind fun _ => Clean.ftell_end 16 rfl ?_
  refine (clean_append faults _).bind fun _ => Clean.ftell_end 20 rfl ?_
  refine (clean_append faults _).bind fun _ => ?_
  refine clean_writeAvih.bind fun avihFrames => .fact fun havih => ?_
  refine (clean_append faults _).bind fun _ => Clean.ftell_end 92 rfl ?_
  refine (clean_append faults _).bind fun _ => Clean.ftell_end 96 rfl ?_
  refine (clean_append faults _).bind fun _ => ?_
  refine clean_writeStrh.bind fun strhFrames => .fact fun hstrh => ?_
  refine clean_writeStrf.bind fun _ => ?_
  have hfile : ∀ s, AtEnd _ s → AtEnd (aviBytes width height fps 0 0 0 0 0 []) s := fun s hs => by
    simpa only [aviBytes, avihData, strhData, u32_zero, List.nil_append, List.append_nil,
      List.append_assoc] using hs
  refine Clean.imp ?_ hfile fun _ _ hs => hs
  refine Clean.ftell_end 212 aviBytes_nil_length ?_
  refine (clean_patchU32 (by simp [aviBytes_length]) _).bind fun _ => ?_
  rw [patch_strl]
  refine Clean.ftell_end 212 aviBytes_nil_length ?_
  refine (clean_patchU32 (by simp [aviBytes_length]) _).bind fun _ => ?_
  rw [patch_hdrl]
  refine (clean_append faults _).bind fun _ => Clean.ftell_end 216 ?_ ?_
  · rw [List.length_append, aviBytes_nil_length]; rfl
  refine (clean_append faults _).bind fun _ => Clean.ftell_end 220 ?_ ?_
  · rw [List.length_append, List.length_append, aviBytes_nil_length]; rfl
  refine (clean_append faults _).bind fun _ => Clean.ftell_end 224 ?_ ?_
  · rw [List.length_append, List.length_append, List.length_append, aviBytes_nil_length]; rfl
  refine .pure _ fun s hs => ⟨?_, ?_⟩
  · rw [havih, hstrh]
    rfl
  · have hstrl : (UInt32.ofInt ((212 : Nat) - (96 : Nat))).toNat = 116 := rfl
    have hhdrl : (UInt32.ofInt ((212 : Nat) - (20 : Nat))).toNat = 192 := rfl
    rw [hstrl, hhdrl, ← aviBytes_append, ← aviBytes_append, ← aviBytes_append] at hs
    exact hs

/-! ## The frames -/

theorem u32_ofNat (n : Nat) : u32 (.ofNat n) = le32 n :=
  le32_congr (by rw [UInt32.toNat_ofNat', Nat.mod_mod])

theorem u32_ofInt (n : Nat) : u32 (.ofInt n) = le32 n := by
  rw [UInt32.ofInt, u32_ofNat]
  exact le32_congr (by omega)

theorem frame_eq (jpeg : Bytes) : file ++ frame frameId jpeg =
    file ++ (ascii "00dc" ++ u32 (.ofNat jpeg.length)) ++ jpeg ++ pad jpeg.length := by
  have hid : frameId.1.bytes = ascii "00dc" := rfl
  rw [u32_ofNat, frame, hid]
  simp only [List.append_assoc]

theorem clean_writeFrame (faults : Faults) (jpeg : Bytes) :
    Clean (AtEnd file) (AviWriter.writeFrame faults jpeg) fun r s =>
      r = some (file.length, (file ++ frame frameId jpeg).length, false) ∧
        AtEnd (file ++ frame frameId jpeg) s := by
  simp (disch := decide) only [AviWriter.writeFrame, writeFourCC_eq, writeU32_eq, fputs_bind_bind]
  refine .ftell ((clean_append faults _).bind fun _ => .fwrite faults ?_)
  rw [frame_eq]
  simp only [Bool.not_true, Bool.false_eq_true, if_false]
  unfold pad
  split
  · exact (clean_append faults [0]).bind fun _ => .ftell (.ferror (.pure _ fun s hs => ⟨rfl, hs⟩))
  · rw [List.append_nil]
    exact .ftell (.ferror (.pure _ fun s hs => ⟨rfl, hs⟩))

/-- The bytes of `writeEntries`. -/
def entriesBytes (w : AviWriter) (i : Nat) : Nat → Bytes
  | 0 => []
  | count + 1 =>
    ascii "00dc" ++ u32 0x10 ++ u32 (w.frameOffsets i) ++ u32 (w.frameSizes i) ++
      entriesBytes w (i + 1) count

theorem entriesBytes_succ (w : AviWriter) (i count : Nat) :
    entriesBytes w i (count + 1) = entriesBytes w i count ++
      (ascii "00dc" ++ u32 0x10 ++ u32 (w.frameOffsets (i + count)) ++
        u32 (w.frameSizes (i + count))) := by
  induction count generalizing i with
  | zero => simp [entriesBytes]
  | succ count ih =>
    rw [entriesBytes, ih, entriesBytes]
    simp only [List.append_assoc, Nat.add_assoc, Nat.add_comm 1 count]

/-- The entries before the `n`-th depend on nothing after them. -/
theorem entriesBytes_congr {w w' : AviWriter} {i count : Nat}
    (h : ∀ j, i ≤ j → j < i + count →
      w'.frameOffsets j = w.frameOffsets j ∧ w'.frameSizes j = w.frameSizes j) :
    entriesBytes w' i count = entriesBytes w i count := by
  induction count generalizing i with
  | zero => rfl
  | succ count ih =>
    obtain ⟨hoff, hsize⟩ := h i (Nat.le_refl _) (by omega)
    rw [entriesBytes, entriesBytes, hoff, hsize, ih fun j hj hj' => h j (by omega) (by omega)]

theorem clean_writeEntries (w : AviWriter) (i count : Nat) :
    Clean (AtEnd file) (w.writeEntries faults i count) fun _ =>
      AtEnd (file ++ entriesBytes w i count) := by
  induction count generalizing i file with
  | zero => exact .pure () fun s hs => by simpa [entriesBytes] using hs
  | succ count ih =>
    simp (disch := decide) only [AviWriter.writeEntries, writeFourCC_eq, writeU32_eq,
      fputs_bind_bind]
    refine ((clean_append faults _).bind fun _ => ih (i + 1)).imp (fun _ hs => hs) fun _ s hs => ?_
    rwa [List.append_assoc] at hs

/-! ## The recording -/

/-- The bytes of a movie in the making. -/
def recordingBytes (width height fps : Int) (frames : List Bytes) : Bytes :=
  aviBytes width height fps 0 192 116 0 0
    (ascii "LIST" ++ le32 0 ++ ascii "movi" ++ chunksBytes (frameChunks frames))

/-- Unless a write has failed, the writer has these frames and no others. -/
def Records (width height fps : Int) (w : AviWriter) (frames : List Bytes) : Prop :=
  ∀ s, w.file = some s → s.failed = 0 →
    AtEnd (recordingBytes width height fps frames) s ∧ w.offsets = ⟨4, 216, 220, 48, 140⟩ ∧
      w.frameCount = frames.length ∧ entriesBytes w 0 frames.length = indexEntries 4 frames

theorem recordingBytes_length (width height fps : Int) (frames : List Bytes) :
    (recordingBytes width height fps frames).length =
      224 + (chunksBytes (frameChunks frames)).length := by
  rw [recordingBytes, aviBytes_length, List.length_append, ← Nat.add_assoc]
  rfl

theorem recordingBytes_append (jpeg : Bytes) :
    recordingBytes width height fps (frames ++ [jpeg]) =
      recordingBytes width height fps frames ++ frame frameId jpeg := by
  rw [recordingBytes, recordingBytes, frameChunks_append, frameChunks_singleton,
    ← List.append_assoc, aviBytes_append]

theorem records_open (path fopenOk : Bool) (w : AviWriter) :
    Records width height fps (w.«open» faults path fopenOk width height fps).2 [] := by
  unfold Records AviWriter.«open»
  dsimp only
  split_ifs
  · simp [AviWriter.abort]
  · simp [AviWriter.abort]
  · intro s hs hf
    obtain rfl := Option.some.inj hs
    have hstart : AtEnd [] {} := ⟨Nat.le_refl _, rfl, rfl⟩
    obtain ⟨hr, hend⟩ := clean_writeHeader faults width height fps {} hstart hf
    refine ⟨?_, congrArg Prod.fst hr, rfl, rfl⟩
    simpa [recordingBytes, frameChunks, chunksBytes] using hend

/-- A frame accepted while no write fails. -/
theorem records_frame {s s' : Stream} {r : Option (Nat × Nat × Bool)} {jpeg : Bytes}
    (h : Records width height fps w frames) (hfile : w.file = some s)
    (hrun : (AviWriter.writeFrame faults jpeg).run s = (r, s')) (hf : s'.failed = 0) :
    r = some (224 + (chunksBytes (frameChunks frames)).length,
      (recordingBytes width height fps (frames ++ [jpeg])).length, false) ∧
      AtEnd (recordingBytes width height fps (frames ++ [jpeg])) s' ∧
      w.offsets = ⟨4, 216, 220, 48, 140⟩ ∧ w.frameCount = frames.length ∧
      entriesBytes w 0 frames.length = indexEntries 4 frames := by
  have hs' : ((AviWriter.writeFrame faults jpeg).run s).2.failed = 0 := by rw [hrun]; exact hf
  obtain ⟨hend, hoffsets, hcount, hentries⟩ := h s hfile ((Out.failed_start _) hs')
  obtain ⟨hr, hend'⟩ := clean_writeFrame faults jpeg s hend hs'
  rw [hrun, recordingBytes_length, ← recordingBytes_append] at hr
  rw [hrun, ← recordingBytes_append] at hend'
  exact ⟨hr, hend', hoffsets, hcount, hentries⟩

/-- The entry of a new frame, after those of the others. -/
theorem entries_frame {jpeg : Bytes} {s : Stream} {bytesWritten : Nat}
    (hoffsets : w.offsets = ⟨4, 216, 220, 48, 140⟩) (hcount : w.frameCount = frames.length)
    (hentries : entriesBytes w 0 frames.length = indexEntries 4 frames) :
    entriesBytes
      { w with
        file := some s
        frameOffsets := Function.update w.frameOffsets w.frameCount
          (.ofInt ((224 + (chunksBytes (frameChunks frames)).length : Nat) -
            w.offsets.moviDataOffset))
        frameSizes := Function.update w.frameSizes w.frameCount (.ofNat jpeg.length)
        frameCount := w.frameCount + 1
        bytesWritten } 0 (frames ++ [jpeg]).length = indexEntries 4 (frames ++ [jpeg]) := by
  have hoffset : ((224 + (chunksBytes (frameChunks frames)).length : Nat) : Int) -
      w.offsets.moviDataOffset = (4 + (chunksBytes (frameChunks frames)).length : Nat) := by
    rw [hoffsets]
    dsimp only
    omega
  rw [List.length_append, List.length_singleton, entriesBytes_succ, indexEntries_append,
    ← hentries]
  refine congrArg₂ _ (entriesBytes_congr fun j _ hj => ?_) ?_
  · have hne : j ≠ w.frameCount := by omega
    exact ⟨Function.update_of_ne hne _ _, Function.update_of_ne hne _ _⟩
  · simp only [Nat.zero_add, hcount, Function.update_self, hoffset, u32_ofInt, u32_ofNat,
      indexEntries, List.append_nil]

theorem records_addFrame (faults : Faults) (h : Records width height fps w frames)
    (jpeg : Option Bytes) :
    Records width height fps (w.addFrame faults jpeg).2
      (frames ++ if (w.addFrame faults jpeg).1 then jpeg.toList else []) := by
  unfold AviWriter.addFrame
  split
  · rename_i s₀ jpeg hfile
    split
    · simpa using h
    · split
      · rename_i s₁ hrun
        intro s hs hf
        obtain rfl := Option.some.inj hs
        have hr := (records_frame h hfile hrun hf).1
        cases hr
      · rename_i chunk bytesWritten error s₁ hrun
        intro s hs hf
        obtain rfl := Option.some.inj hs
        obtain ⟨hr, hend, hoffsets, hcount, hentries⟩ := records_frame h hfile hrun hf
        obtain ⟨rfl, -, rfl⟩ : chunk = _ ∧ bytesWritten = _ ∧ error = false := by simpa using hr
        refine ⟨hend, hoffsets, ?_, ?_⟩
        · simp [hcount]
        · exact entries_frame hoffsets hcount hentries
  · simpa using h

theorem records_addFrames (h : Records width height fps w frames) (calls : List (Option Bytes)) :
    Records width height fps (w.addFrames faults calls).1
      (frames ++ (w.addFrames faults calls).2) := by
  induction calls generalizing w frames with
  | nil => simpa [AviWriter.addFrames] using h
  | cons jpeg calls ih =>
    have hnext := ih (records_addFrame faults h jpeg)
    rw [List.append_assoc] at hnext
    simp only [AviWriter.addFrames]
    split
    · rename_i haccepted
      rwa [if_pos haccepted] at hnext
    · rename_i hno
      rwa [if_neg hno, List.nil_append] at hnext

/-! ## finish -/

theorem patch_movi (v : UInt32) :
    overwrite (recordingBytes width height fps frames) 216 (u32 v) =
      aviBytes width height fps 0 192 116 0 0
        (ascii "LIST" ++ (u32 v ++ (ascii "movi" ++ chunksBytes (frameChunks frames)))) := by
  have hrest : ascii "LIST" ++ le32 0 ++ ascii "movi" ++ chunksBytes (frameChunks frames) =
      ascii "LIST" ++ (le32 0 ++ (ascii "movi" ++ chunksBytes (frameChunks frames))) := by
    simp only [List.append_assoc]
  rw [recordingBytes, hrest, show 216 = 212 + (4 + 0) from rfl, patch_rest,
    overwrite_skip (n := 4) rfl, patch_field]
  rfl

/-- The header depends on its fields' low 32 bits. -/
theorem aviBytes_congr {riff riff' hdrl strl n n' m m' : Nat} {rest : Bytes}
    (h : le32 riff = le32 riff') (hn : le32 n = le32 n') (hm : le32 m = le32 m') :
    aviBytes width height fps riff hdrl strl n m rest =
      aviBytes width height fps riff' hdrl strl n' m' rest := by
  rw [aviBytes, aviBytes, h, hn, hm]

/-- What `finish` patches into the header is what the movie's chunks say. -/
theorem finished_eq (width height fps : Int) (frames : List Bytes) :
    let rest := ascii "LIST" ++ (le32 (4 + (chunksBytes (frameChunks frames)).length) ++
      (ascii "movi" ++ chunksBytes (frameChunks frames))) ++
      (ascii "idx1" ++ u32 (.ofNat (frames.length * 16))) ++ indexEntries 4 frames
    aviBytes width height fps
      (UInt32.ofInt ((aviBytes width height fps 0 192 116 (UInt32.ofNat frames.length).toNat
        (UInt32.ofNat frames.length).toNat rest).length - 8)).toNat 192 116
      (UInt32.ofNat frames.length).toNat (UInt32.ofNat frames.length).toNat rest =
        movieBytes width height fps frames := by
  intro rest
  have hmovie : movieBytes width height fps frames = aviBytes width height fps
      (4 + (chunksBytes (movie width height fps frames)).length) 192 116 frames.length
      frames.length rest := by
    rw [movieBytes_eq, ← u32_ofNat (frames.length * 16)]
    simp only [rest, List.append_assoc]
  have hsize : ((aviBytes width height fps 0 192 116 (UInt32.ofNat frames.length).toNat
      (UInt32.ofNat frames.length).toNat rest).length : Int) - 8 =
      (4 + (chunksBytes (movie width height fps frames)).length : Nat) := by
    have hlen := congrArg List.length hmovie
    rw [movieBytes, fileBytes_length, aviBytes_length] at hlen
    rw [aviBytes_length]
    omega
  rw [hmovie, hsize]
  exact aviBytes_congr (u32_ofInt _) (u32_ofNat _) (u32_ofNat _)

theorem clean_writeTrailer {s : Stream} (h : Records width height fps w frames)
    (hfile : w.file = some s) (hf : ((w.writeTrailer faults).run s).2.failed = 0) :
    ((w.writeTrailer faults).run s).1 = true ∧
      ((w.writeTrailer faults).run s).2.fclose faults = movieBytes width height fps frames := by
  obtain ⟨hend, hoffsets, hcount, hentries⟩ := h s hfile ((Out.failed_start _) hf)
  suffices hclean : Clean (AtEnd (recordingBytes width height fps frames)) (w.writeTrailer faults)
      fun ok s => ok = true ∧ s.fclose faults = movieBytes width height fps frames from
    hclean s hend hf
  have hlen := recordingBytes_length width height fps frames
  have hmovi : (224 + (chunksBytes (frameChunks frames)).length : Nat) - (220 : Nat) =
      ((4 + (chunksBytes (frameChunks frames)).length : Nat) : Int) := by omega
  simp (disch := decide) only [AviWriter.writeTrailer, writeFourCC_eq, writeU32_eq,
    fputs_bind_bind]
  rw [hoffsets, hcount]
  dsimp only
  refine Clean.ftell_end _ hlen ?_
  refine (clean_patchU32 (by omega) _).bind fun _ => ?_
  rw [patch_movi, hmovi, u32_ofInt]
  refine (clean_append faults _).bind fun _ => (clean_writeEntries w 0 _).bind fun _ => ?_
  rw [hentries, ← aviBytes_append, ← aviBytes_append]
  refine (clean_patchU32 (by rw [aviBytes_length]; omega) _).bind fun _ => ?_
  rw [patch_avihFrames]
  refine (clean_patchU32 (by rw [aviBytes_length]; omega) _).bind fun _ => ?_
  rw [patch_strhFrames]
  refine .ftell ?_
  refine (clean_patchU32 (by rw [aviBytes_length]; omega) _).bind fun _ => .ferror ?_
  rw [patch_riff, if_neg (by simp)]
  refine (clean_fflush faults).imp (fun _ hs => hs) fun ok s hs => ⟨hs.1, ?_⟩
  rw [fclose_of_empty hs.2.1, hs.2.2]
  exact finished_eq width height fps frames

/-- `finish` calls nothing good that a write has failed on. -/
theorem ends_writeTrailer (w : AviWriter) :
    Ends (w.writeTrailer faults) fun ok s => ok = true → s.failed = 0 := by
  unfold AviWriter.writeTrailer
  refine .bind fun _ => .bind fun _ => .bind fun _ => .bind fun _ => .bind fun _ => ?_
  exact .bind fun _ => .bind fun _ => .bind fun _ => .bind fun _ => ends_checked faults

/-- The stream is open and no write has failed. -/
def AviWriter.Whole (w : AviWriter) : Prop := ∃ s, w.file = some s ∧ s.failed = 0

theorem whole_of_finish (h : (w.finish faults).1 = true) : w.Whole := by
  unfold AviWriter.finish at h
  split at h
  · cases h
  · rename_i s hfile
    have hok : ((w.writeTrailer faults).run s).1 = true := h
    exact ⟨s, hfile, (w.writeTrailer faults).failed_start (ends_writeTrailer w s hok)⟩

/-- **What `finish` calls good is the movie.** -/
theorem finish_movie (hrec : Records width height fps w frames)
    (h : (w.finish faults).1 = true) :
    (w.finish faults).2.2 = movieBytes width height fps frames := by
  unfold AviWriter.finish at h ⊢
  split at h
  · cases h
  · rename_i s hfile
    have hok : ((w.writeTrailer faults).run s).1 = true := h
    change ((w.writeTrailer faults).run s).2.fclose faults = _
    exact (clean_writeTrailer hrec hfile (ends_writeTrailer w s hok)).2

/-! ## The frames accepted -/

/-- A frame that `addFrame` takes, of those before the 9000th. -/
def Fits (jpeg : Bytes) : Prop := 0 < jpeg.length ∧ jpeg.length ≤ 1024 * 1024

instance : DecidablePred Fits := fun _ => inferInstanceAs (Decidable (_ ∧ _))

/-- The frames that `addFrame` takes when no write fails. -/
def admissible (calls : List (Option Bytes)) : List Bytes :=
  ((calls.filterMap id).filter (Fits ·)).take kMaxAviFrames

theorem records_whole (hrec : Records width height fps w frames) (h : w.Whole) :
    w.frameCount = frames.length := by
  obtain ⟨s, hfile, hf⟩ := h
  exact (hrec s hfile hf).2.2.1

/-- `addFrame` does not mend a stream, and takes a frame within its limits unless a write fails. -/
theorem addFrame_whole (hrec : Records width height fps w frames) {jpeg : Option Bytes}
    (h : (w.addFrame faults jpeg).2.Whole) :
    w.Whole ∧ ((w.addFrame faults jpeg).1 = true ↔
      frames.length < kMaxAviFrames ∧ ∃ bytes, jpeg = some bytes ∧ Fits bytes) := by
  unfold AviWriter.addFrame at h ⊢
  split at h
  · rename_i s₀ bytes hfile
    split at h
    · rename_i hlimits
      have hcount := records_whole hrec h
      rw [if_pos hlimits]
      refine ⟨h, by simp, ?_⟩
      rintro ⟨hroom, _, hbytes, hfits⟩
      obtain rfl := Option.some.inj hbytes
      unfold Fits at hfits
      omega
    · rename_i hlimits
      rw [if_neg hlimits]
      split at h
      · rename_i s₁ hrun
        obtain ⟨s, hs, hf⟩ := h
        obtain rfl := Option.some.inj hs
        have hr := (records_frame hrec hfile hrun hf).1
        cases hr
      · rename_i chunk bytesWritten error s₁ hrun
        obtain ⟨s, hs, hf⟩ := h
        obtain rfl := Option.some.inj hs
        obtain ⟨hr, -, -, hcount, -⟩ := records_frame hrec hfile hrun hf
        obtain ⟨-, -, rfl⟩ : chunk = _ ∧ bytesWritten = _ ∧ error = false := by simpa using hr
        have hstart : s₀.failed = 0 :=
          (AviWriter.writeFrame faults bytes).failed_start (by rw [hrun]; exact hf)
        refine ⟨⟨s₀, hfile, hstart⟩, fun _ => ⟨by omega, bytes, rfl, ?_⟩, fun _ => ?_⟩
        · unfold Fits
          omega
        · rfl
  · rename_i hnone
    refine ⟨h, by simp, ?_⟩
    rintro ⟨-, bytes, rfl, -⟩
    obtain ⟨s, hs, -⟩ := h
    exact absurd rfl (hnone s bytes hs)

theorem addFrames_whole (hrec : Records width height fps w frames) {calls : List (Option Bytes)}
    (h : (w.addFrames faults calls).1.Whole) :
    w.Whole ∧ (w.addFrames faults calls).2 =
      ((calls.filterMap id).filter (Fits ·)).take (kMaxAviFrames - frames.length) := by
  induction calls generalizing w frames with
  | nil => exact ⟨h, by simp [AviWriter.addFrames]⟩
  | cons jpeg calls ih =>
    obtain ⟨hnext, htail⟩ := ih (records_addFrame faults hrec jpeg) h
    obtain ⟨hw, haccepted⟩ := addFrame_whole hrec hnext
    refine ⟨hw, ?_⟩
    simp only [AviWriter.addFrames]
    by_cases hroom : frames.length < kMaxAviFrames
    · by_cases hfits : ∃ bytes, jpeg = some bytes ∧ Fits bytes
      · obtain ⟨bytes, rfl, hfits⟩ := hfits
        have hok := haccepted.2 ⟨hroom, bytes, rfl, hfits⟩
        have hsucc : kMaxAviFrames - frames.length =
            kMaxAviFrames - (frames ++ [bytes]).length + 1 := by
          rw [List.length_append, List.length_singleton]
          omega
        rw [if_pos hok] at htail ⊢
        rw [htail, hsucc]
        simp [hfits]
      · have hno : ¬ (w.addFrame faults jpeg).1 = true := fun hok => hfits (haccepted.1 hok).2
        rw [if_neg hno, List.append_nil] at htail
        rw [if_neg hno, htail]
        cases jpeg with
        | none => rfl
        | some bytes =>
          have hbytes : ¬ Fits bytes := fun hb => hfits ⟨bytes, rfl, hb⟩
          simp [hbytes]
    · have hno : ¬ (w.addFrame faults jpeg).1 = true := fun hok => hroom (haccepted.1 hok).1
      have hzero : kMaxAviFrames - frames.length = 0 := by omega
      rw [if_neg hno, List.append_nil, hzero, List.take_zero] at htail
      rw [if_neg hno, htail, hzero, List.take_zero]

/-- **Unless a write has failed, the frames accepted are those within the limits.** -/
theorem record_admissible {path fopenOk : Bool} {calls : List (Option Bytes)}
    (h : (w.record faults path fopenOk width height fps calls).1.Whole) :
    (w.record faults path fopenOk width height fps calls).2 = admissible calls :=
  (addFrames_whole (records_open path fopenOk w) h).2

/-! ## Without failures -/

section

variable (hfree : ∀ n, faults n ≠ some false)

include hfree

theorem quiet_patchU32 (offset : Nat) (v : UInt32) : Quiet (patchU32 faults offset v) := by
  unfold patchU32
  rw [writeU32_eq]
  exact quiet_ftell.bind fun _ => (quiet_fseek hfree _).bind fun _ =>
    (quiet_fputs hfree _).bind fun _ => quiet_fseek hfree _

theorem quiet_writeAvih : Quiet (writeAvih faults width height fps) := by
  simp (disch := decide) only [writeAvih, writeFourCC_eq, writeU32_eq, writeZeros_eq,
    fputs_bind_bind]
  exact (quiet_fputs hfree _).bind fun _ => quiet_ftell.bind fun _ =>
    (quiet_fputs hfree _).bind fun _ => .pure _

theorem quiet_writeStrh : Quiet (writeStrh faults width height fps) := by
  simp (disch := decide) only [writeStrh, writeFourCC_eq, writeU32_eq, writeU16_eq,
    fputs_bind_bind]
  exact (quiet_fputs hfree _).bind fun _ => quiet_ftell.bind fun _ =>
    (quiet_fputs hfree _).bind fun _ => .pure _

theorem quiet_writeStrf : Quiet (writeStrf faults width height) := by
  simp (disch := decide) only [writeStrf, writeFourCC_eq, writeU32_eq, writeU16_eq, fputs_bind]
  exact quiet_fputs hfree _

theorem quiet_writeHeader (width height fps : Int) :
    Quiet (writeHeader faults width height fps) := by
  simp (disch := decide) only [writeHeader, writeFourCC_eq, writeU32_eq, fputs_bind_bind]
  refine (quiet_fputs hfree _).bind fun _ => quiet_ftell.bind fun _ => ?_
  refine (quiet_fputs hfree _).bind fun _ => quiet_ftell.bind fun _ => ?_
  refine (quiet_fputs hfree _).bind fun _ => quiet_ftell.bind fun _ => ?_
  refine (quiet_fputs hfree _).bind fun _ => (quiet_writeAvih hfree).bind fun _ => ?_
  refine (quiet_fputs hfree _).bind fun _ => quiet_ftell.bind fun _ => ?_
  refine (quiet_fputs hfree _).bind fun _ => quiet_ftell.bind fun _ => ?_
  refine (quiet_fputs hfree _).bind fun _ => (quiet_writeStrh hfree).bind fun _ => ?_
  refine (quiet_writeStrf hfree).bind fun _ => quiet_ftell.bind fun _ => ?_
  refine (quiet_patchU32 hfree _ _).bind fun _ => quiet_ftell.bind fun _ => ?_
  refine (quiet_patchU32 hfree _ _).bind fun _ => (quiet_fputs hfree _).bind fun _ => ?_
  refine quiet_ftell.bind fun _ => (quiet_fputs hfree _).bind fun _ => ?_
  exact quiet_ftell.bind fun _ => (quiet_fputs hfree _).bind fun _ => quiet_ftell.bind fun _ =>
    .pure _

theorem quiet_writeFrame (jpeg : Bytes) : Quiet (AviWriter.writeFrame faults jpeg) := by
  simp (disch := decide) only [AviWriter.writeFrame, writeFourCC_eq, writeU32_eq, fputs_bind_bind]
  refine quiet_ftell.bind fun _ => (quiet_fputs hfree _).bind fun _ => ?_
  refine (quiet_fwrite hfree _).bind fun _ => ?_
  split
  · exact .pure _
  · split
    · exact (quiet_fputs hfree [0]).bind fun _ => quiet_ftell.bind fun _ =>
        quiet_ferror.bind fun _ => .pure _
    · exact quiet_ftell.bind fun _ => quiet_ferror.bind fun _ => .pure _

theorem quiet_writeEntries (w : AviWriter) (i count : Nat) :
    Quiet (w.writeEntries faults i count) := by
  induction count generalizing i with
  | zero => exact .pure ()
  | succ count ih =>
    simp (disch := decide) only [AviWriter.writeEntries, writeFourCC_eq, writeU32_eq,
      fputs_bind_bind]
    exact (quiet_fputs hfree _).bind fun _ => ih (i + 1)

theorem quiet_writeTrailer (w : AviWriter) : Quiet (w.writeTrailer faults) := by
  simp (disch := decide) only [AviWriter.writeTrailer, writeFourCC_eq, writeU32_eq,
    fputs_bind_bind]
  refine quiet_ftell.bind fun _ => (quiet_patchU32 hfree _ _).bind fun _ => ?_
  refine (quiet_fputs hfree _).bind fun _ => (quiet_writeEntries hfree w _ _).bind fun _ => ?_
  refine (quiet_patchU32 hfree _ _).bind fun _ => (quiet_patchU32 hfree _ _).bind fun _ => ?_
  refine quiet_ftell.bind fun _ => (quiet_patchU32 hfree _ _).bind fun _ => ?_
  refine quiet_ferror.bind fun _ => ?_
  split
  · exact .pure _
  · exact quiet_fflush hfree

theorem whole_open (hw : 0 < width) (hh : 0 < height) (hfps : 0 < fps) (w : AviWriter) :
    (w.«open» faults true true width height fps).2.Whole := by
  have hvalid :
      (!true || decide (width ≤ 0) || decide (height ≤ 0) || decide (fps ≤ 0)) = false := by
    simp [hw, hh, hfps]
  have hquiet := quiet_writeHeader hfree width height fps {}
  unfold AviWriter.«open»
  dsimp only
  rw [hvalid]
  refine ⟨((writeHeader faults width height fps).run {}).2, ?_, hquiet⟩
  rfl

theorem whole_addFrame (h : w.Whole) (jpeg : Option Bytes) :
    (w.addFrame faults jpeg).2.Whole := by
  obtain ⟨s, hfile, hf⟩ := h
  unfold AviWriter.addFrame
  split
  · rename_i s' bytes hfile'
    obtain rfl := Option.some.inj (hfile.symm.trans hfile')
    have hquiet := (quiet_writeFrame hfree bytes s).trans hf
    split
    · exact ⟨s, hfile, hf⟩
    · split
      · rename_i s₁ hrun
        rw [hrun] at hquiet
        exact ⟨s₁, rfl, hquiet⟩
      · rename_i s₁ hrun
        rw [hrun] at hquiet
        exact ⟨s₁, rfl, hquiet⟩
  · exact ⟨s, hfile, hf⟩

theorem whole_addFrames (h : w.Whole) (calls : List (Option Bytes)) :
    (w.addFrames faults calls).1.Whole := by
  induction calls generalizing w with
  | nil => exact h
  | cons jpeg calls ih => exact ih (whole_addFrame hfree h jpeg)

/-- Without failures `finish` calls the file good. -/
theorem finish_whole (hrec : Records width height fps w frames) (h : w.Whole) :
    (w.finish faults).1 = true := by
  obtain ⟨s, hfile, hf⟩ := h
  have hquiet := (quiet_writeTrailer hfree w s).trans hf
  unfold AviWriter.finish
  rw [hfile]
  exact (clean_writeTrailer hrec hfile hquiet).1

end

/-! ## When the file is a movie -/

/-- A recording without failures. -/
theorem finish_free (hw : 0 < width) (hh : 0 < height) (hfps : 0 < fps)
    (calls : List (Option Bytes)) (w : AviWriter) (hfree : ∀ n, faults n ≠ some false) :
    ((w.record faults true true width height fps calls).1.finish faults).1 = true :=
  finish_whole hfree (records_addFrames (records_open true true w) calls)
    (whole_addFrames hfree (whole_open hfree hw hh hfps w) calls)

/-- What `finish` calls good is a movie file if its length fits. -/
theorem finish_aviFile {calls : List (Option Bytes)}
    (h : ((w.record faults true true width height fps calls).1.finish faults).1 = true) :
    AviFile ((w.record faults true true width height fps calls).1.finish faults).2.2
        (w.record faults true true width height fps calls).2 ↔
      movieLength (admissible calls) < 2 ^ 32 + 8 := by
  have hrec : Records width height fps (w.record faults true true width height fps calls).1
      (w.record faults true true width height fps calls).2 :=
    records_addFrames (records_open true true w) calls
  rw [finish_movie hrec h, record_admissible (whole_of_finish h)]
  exact aviFile_movie_iff width height fps _

/-- **What `finish` calls good is always a movie of the accepted frames exactly if a file of the
frames within `addFrame`'s limits has fewer than 2^32 + 8 bytes.** -/
theorem finish_good_iff (hw : 0 < width) (hh : 0 < height) (hfps : 0 < fps)
    (calls : List (Option Bytes)) (w : AviWriter) :
    (∀ faults, ((w.record faults true true width height fps calls).1.finish faults).1 = true →
      AviFile ((w.record faults true true width height fps calls).1.finish faults).2.2
        (w.record faults true true width height fps calls).2) ↔
      movieLength (admissible calls) < 2 ^ 32 + 8 := by
  constructor
  · intro h
    have hfree : ∀ n, (fun _ => none : Faults) n ≠ some false := fun _ => nofun
    have hgood := finish_free hw hh hfps calls w hfree
    exact (finish_aviFile hgood).1 (h _ hgood)
  · intro hfits faults hgood
    exact (finish_aviFile hgood).2 hfits

theorem finish_good_small :
    movieLength (admissible [some [0xff, 0xd8, 0xd9], none]) = 260 ∧ ∀ faults,
      let r := AviWriter.record faults true true 1920 1080 10 [some [0xff, 0xd8, 0xd9], none] {}
      (r.1.finish faults).1 = true → AviFile (r.1.finish faults).2.2 r.2 :=
  ⟨by decide, (finish_good_iff (by decide) (by decide) (by decide) _ {}).2 (by decide)⟩

theorem admissible_replicate {n : Nat} {jpeg : Bytes} (hn : n ≤ kMaxAviFrames) (h : Fits jpeg) :
    admissible (List.replicate n (some jpeg)) = List.replicate n jpeg := by
  have hmin : min kMaxAviFrames n = n := Nat.min_eq_right hn
  rw [admissible, List.filterMap_replicate_of_some (f := id) (a := some jpeg) rfl,
    List.filter_replicate_of_pos (p := fun jpeg => decide (Fits jpeg)) (decide_eq_true h),
    List.take_replicate, hmin]

theorem movieLength_replicate (n : Nat) (jpeg : Bytes) :
    movieLength (List.replicate n jpeg) = 232 + n * (24 + jpeg.length + jpeg.length % 2) := by
  rw [movieLength, List.map_replicate, List.sum_replicate_nat]

/-- A recording without failures whose file is too long. -/
theorem finish_long (hw : 0 < width) (hh : 0 < height) (hfps : 0 < fps)
    {calls : List (Option Bytes)} (hlong : 2 ^ 32 + 8 ≤ movieLength (admissible calls))
    (w : AviWriter) (hfree : ∀ n, faults n ≠ some false) :
    ((w.record faults true true width height fps calls).1.finish faults).1 = true ∧
      ¬ AviFile ((w.record faults true true width height fps calls).1.finish faults).2.2
        (w.record faults true true width height fps calls).2 := by
  have hgood := finish_free hw hh hfps calls w hfree
  refine ⟨hgood, fun hfile => ?_⟩
  exact absurd ((finish_aviFile hgood).1 hfile) (Nat.not_lt.2 hlong)

/-- 4096 frames of 1 MiB: no write fails and `finish` calls the file good, but its RIFF size is
that of a file 4 GiB shorter. -/
theorem full_movie_cut :
    let calls := List.replicate 4096 (some (List.replicate (1024 * 1024) (0xff : UInt8)))
    let r := AviWriter.record (fun _ => none) true true 1920 1080 10 calls {}
    (r.1.finish fun _ => none).1 = true ∧ ¬ AviFile (r.1.finish fun _ => none).2.2 r.2 := by
  have hfits : Fits (List.replicate (1024 * 1024) 0xff) := by
    unfold Fits
    rw [List.length_replicate]
    omega
  refine finish_long (by decide) (by decide) (by decide) ?_ {} fun _ => nofun
  rw [admissible_replicate (by decide) hfits, movieLength_replicate, List.length_replicate]
  omega

end RetroLens.Core
