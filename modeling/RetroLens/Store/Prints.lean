import RetroLens.Lib.Stdio
import RetroLens.Store.Session
import RetroLens.Store.Settings

/-!
# Texts printed through stdio

The writers of the index, the settings and the sidecar print into a buffer that
the library may have to write out at any byte. `flushAndClose` asks for the
result of its own `fflush` and not for the stream's error, so a write that was
forced before and failed goes unnoticed, and a file with a part missing is
renamed over the good one (`text_saves_whole_iff`).
-/

namespace RetroLens.Store

open Text Disk RetroLens.Core Stdio

/-! ## The prints -/

section

variable (faults : Faults)

def printIndex (entries : List PhotoEntry) : Out Unit :=
  entries.forM fun e => Out.fputs faults (indexLine e ++ [10])

/-- The ids from the `i`-th on. -/
def printRecent : Nat → List Int → Out Unit
  | _, [] => pure ()
  | i, preset :: recent => do
    Out.fputs faults ((if i = 0 then [] else ascii ",") ++ (presetAt preset).id)
    printRecent (i + 1) recent

def printSettings (settings : RuntimeSettings) : Out Unit := do
  Out.fputs faults
    (ascii "version=2\npreset=" ++ (presetAt settings.selectedPreset).id ++
      ascii "\nintensity=" ++ decimal settings.intensity ++
      ascii "\nfavorites_lo=" ++ hex settings.favoritesLo.toNat ++
      ascii "\nfavorites_hi=" ++ hex settings.favoritesHi.toNat ++
      ascii "\nmotion=" ++ decimal settings.motion ++
      ascii "\ndiagnostics=" ++ (if settings.diagnostics then [49] else [48]) ++
      ascii "\nrecent=")
  printRecent faults 0 (settings.recent.take kRecentPresetCount)
  Out.fputc faults 10
  (List.range presets.length).forM fun i : Nat =>
    Out.fputs faults (adjustLine i (settings.adjustments i))

def printEscaped (value : Bytes) : Out Unit := do
  Out.fputc faults 34
  value.forM fun c => Out.fputs faults (jsonEscapeByte c)
  Out.fputc faults 34

def printSidecar (model version : Bytes) (presetIndex intensity : Int)
    (adjustments : Adjustments) (favorite : Bool) (timestampMs : Int64) : Out Unit := do
  Out.fputs faults
    (ascii "\x7b\n  \"type\":\"preview-resolution derivative\",\n  \"preset\":")
  printEscaped faults (presetAt presetIndex).id
  Out.fputs faults
    (ascii ",\n  \"width\":" ++ decimalNat kPhotoWidth ++
      ascii ",\n  \"height\":" ++ decimalNat kPhotoHeight ++
      ascii ",\n  \"intensity\":" ++ decimal intensity ++
      ascii ",\n  \"contrastAdjustment\":" ++ decimal adjustments.contrast ++
      ascii ",\n  \"grainAdjustment\":" ++ decimal adjustments.grain ++
      ascii ",\n  \"motionAdjustment\":" ++ decimal adjustments.motion ++
      ascii ",\n  \"sourceTimestampMs\":" ++ decimal timestampMs.toInt ++
      ascii ",\n  \"favorite\":" ++ (if favorite then ascii "true" else ascii "false") ++
      ascii ",\n  \"originalPreserved\":true,\n  \"originalPathKnown\":false,\n" ++
      ascii "  \"cameraModel\":")
  printEscaped faults model
  Out.fputs faults (ascii ",\n  \"applicationVersion\":")
  printEscaped faults version
  Out.fputs faults (ascii "\n\x7d\n")

end

/-! ## The writers -/

/-- The plan of a file whose prints and flush have come to `r`; a flush that fails leaves EIO
in `errno` if the plan has no other value. -/
def FilePlan.through (f : FilePlan) (r : Bool × Bytes) : FilePlan :=
  { f with fflush := if r.1 then .done else .fails (f.fflush.after 5), torn := r.2 }

/-- Open the temporary file, print into it and put it in `final`'s place. -/
def replacePrinted (f : FilePlan) (final : Path) (r : Bool × Bytes) (w : CardWorld) :
    Bool × CardWorld :=
  replaceText (f.through r) final r.2 w

/-- What stdio does with the two texts of a save. -/
structure PrintFaults where
  sidecar : Faults := fun _ => none
  index : Faults := fun _ => none

namespace Printed

def saveIndex (faults : Faults) (f : FilePlan) (s : PhotoStore) (w : CardWorld) :
    Bool × CardWorld :=
  replacePrinted f indexPath (printed faults (printIndex faults s.entries.list)) w

def saveSettings (faults : Faults) (f : FilePlan) (settings : RuntimeSettings) (w : CardWorld) :
    Bool × CardWorld :=
  replacePrinted f settingsPath (printed faults (printSettings faults settings)) w

def writeSidecar (faults : Faults) (f : FilePlan) (undo : UnlinkPlan) (photo : Photo)
    (filename : Bytes) : Step := fun s w =>
  let r := printed faults (printSidecar faults s.model s.version photo.presetIndex photo.intensity
    photo.adjustments photo.favorite photo.timestampMs)
  Store.writeSidecar (f.through r) undo filename r.2 s w

def commitIndex (faults : Faults) (plan : SavePlan) (entry : PhotoEntry) : Step :=
  commitIndexWith (saveIndex faults plan.index) plan entry

def writePhoto (faults : PrintFaults) (plan : SavePlan) (photo : Photo) (encoded : Bytes) : Step :=
  writePhotoWith (writeSidecar faults.sidecar plan.sidecar plan.undo photo)
    (commitIndex faults.index plan) plan photo encoded

def savePhoto (faults : PrintFaults) (plan : SavePlan) (photo : Photo) (encodedCapacity : Int)
    (s : PhotoStore) (w : CardWorld) : Option Nat × PhotoStore × CardWorld :=
  savePhotoWith (writePhoto faults plan photo) plan photo encodedCapacity s w

/-- Whether `savePhoto` succeeds, and the card after it. -/
def photoSaved (faults : PrintFaults) (plan : SavePlan) (photo : Photo) (encodedCapacity : Int)
    (s : PhotoStore) (w : CardWorld) : Bool × CardWorld :=
  let r := savePhoto faults plan photo encodedCapacity s w
  (r.1.isSome, r.2.2)

end Printed

/-! ## The texts -/

section

variable (faults : Faults)

theorem printIndex_eq (entries : List PhotoEntry) :
    printIndex faults entries = Out.fputs faults (indexText entries) :=
  fputs_forM faults _ entries

theorem printRecent_succ (i : Nat) (recent : List Int) :
    printRecent faults (i + 1) recent =
      Out.fputs faults (recent.flatMap fun preset => ascii "," ++ (presetAt preset).id) := by
  induction recent generalizing i with
  | nil => rfl
  | cons preset recent ih =>
    rw [printRecent, ih, if_neg (Nat.succ_ne_zero i), fputs_bind, List.flatMap_cons]

/-- The ids behind the first one. -/
theorem intercalate_ids (preset : Int) (recent : List Int) :
    List.intercalate (ascii ",") ((preset :: recent).map fun i => (presetAt i).id) =
      (presetAt preset).id ++ recent.flatMap fun preset => ascii "," ++ (presetAt preset).id := by
  induction recent generalizing preset with
  | nil => simp [List.intercalate]
  | cons next recent ih =>
    have hnext := ih next
    rw [List.map_cons] at hnext
    rw [List.map_cons, List.map_cons, List.intercalate_cons_cons, hnext, List.flatMap_cons,
      List.append_assoc, List.append_assoc]

theorem printRecent_zero (recent : List Int) :
    printRecent faults 0 recent = Out.fputs faults
      (List.intercalate (ascii ",") (recent.map fun i => (presetAt i).id)) := by
  cases recent with
  | nil => rfl
  | cons preset recent =>
    rw [printRecent, printRecent_succ, fputs_bind, intercalate_ids, if_pos rfl, List.nil_append]

theorem printSettings_eq (settings : RuntimeSettings) :
    printSettings faults settings = Out.fputs faults (settingsText settings) := by
  simp only [printSettings, printRecent_zero, fputs_forM, fputc_eq, fputs_bind]
  refine congrArg (Out.fputs faults) ?_
  simp only [settingsText, List.append_assoc]

theorem printEscaped_eq (value : Bytes) :
    printEscaped faults value = Out.fputs faults (jsonEscape value) := by
  simp only [printEscaped, fputs_forM, fputc_eq, fputs_bind]
  rfl

theorem printSidecar_eq (model version : Bytes) (presetIndex intensity : Int)
    (adjustments : Adjustments) (favorite : Bool) (timestampMs : Int64) :
    printSidecar faults model version presetIndex intensity adjustments favorite timestampMs =
      Out.fputs faults (sidecarText model version presetIndex intensity adjustments favorite
        timestampMs) := by
  unfold printSidecar sidecarText
  simp only [printEscaped_eq, fputs_bind]
  generalize (if favorite then ascii "true" else ascii "false") = favoriteText
  simp only [List.append_assoc]

end

/-! ## One file -/

/-- After a success the file is the text, and after a failure it is as before. -/
def WholeText (final : Path) (text : Bytes) (w : CardWorld) (r : Bool × CardWorld) : Prop :=
  (r.1 = true → r.2.card final = some text) ∧ (r.1 = false → r.2.card final = w.card final)

/-- Every call whose result the writer looks at succeeds. -/
def Passes (faults : Faults) (f : FilePlan) (text : Bytes) : Prop :=
  f.fopen.ok = true ∧ (text = [] ∨ faults text.length ≠ some false) ∧ f.synced = true ∧
    f.fclose.ok = true ∧ f.rename.ok = true

variable {faults : Faults} {f : FilePlan} {final : Path} {text : Bytes} {w : CardWorld}
  {s : PhotoStore}

theorem through_prints (faults : Faults) (f : FilePlan) (text : Bytes) :
    (f.through (printed faults (Out.fputs faults text))).prints = true ↔ Passes faults f text := by
  have hok := printed_fst faults text
  generalize printed faults (Out.fputs faults text) = r at hok
  have hflush : (f.through r).fflush.ok = r.1 := by
    unfold FilePlan.through
    cases r.1 <;> rfl
  have hsynced : (f.through r).synced = f.synced := rfl
  have hrest : (f.through r).fopen = f.fopen ∧ (f.through r).fclose = f.fclose ∧
      (f.through r).rename = f.rename := ⟨rfl, rfl, rfl⟩
  simp only [FilePlan.prints, FilePlan.replaces, FilePlan.closes, hflush, hsynced, hrest,
    Bool.and_eq_true, Passes, hok, and_assoc]

theorem ne_temporary (p : Path) : p ≠ p.temporary := by
  intro h
  have hlen := congrArg (fun p : Path => p.name.length) h
  have htmp : (ascii ".tmp").length = 4 := rfl
  simp only [Path.temporary, List.length_append, htmp] at hlen
  omega

theorem replacePrinted_fst (faults : Faults) (f : FilePlan) (final : Path) (text : Bytes)
    (w : CardWorld) :
    (replacePrinted f final (printed faults (Out.fputs faults text)) w).1 = true ↔
      Passes faults f text := by
  rw [← through_prints]
  exact Bool.eq_iff_iff.1 (replaceText_spec _ final _ w).1

/-- **A text save is whole exactly if no forced write fails in it unnoticed.** -/
theorem replacePrinted_whole (faults : Faults) (f : FilePlan) (final : Path) (text : Bytes)
    (w : CardWorld) :
    WholeText final text w
        (replacePrinted f final (printed faults (Out.fputs faults text)) w) ↔
      (Passes faults f text → Unlost faults text) := by
  have hpasses := through_prints faults f text
  obtain ⟨hresult, -, hdone, hfail⟩ := replaceText_spec
    (f.through (printed faults (Out.fputs faults text))) final
    (printed faults (Out.fputs faults text)).2 w
  unfold WholeText replacePrinted
  rw [hresult]
  cases hp : (f.through (printed faults (Out.fputs faults text))).prints with
  | false =>
    refine iff_of_true ⟨fun h => ?_, fun _ => ?_⟩ fun h => ?_
    · cases hp.symm.trans h
    · exact (hfail hp).1.card _ (ne_temporary final)
    · cases hp.symm.trans (hpasses.2 h)
  | true =>
    have hok : (printed faults (Out.fputs faults text)).1 = true :=
      (printed_fst faults text).2 (hpasses.1 hp).2.1
    have hcard := (hdone hp).card
    rw [← printed_snd faults text hok]
    constructor
    · rintro ⟨hwhole, -⟩ -
      have htext := hwhole hp
      rw [hcard, Function.update_self] at htext
      exact Option.some.inj htext
    · intro hwhole
      refine ⟨fun _ => ?_, fun h => ?_⟩
      · rw [hcard, Function.update_self, hwhole (hpasses.1 hp)]
      · cases hp.symm.trans h

/-! ## The sidecar in a save -/

section

variable {n : Bytes} {undo : UnlinkPlan} {plan : SavePlan} {entry : PhotoEntry}

theorem writeJpeg_sidecar (hn : JpgName n) (encoded : Bytes) :
    (writeJpeg f n encoded s w).2.2.card (sidecarPath n) = w.card (sidecarPath n) := by
  have htemp : sidecarPath n ≠ (photoPath n).temporary := fun h =>
    owned_not_temporary hn (sidecar_mem_owned n) (h ▸ temporary_mem _)
  have hphoto : sidecarPath n ≠ photoPath n := (photo_ne_sidecar hn hn).symm
  have hpaths : sidecarPath n ∉ ({(photoPath n).temporary, photoPath n} : Set Path) := by
    rintro (h | h)
    · exact htemp h
    · exact hphoto h
  unfold writeJpeg
  cases ho : f.fopen.ok with
  | false => simp [World.fopen, ho]
  | true =>
    obtain ⟨v, hv, hopen, -⟩ := fopen_spec (o := f.fopen) (p := (photoPath n).temporary) (w := w) ho
    obtain ⟨-, -, hwithin, -, -⟩ := writeAndReplace_spec f encoded hopen
    simp only [hv, Bool.not_true, Bool.false_eq_true, if_false]
    split
    · exact (unlink_other _ htemp _).trans (hwithin.card _ hpaths)
    · exact hwithin.card _ hpaths

theorem writeSidecar_sidecar (f : FilePlan) (undo : UnlinkPlan) (hn : JpgName n) (text : Bytes)
    (s : PhotoStore) (w : CardWorld) :
    (writeSidecar f undo n text s w).1 = f.prints ∧
      (writeSidecar f undo n text s w).2.2.card (sidecarPath n) =
        if f.prints then some text else w.card (sidecarPath n) := by
  have hphoto : sidecarPath n ≠ photoPath n := (photo_ne_sidecar hn hn).symm
  unfold writeSidecar FilePlan.prints
  cases ho : f.fopen.ok with
  | false =>
    have hw : w.fopen f.fopen (sidecarPath n).temporary = (false, w.note f.fopen) := by
      simp [World.fopen, ho]
    simp only [hw, Bool.not_false, if_true, Bool.false_and, Bool.false_eq_true, if_false, true_and]
    exact unlink_other _ hphoto _
  | true =>
    obtain ⟨v, hv, hopen, -⟩ := fopen_spec (o := f.fopen) (p := (sidecarPath n).temporary)
      (w := w) ho
    obtain ⟨hfst, -, hdone, hfail⟩ := closeAndReplace_spec f (sidecarPath n) text v
    simp only [hv, Bool.not_true, Bool.false_eq_true, if_false, hfst, Bool.true_and]
    cases hr : f.replaces with
    | false =>
      simp only [Bool.not_false, if_true, Bool.false_eq_true, if_false, true_and]
      rw [unlink_other _ hphoto, unlink_other _ (ne_temporary _)]
      exact (hopen.trans (hfail hr)).card _ (ne_temporary _)
    | true =>
      simp only [Bool.not_true, Bool.false_eq_true, if_false, if_true, true_and]
      rw [(hdone hr).card, Function.update_self]

theorem writeThumbnail_sidecar (f : FilePlan) (undo : UnlinkPlan) (hn : JpgName n) (frame : Frame)
    (s : PhotoStore) (w : CardWorld) :
    (writeThumbnail f undo n frame s w).1 = f.puts ∧
      (writeThumbnail f undo n frame s w).2.2.card (sidecarPath n) =
        if f.puts = false ∧ undo.sidecar.ok = true then none else w.card (sidecarPath n) := by
  have hphoto : sidecarPath n ≠ photoPath n := (photo_ne_sidecar hn hn).symm
  have htemp : sidecarPath n ≠ (thumbnailPath n).temporary := fun h =>
    owned_not_temporary hn (sidecar_mem_owned n) (h ▸ temporary_mem _)
  have hpaths : sidecarPath n ∉ ({(thumbnailPath n).temporary, thumbnailPath n} : Set Path) := by
    rintro (h | h)
    · exact htemp h
    · exact sidecar_ne_thumbnail hn hn h
  have hundo : ∀ v : CardWorld, v.card (sidecarPath n) = w.card (sidecarPath n) →
      ((v.unlink undo.sidecar (sidecarPath n)).2.unlink undo.photo (photoPath n)).2.card
        (sidecarPath n) = if undo.sidecar.ok = true then none else w.card (sidecarPath n) := by
    intro v hv
    rw [unlink_other _ hphoto, unlink_card_eq]
    split
    · exact Function.update_self ..
    · exact hv
  unfold writeThumbnail FilePlan.puts
  cases ho : f.fopen.ok with
  | false =>
    have hw : w.fopen f.fopen (thumbnailPath n).temporary = (false, w.note f.fopen) := by
      simp [World.fopen, ho]
    simp only [hw, Bool.not_false, if_true, Bool.false_and, true_and]
    exact hundo _ rfl
  | true =>
    obtain ⟨v, hv, hopen, -⟩ := fopen_spec (o := f.fopen) (p := (thumbnailPath n).temporary)
      (w := w) ho
    obtain ⟨hfst, -, hwithin, -, -⟩ := writeAndReplace_spec f frame.bytes hopen
    simp only [hv, Bool.not_true, Bool.false_eq_true, if_false, hfst, Bool.true_and]
    cases hr : (f.fwrite.ok && f.replaces) with
    | false =>
      simp only [Bool.not_false, if_true, true_and]
      exact hundo _ ((unlink_other _ htemp _).trans (hwithin.card _ hpaths))
    | true =>
      simp only [Bool.not_true, Bool.false_eq_true, if_false, true_and, Bool.true_eq_false,
        false_and]
      exact hwithin.card _ hpaths

theorem rollBack_sidecar (hn : JpgName n) :
    (rollBack undo n w).card (sidecarPath n) =
      if undo.sidecar.ok = true then none else w.card (sidecarPath n) := by
  have hphoto : sidecarPath n ≠ photoPath n := (photo_ne_sidecar hn hn).symm
  unfold rollBack
  rw [unlink_other _ hphoto, unlink_card_eq]
  split
  · exact Function.update_self ..
  · exact unlink_other _ (sidecar_ne_thumbnail hn hn) w

/-- The eviction removes the sidecar of the name. -/
def evictsSidecar (plan : SavePlan) (n : Bytes) (s : PhotoStore) : Bool :=
  plan.evict.sidecar.ok && (s.entries.evicted.any fun old => old.filename == n)

theorem removeFiles_sidecar {m : Bytes} (hm : JpgName m) (hn : JpgName n) :
    (removeFiles undo m w).2.card (sidecarPath n) =
      if undo.sidecar.ok = true ∧ m = n then none else w.card (sidecarPath n) := by
  have hphoto : sidecarPath n ≠ photoPath m := (photo_ne_sidecar hm hn).symm
  unfold removeFiles
  rw [unlink_other _ (sidecar_ne_thumbnail hn hm)]
  by_cases hmn : m = n
  · subst hmn
    rw [unlink_card_eq]
    simp only [and_true]
    split
    · exact Function.update_self ..
    · exact unlink_other _ hphoto w
  · have hsidecar : sidecarPath n ≠ sidecarPath m := fun h => hmn (sidecar_injective hn hm h).symm
    rw [unlink_other _ hsidecar, unlink_other _ hphoto, if_neg (fun h => hmn h.2)]

theorem commitIndex_sidecar (faults : Faults) (plan : SavePlan) (hs : Named s)
    (hn : JpgName entry.filename) (w : CardWorld) :
    let later := (plan.index.through (printed faults (printIndex faults
      (s.entries.addEntry entry).list))).prints
    let r := Printed.commitIndex faults plan entry s w
    r.1 = later ∧ r.2.2.card (sidecarPath entry.filename) =
      if (if later then evictsSidecar plan entry.filename s else plan.undo.sidecar.ok) = true
      then none else w.card (sidecarPath entry.filename) := by
  intro later r
  have hindex : sidecarPath entry.filename ≠ indexPath :=
    owned_ne_index hn (sidecar_mem_owned _)
  have htemp : sidecarPath entry.filename ≠ indexPath.temporary := fun h =>
    owned_not_temporary hn (sidecar_mem_owned _) (h ▸ temporary_mem _)
  obtain ⟨hresult, -, hdone, hfail⟩ := replaceText_spec
    (plan.index.through (printed faults (printIndex faults (s.entries.addEntry entry).list)))
    indexPath (printed faults (printIndex faults (s.entries.addEntry entry).list)).2 w
  have hfst : (Printed.saveIndex faults plan.index
      { s with entries := s.entries.addEntry entry, writeStage := .index } w).1 = later := hresult
  unfold r Printed.commitIndex commitIndexWith
  simp only [hfst]
  cases hp : later with
  | false =>
    simp only [Bool.not_false, if_true, Bool.false_eq_true, if_false, true_and]
    rw [rollBack_sidecar hn]
    exact congrArg (ite _ none) ((hfail hp).1.card _ htemp)
  | true =>
    have hcard := (hdone hp).card_of hindex htemp
    simp only [Bool.not_true, Bool.false_eq_true, if_false, if_true, true_and]
    cases hev : s.entries.evicted with
    | none =>
      rw [if_neg (by simp [evictsSidecar, hev])]
      exact hcard
    | some old =>
      have hcond : (evictsSidecar plan entry.filename s = true) =
          (plan.evict.sidecar.ok = true ∧ old.filename = entry.filename) := by
        simp [evictsSidecar, hev]
      simp only [hcond]
      rw [removeFiles_sidecar (hs old (evicted_mem hev)) hn]
      exact congrArg (ite _ none) hcard

variable {faults : PrintFaults} {photo : Photo}

/-- The thumbnail and the index are put in place too. -/
def finishes (faults : PrintFaults) (plan : SavePlan) (photo : Photo) (s : PhotoStore) : Bool :=
  plan.thumbnail.puts && (plan.index.through (printed faults.index (printIndex faults.index
    (s.entries.addEntry (photo.entry plan.wall)).list))).prints

/-- What the prints of the sidecar come to. -/
def sidecarPrinted (faults : PrintFaults) (photo : Photo) (s : PhotoStore) : Bool × Bytes :=
  printed faults.sidecar (Out.fputs faults.sidecar (photo.manifest s))

theorem sidecarPrinted_prints :
    (plan.sidecar.through (sidecarPrinted faults photo s)).prints = true ↔
      Passes faults.sidecar plan.sidecar (photo.manifest s) :=
  through_prints ..

theorem sidecarPrinted_snd (h : Passes faults.sidecar plan.sidecar (photo.manifest s)) :
    (sidecarPrinted faults photo s).2 = photo.manifest s ↔
      Unlost faults.sidecar (photo.manifest s) :=
  printed_snd _ _ ((printed_fst _ _).2 h.2.1)

theorem writeSidecar_printed {s' : PhotoStore} (hsame : SameStore s s') :
    Printed.writeSidecar faults.sidecar f undo photo n s' w =
      writeSidecar (f.through (sidecarPrinted faults photo s)) undo n
        (sidecarPrinted faults photo s).2 s' w := by
  unfold Printed.writeSidecar
  rw [printSidecar_eq, hsame.model, hsame.version]
  rfl

/-- The four steps, seen at the sidecar. -/
theorem writePhoto_sidecar (faults : PrintFaults) (plan : SavePlan) (photo : Photo) (hs : Named s)
    (encoded : Bytes) (w : CardWorld) :
    let n := photo.filename plan.wall
    let r := Printed.writePhoto faults plan photo encoded s w
    let placed := plan.jpeg.puts && (plan.sidecar.through (sidecarPrinted faults photo s)).prints
    r.1 = (placed && finishes faults plan photo s) ∧ r.2.2.card (sidecarPath n) =
      if placed = false then w.card (sidecarPath n)
      else if (if finishes faults plan photo s then evictsSidecar plan n s
        else plan.undo.sidecar.ok) = true then none
      else some (sidecarPrinted faults photo s).2 := by
  intro n r placed
  have hn : JpgName n := jpgName_filename plan.wall photo
  have hname : (photo.entry plan.wall).filename = n := entry_filename ..
  unfold r Printed.writePhoto writePhotoWith
  dsimp only
  rw [hname]
  have hjpeg := writeJpeg_spec (f := plan.jpeg) (n := n) (s := s) (w := w) encoded
  have hjpeg' := writeJpeg_sidecar (f := plan.jpeg) (s := s) (w := w) hn encoded
  generalize writeJpeg plan.jpeg n encoded s w = rj at hjpeg hjpeg'
  have hrj : rj.1 = plan.jpeg.puts := hjpeg.result
  cases hputs : plan.jpeg.puts with
  | false =>
    rw [hputs] at hrj
    simp [hrj, placed, hputs, hjpeg']
  | true =>
    rw [hputs] at hrj
    simp only [hrj, Bool.not_true, Bool.false_eq_true, if_false]
    rw [writeSidecar_printed hjpeg.same]
    have hsidecar := writeSidecar_spec (f := plan.sidecar.through (sidecarPrinted faults photo s))
      (n := n) (s := rj.2.1) (w := rj.2.2) plan.undo (sidecarPrinted faults photo s).2
    obtain ⟨hrs, hcs⟩ := writeSidecar_sidecar (plan.sidecar.through (sidecarPrinted faults photo s))
      plan.undo hn (sidecarPrinted faults photo s).2 rj.2.1 rj.2.2
    generalize writeSidecar (plan.sidecar.through (sidecarPrinted faults photo s)) plan.undo n
      (sidecarPrinted faults photo s).2 rj.2.1 rj.2.2 = rs at hsidecar hrs hcs
    have hplaced : placed = (plan.sidecar.through (sidecarPrinted faults photo s)).prints := by
      simp only [placed, hputs, Bool.true_and]
    cases hprints : (plan.sidecar.through (sidecarPrinted faults photo s)).prints with
    | false =>
      rw [hprints] at hrs hcs hplaced
      simp only [hrs, hplaced, Bool.not_false, if_true, Bool.false_and, true_and]
      exact hcs.trans hjpeg'
    | true =>
      rw [hprints] at hrs hcs hplaced
      simp only [hrs, hplaced, Bool.not_true, Bool.false_eq_true, if_false, Bool.true_and,
        Bool.true_eq_false]
      have hthumb := writeThumbnail_spec (f := plan.thumbnail) (n := n) (s := rs.2.1)
        (w := rs.2.2) plan.undo photo.frame
      obtain ⟨hrt, hct⟩ := writeThumbnail_sidecar plan.thumbnail plan.undo hn photo.frame rs.2.1
        rs.2.2
      generalize writeThumbnail plan.thumbnail plan.undo n photo.frame rs.2.1 rs.2.2 = rt
        at hthumb hrt hct
      rw [hcs, if_pos rfl] at hct
      cases hthumbnail : plan.thumbnail.puts with
      | false =>
        rw [hthumbnail] at hrt hct
        have hfinishes : finishes faults plan photo s = false := by
          simp only [finishes, hthumbnail, Bool.false_and]
        simp only [hrt, hfinishes, Bool.not_false, if_true, true_and, Bool.false_eq_true, if_false]
        simpa only [true_and] using hct
      | true =>
        rw [hthumbnail] at hrt hct
        have hentries : rt.2.1.entries = s.entries :=
          ((hjpeg.same.trans hsidecar.same).trans hthumb.same).entries
        simp only [hrt, Bool.not_true, Bool.false_eq_true, if_false]
        have hnamed : Named rt.2.1 := fun e he => hs e (hentries ▸ he)
        have hentry : JpgName (photo.entry plan.wall).filename := hname ▸ hn
        obtain ⟨hrc, hcc⟩ := commitIndex_sidecar faults.index plan hnamed hentry rt.2.2
        rw [if_neg (by simp)] at hct
        rw [hname, hct] at hcc
        rw [hentries] at hrc hcc
        have hlater : finishes faults plan photo s = (plan.index.through (printed faults.index
            (printIndex faults.index (s.entries.addEntry (photo.entry plan.wall)).list))).prints := by
          simp only [finishes, hthumbnail, Bool.true_and]
        have hevicts : evictsSidecar plan n rt.2.1 = evictsSidecar plan n s := by
          simp only [evictsSidecar, hentries]
        rw [hlater, ← hevicts]
        exact ⟨hrc, hcc⟩

/-- What a save that gets past the sidecar makes of it. -/
structure SidecarWhole (faults : PrintFaults) (plan : SavePlan) (photo : Photo) (s : PhotoStore)
    (w : CardWorld) : Prop where
  /-- If the save goes through, all of the text is in the file, and the eviction lets it be. -/
  stored : finishes faults plan photo s = true →
    Unlost faults.sidecar (photo.manifest s) ∧
      evictsSidecar plan (photo.filename plan.wall) s = false
  /-- If it is undone, what was there before is there again. -/
  undone : finishes faults plan photo s = false →
    w.card (sidecarPath (photo.filename plan.wall)) =
      if plan.undo.sidecar.ok then none else some (sidecarPrinted faults photo s).2

/-- A save in which the sidecar is put in place. -/
theorem sidecarWhole_iff {r : Bool × CardWorld}
    (hpass : Passes faults.sidecar plan.sidecar (photo.manifest s))
    (hfst : r.1 = finishes faults plan photo s)
    (hcard : r.2.card (sidecarPath (photo.filename plan.wall)) =
      if (if finishes faults plan photo s then evictsSidecar plan (photo.filename plan.wall) s
        else plan.undo.sidecar.ok) = true then none
      else some (sidecarPrinted faults photo s).2) :
    WholeText (sidecarPath (photo.filename plan.wall)) (photo.manifest s) w r ↔
      SidecarWhole faults plan photo s w := by
  have hwhole := sidecarPrinted_snd hpass
  unfold WholeText
  rw [hfst, hcard]
  cases hfin : finishes faults plan photo s with
  | false =>
    simp only [Bool.false_eq_true, if_false, false_imp_iff, true_and, true_imp_iff]
    refine ⟨fun h => ⟨fun h' => ?_, fun _ => h.symm⟩, fun h => (h.undone hfin).symm⟩
    cases hfin.symm.trans h'
  | true =>
    simp only [if_true, true_imp_iff, Bool.true_eq_false, false_imp_iff, and_true]
    constructor
    · intro h
      refine ⟨fun _ => ?_, fun h' => by cases hfin.symm.trans h'⟩
      cases hev : evictsSidecar plan (photo.filename plan.wall) s with
      | true =>
        rw [hev, if_pos rfl] at h
        cases h
      | false =>
        rw [hev, if_neg (by simp)] at h
        exact ⟨hwhole.1 (Option.some.inj h), rfl⟩
    · intro h
      obtain ⟨hall, hev⟩ := h.stored hfin
      rw [hev, if_neg (by simp), hwhole.2 hall]

/-- **A save's sidecar is whole** exactly if the save stops before it, or makes it whole. -/
theorem savePhoto_whole (hs : Named s) (faults : PrintFaults) (plan : SavePlan) (photo : Photo)
    (encodedCapacity : Int) (w : CardWorld) :
    WholeText (sidecarPath (photo.filename plan.wall)) (photo.manifest s) w
        (Printed.photoSaved faults plan photo encodedCapacity s w) ↔
      (encodePhoto plan photo encodedCapacity s ≠ none → plan.jpeg.puts = true →
        Passes faults.sidecar plan.sidecar (photo.manifest s) →
        SidecarWhole faults plan photo s w) := by
  have hcongr : encodePhoto plan photo encodedCapacity
      { s with writeStage := .encode, lastError := 0 } =
        encodePhoto plan photo encodedCapacity s := rfl
  unfold Printed.photoSaved Printed.savePhoto savePhotoWith
  simp only [hcongr]
  cases henc : encodePhoto plan photo encodedCapacity s with
  | none =>
    refine iff_of_true ?_ fun h => absurd rfl h
    dsimp only
    split <;> exact ⟨nofun, fun _ => rfl⟩
  | some encoded =>
    have hstart : Named { s with writeStage := .encode, lastError := 0 } := hs
    obtain ⟨hfst, hcard⟩ := writePhoto_sidecar faults plan photo hstart encoded w
    dsimp only at hfst hcard ⊢
    generalize Printed.writePhoto faults plan photo encoded
      { s with writeStage := .encode, lastError := 0 } w = r at hfst hcard ⊢
    have hsome : (if r.1 then some encoded.length else none).isSome = r.1 := by cases r.1 <;> rfl
    rw [hsome]
    cases hplaced : plan.jpeg.puts &&
        (plan.sidecar.through (sidecarPrinted faults photo s)).prints with
    | false =>
      have hfst : r.1 = false := hfst.trans (congrArg (· && _) hplaced)
      have hcard := hcard.trans (if_pos hplaced)
      refine iff_of_true ⟨fun h => absurd h (by simp [hfst]), fun _ => hcard⟩ fun _ hputs hpass => ?_
      rw [hputs, sidecarPrinted_prints.2 hpass] at hplaced
      cases hplaced
    | true =>
      have hfst : r.1 = finishes faults plan photo s := hfst.trans (congrArg (· && _) hplaced)
      have hcard := hcard.trans (if_neg (by
        rw [Bool.not_eq_false]
        exact hplaced))
      rw [Bool.and_eq_true] at hplaced
      have hpass := sidecarPrinted_prints.1 hplaced.2
      have hiff := sidecarWhole_iff (w := w) (r := (r.1, r.2.2)) hpass hfst hcard
      exact hiff.trans ⟨fun h _ _ _ => h, fun h => h (by simp) hplaced.1 hpass⟩

end

/-! ## The three writers -/

/-- **Reported text saves are complete saves exactly where no write that a print forces fails in a
save that goes through**; a save's sidecar must also outlive the eviction, and leave what was
there if the save is undone. -/
theorem text_saves_whole_iff (hs : Named s) (faults : Faults) (f : FilePlan)
    (settings : RuntimeSettings) (both : PrintFaults) (plan : SavePlan) (photo : Photo)
    (encodedCapacity : Int) (w : CardWorld) :
    (WholeText indexPath (indexText s.entries.list) w (Printed.saveIndex faults f s w) ↔
        (Passes faults f (indexText s.entries.list) → Unlost faults (indexText s.entries.list))) ∧
      (WholeText settingsPath (settingsText settings) w
          (Printed.saveSettings faults f settings w) ↔
        (Passes faults f (settingsText settings) → Unlost faults (settingsText settings))) ∧
      (WholeText (sidecarPath (photo.filename plan.wall)) (photo.manifest s) w
          (Printed.photoSaved both plan photo encodedCapacity s w) ↔
        (encodePhoto plan photo encodedCapacity s ≠ none → plan.jpeg.puts = true →
          Passes both.sidecar plan.sidecar (photo.manifest s) →
          SidecarWhole both plan photo s w)) := by
  refine ⟨?_, ?_, savePhoto_whole hs both plan photo encodedCapacity w⟩
  · unfold Printed.saveIndex
    rw [printIndex_eq]
    exact replacePrinted_whole ..
  · unfold Printed.saveSettings
    rw [printSettings_eq]
    exact replacePrinted_whole ..

/-- Without failures all three are whole. -/
theorem text_saves_whole_sample :
    WholeText indexPath (indexText sampleStore.entries.list) { card := sampleCard }
        (Printed.saveIndex (fun _ => none) {} sampleStore { card := sampleCard }) ∧
      WholeText settingsPath (settingsText {}) { card := sampleCard }
        (Printed.saveSettings (fun _ => none) {} {} { card := sampleCard }) ∧
      WholeText (sidecarPath (samplePhoto.filename sampleWall)) (samplePhoto.manifest sampleStore)
        { card := sampleCard }
        (Printed.photoSaved {} samplePlan samplePhoto 4096 sampleStore { card := sampleCard }) := by
  obtain ⟨hindex, hsettings, hphoto⟩ := text_saves_whole_iff sample_named (fun _ => none) {} {} {}
    samplePlan samplePhoto 4096 { card := sampleCard }
  have hunlost : ∀ text, Unlost (fun _ => none) text := fun _ _ _ _ => nofun
  refine ⟨hindex.2 fun _ => hunlost _, hsettings.2 fun _ => hunlost _, hphoto.2 fun _ _ _ => ?_⟩
  have hfinishes : finishes {} samplePlan samplePhoto sampleStore = true ∧
      evictsSidecar samplePlan (samplePhoto.filename sampleWall) sampleStore = false := by
    decide +kernel
  exact ⟨fun _ => ⟨hunlost _, hfinishes.2⟩, fun h => by cases hfinishes.1.symm.trans h⟩

/-- A full index. -/
def fullIndex : List PhotoEntry :=
  (List.range kMaxPhotoEntries).map fun i =>
    { timestampMs := .ofNat i, presetIndex := 0, favorite := false
      filename := ascii "20260601_123045_" ++ padded 3 i ++ ascii "_olive_pocket_preview.jpg" }

def fullStore : PhotoStore :=
  { sampleStore with entries := ⟨fullIndex, by decide +kernel⟩ }

/-- The first write of a buffer of 1024 bytes fails. -/
def firstWriteFails : Faults := fun i => if i = 1024 then some false else none

/-- The index is more than one buffer long: its first 1024 bytes are lost, and the save is
reported as done. -/
theorem full_index_torn :
    (Printed.saveIndex firstWriteFails {} fullStore { card := sampleCard }).1 = true ∧
      ¬ WholeText indexPath (indexText fullStore.entries.list) { card := sampleCard }
        (Printed.saveIndex firstWriteFails {} fullStore { card := sampleCard }) := by
  have hlong : 1024 < (indexText fullStore.entries.list).length := by decide +kernel
  have hpasses : Passes firstWriteFails {} (indexText fullStore.entries.list) := by
    refine ⟨rfl, .inr ?_, rfl, rfl, rfl⟩
    unfold firstWriteFails
    rw [if_neg (by omega)]
    exact nofun
  unfold Printed.saveIndex
  rw [printIndex_eq]
  refine ⟨(replacePrinted_fst ..).2 hpasses, fun h => ?_⟩
  exact (replacePrinted_whole ..).1 h hpasses 1024 (by decide) hlong rfl

end RetroLens.Store
