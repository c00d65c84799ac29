import RetroLens.Store.Atomic

/-!
# What a failed save reports

`savePhoto` leaves the step it reached in `writeStage` and an `errno` in
`lastError`. A `FileCall` is one call of a file's plan, and `OneFailure` a plan
in which one call of one step fails and every other call of the four steps
succeeds, whatever it leaves in `errno`.
-/

namespace RetroLens.Store

open Text Disk RetroLens.Core

/-! ## One call of one step -/

inductive FileCall where
  | fopen | fwrite | fflush | fsync | fclose | rename | directory | discard | cleanup
  deriving DecidableEq, Repr

def FilePlan.outcome (f : FilePlan) : FileCall → Outcome
  | .fopen => f.fopen
  | .fwrite => f.fwrite
  | .fflush => f.fflush
  | .fsync => f.fsync
  | .fclose => f.fclose
  | .rename => f.rename
  | .directory => f.directory
  | .discard => f.discard
  | .cleanup => f.cleanup

/-- The calls that decide whether the file is written. -/
def FileCall.decides : FileCall → Bool
  | .directory | .discard | .cleanup => false
  | _ => true

/-- The steps of a save that write a file. -/
inductive WriteStep where
  | jpeg | sidecar | thumbnail | index
  deriving DecidableEq, Repr

def WriteStep.stage : WriteStep → PhotoWriteStage
  | .jpeg => .jpeg
  | .sidecar => .sidecar
  | .thumbnail => .thumbnail
  | .index => .index

def SavePlan.file (plan : SavePlan) : WriteStep → FilePlan
  | .jpeg => plan.jpeg
  | .sidecar => plan.sidecar
  | .thumbnail => plan.thumbnail
  | .index => plan.index

/-- The sidecar and the index are printed, with no `fwrite`. -/
def WriteStep.makes (step : WriteStep) (call : FileCall) : Bool :=
  call.decides && (call != .fwrite || step == .jpeg || step == .thumbnail)

/-- Of one file's calls `call` fails with `e`, and the others succeed. -/
structure FilePlan.Only (f : FilePlan) (call : FileCall) (e : Int) : Prop where
  fails : f.outcome call = .fails e
  others : ∀ c ≠ call, (f.outcome c).ok = true
  /-- A tolerated `fsync` is no failure. -/
  strict : call = .fsync → syncTolerated e = false

/-- Of the calls of the four steps, one that `step` makes fails, with `e`. -/
structure OneFailure (plan : SavePlan) (step : WriteStep) (call : FileCall) (e : Int) : Prop where
  nonzero : e ≠ 0
  makes : step.makes call = true
  only : (plan.file step).Only call e
  others : ∀ other ≠ step, ∀ c, ((plan.file other).outcome c).ok = true

/-- The call fails, and reports the step and its error. -/
structure Diagnosed (plan : SavePlan) (photo : Photo) (encodedCapacity : Int) (step : WriteStep)
    (e : Int) (s : PhotoStore) (w : CardWorld) : Prop where
  result : (savePhoto plan photo encodedCapacity s w).1 = none
  writeStage : (savePhoto plan photo encodedCapacity s w).2.1.writeStage = step.stage
  lastError : (savePhoto plan photo encodedCapacity s w).2.1.lastError = e

/-! ## What is left in errno -/

/-- `errno` after the calls with which `flushAndClose` and `atomicReplace` follow a
`call` that failed with `e`. -/
def FilePlan.left (f : FilePlan) (e : Int) : FileCall → Int
  | .fflush | .fsync => f.fclose.after e
  | .rename => f.discard.after e
  | _ => e

/-- `errno` once `saveIndex` has unlinked the file that it could not close. -/
def FilePlan.leftBySaveIndex (f : FilePlan) (e : Int) : FileCall → Int
  | .fflush | .fsync => f.cleanup.after (f.fclose.after e)
  | .fclose => f.cleanup.after e
  | call => f.left e call

/-- The failed step reads `errno` at all, and finds `e` in it. -/
def Recorded (plan : SavePlan) (e : Int) (call : FileCall) : WriteStep → Prop
  | .jpeg => plan.jpeg.left e call = e
  | .sidecar | .thumbnail => call = .fopen
  | .index => plan.index.leftBySaveIndex e call = e

variable {f : FilePlan} {call : FileCall} {e : Int} {p final : Path} {data : Bytes}
  {s : PhotoStore} {w : CardWorld}

@[simp] theorem after_fails (errno : Int) : (Outcome.fails e).after errno = e := rfl

theorem unlink_errno {o : Outcome} (h : w.card p = some data) :
    (w.unlink o p).2.errno = o.after w.errno := by
  unfold World.unlink
  rw [h]
  cases hok : o.ok <;> simp [World.note, World.put, World.become]

theorem flushAndClose_errno (f : FilePlan) (p : Path) (data : Bytes) (w : CardWorld) :
    (flushAndClose f p data w).2.errno =
      f.fclose.after (if f.fflush.ok then f.fsync.after (f.fflush.after w.errno)
        else f.fflush.after w.errno) := by
  cases h : f.fflush.ok <;>
    simp [flushAndClose, World.fflush, World.fclose, World.note, World.put, World.become, h]

theorem synced_of_ok (h : f.fsync.ok = true) : f.synced = true := by
  unfold FilePlan.synced
  cases ho : f.fsync with
  | done _ => rfl
  | fails _ => simp [ho] at h

/-- A call of `flushAndClose`. -/
def FileCall.closes : FileCall → Bool
  | .fflush | .fsync | .fclose => true
  | _ => false

namespace FilePlan.Only

/-- A file that another call fails is still closed. -/
theorem closes (h : f.Only call e) : f.closes = !call.closes := by
  cases hc : call.closes with
  | false =>
    have hflush : f.fflush.ok = true := h.others .fflush (by rintro rfl; cases hc)
    have hclose : f.fclose.ok = true := h.others .fclose (by rintro rfl; cases hc)
    have hsync : f.fsync.ok = true := h.others .fsync (by rintro rfl; cases hc)
    simp [FilePlan.closes, hflush, synced_of_ok hsync, hclose]
  | true =>
    have hf := h.fails
    cases call <;> cases hc
    · simp [FilePlan.closes, show f.fflush = .fails e from hf]
    · simp [FilePlan.closes, FilePlan.synced, show f.fsync = .fails e from hf, h.strict rfl]
    · simp [FilePlan.closes, show f.fclose = .fails e from hf]

theorem flushAndClose_left (h : f.Only call e) (hc : call.closes = true) :
    (flushAndClose f p data w).2.errno = f.left e call := by
  have hf := h.fails
  rw [flushAndClose_errno]
  cases call <;> cases hc
  · simp [show f.fflush = .fails e from hf, FilePlan.left]
  · have hflush : f.fflush.ok = true := h.others .fflush (by decide)
    simp [hflush, show f.fsync = .fails e from hf, FilePlan.left]
  · simp [show f.fclose = .fails e from hf, FilePlan.left]

/-- A rename fails with the temporary file in place. -/
theorem atomicReplace_left (h : f.Only .rename e) (hsrc : w.card final.temporary = some data) :
    (atomicReplace f final.temporary final w).1 = false ∧
      (atomicReplace f final.temporary final w).2.errno = f.left e .rename := by
  have hf : f.rename = .fails e := h.fails
  have hw : w.rename f.rename final.temporary final = (false, w.note f.rename) := by
    simp [World.rename, hsrc, hf]
  refine ⟨by simp [atomicReplace, hw], ?_⟩
  simp only [atomicReplace, hw, Bool.false_eq_true, if_false]
  rw [unlink_errno (w := w.note f.rename) hsrc]
  simp [World.note, hf, FilePlan.left]

/-- What the temporary file holds when `flushAndClose` is through with it. -/
theorem flushed (f : FilePlan) (p : Path) (data : Bytes) (w : CardWorld) :
    (flushAndClose f p data w).2.card p = some (if f.fflush.ok then data else f.torn) := by
  rw [(flushAndClose_spec f p data w).2.2.2, Function.update_self]

theorem closeAndReplace_left (h : f.Only call e) (hc : call.closes = true ∨ call = .rename)
    (final : Path) (data : Bytes) (w : CardWorld) :
    (closeAndReplace f final data w).1 = false ∧
      (closeAndReplace f final data w).2.errno = f.left e call := by
  have hcloses := (flushAndClose_spec f final.temporary data w).1.trans h.closes
  unfold closeAndReplace
  rcases hc with hc | rfl
  · simp only [hcloses, hc, Bool.not_true, Bool.not_false, if_true]
    exact ⟨trivial, h.flushAndClose_left hc⟩
  · simp only [hcloses, FileCall.closes, Bool.not_false, Bool.not_true, Bool.false_eq_true,
      if_false]
    exact h.atomicReplace_left (flushed f _ data w)

theorem writeAndReplace_left (h : f.Only call e) (hd : call.decides = true) (ho : call ≠ .fopen)
    (final : Path) (data : Bytes) (w : CardWorld) :
    (writeAndReplace f final data w).1 = false ∧
      (writeAndReplace f final data w).2.errno = f.left e call := by
  have hf := h.fails
  unfold writeAndReplace
  by_cases hw : call = .fwrite
  · subst hw
    simp [show f.fwrite = .fails e from hf, World.note, FilePlan.left]
  · have hwrite : f.fwrite.ok = true := h.others .fwrite (Ne.symm hw)
    have hc : call.closes = true ∨ call = .rename := by
      cases call <;> simp_all [FileCall.decides, FileCall.closes]
    simpa [hwrite] using h.closeAndReplace_left hc final data w

end FilePlan.Only

@[simp] theorem fopen_fst {o : Outcome} : (w.fopen o p).1 = o.ok := by
  unfold World.fopen
  cases o.ok <;> rfl

@[simp] theorem fopen_errno {o : Outcome} : (w.fopen o p).2.errno = o.after w.errno := by
  unfold World.fopen
  cases o.ok <;> rfl

/-- The index's file, which `saveIndex` unlinks again where it cannot close it. -/
theorem FilePlan.Only.replaceText_left (h : f.Only call e)
    (hm : WriteStep.index.makes call = true) (final : Path) (data : Bytes) (w : CardWorld) :
    (replaceText f final data w).1 = false ∧
      (replaceText f final data w).2.errno = f.leftBySaveIndex e call := by
  have hf := h.fails
  unfold replaceText
  by_cases ho : call = .fopen
  · subst ho
    have hf : f.fopen = .fails e := hf
    simp [hf, FilePlan.leftBySaveIndex, FilePlan.left]
  have hok : f.fopen.ok = true := h.others .fopen (Ne.symm ho)
  have hcloses :=
    (flushAndClose_spec f final.temporary data (w.fopen f.fopen final.temporary).2).1.trans h.closes
  simp only [fopen_fst, hok, Bool.not_true, Bool.false_eq_true, if_false, hcloses]
  have hsrc := FilePlan.Only.flushed f final.temporary data (w.fopen f.fopen final.temporary).2
  cases hc : call.closes with
  | true =>
    simp only [Bool.not_true, Bool.not_false, if_true]
    refine ⟨trivial, ?_⟩
    rw [unlink_errno hsrc, h.flushAndClose_left hc]
    cases call <;> cases hc <;> rfl
  | false =>
    simp only [Bool.not_false, Bool.not_true, Bool.false_eq_true, if_false]
    have hren : call = .rename := by
      cases call <;> simp_all [WriteStep.makes, FileCall.decides, FileCall.closes]
    subst hren
    exact h.atomicReplace_left hsrc

/-! ## The four steps -/

/-- A step that fails at `stage` with `err` in `lastError`. -/
structure Reports (stage : PhotoWriteStage) (err : Int) (r : Bool × PhotoStore × CardWorld) :
    Prop where
  result : r.1 = false
  writeStage : r.2.1.writeStage = stage
  lastError : r.2.1.lastError = err

variable {n text encoded : Bytes} {undo : UnlinkPlan} {frame : Frame}

theorem writeJpeg_reports (h : f.Only call e) (hd : call.decides = true) :
    Reports .jpeg (f.left e call) (writeJpeg f n encoded s w) := by
  unfold writeJpeg
  by_cases ho : call = .fopen
  · subst ho
    have hf : f.fopen = .fails e := h.fails
    constructor <;> simp [hf, FilePlan.left]
  · have hok : f.fopen.ok = true := h.others .fopen (Ne.symm ho)
    obtain ⟨hfst, herr⟩ := h.writeAndReplace_left hd ho (photoPath n) encoded
      (w.fopen f.fopen (photoPath n).temporary).2
    constructor <;> simp [hok, hfst, herr]

theorem writeSidecar_reports (h : f.Only call e) (hm : WriteStep.sidecar.makes call = true) :
    Reports .sidecar (if call = .fopen then e else s.lastError)
      (writeSidecar f undo n text s w) := by
  unfold writeSidecar
  by_cases ho : call = .fopen
  · subst ho
    have hf : f.fopen = .fails e := h.fails
    constructor <;> simp [hf]
  · have hok : f.fopen.ok = true := h.others .fopen (Ne.symm ho)
    have hc : call.closes = true ∨ call = .rename := by
      cases call <;> simp_all [WriteStep.makes, FileCall.decides, FileCall.closes]
    have hfst := (h.closeAndReplace_left hc (sidecarPath n) text
      (w.fopen f.fopen (sidecarPath n).temporary).2).1
    constructor <;> simp [hok, hfst, ho]

theorem writeThumbnail_reports (h : f.Only call e) (hd : call.decides = true) :
    Reports .thumbnail (if call = .fopen then e else s.lastError)
      (writeThumbnail f undo n frame s w) := by
  unfold writeThumbnail
  by_cases ho : call = .fopen
  · subst ho
    have hf : f.fopen = .fails e := h.fails
    constructor <;> simp [hf]
  · have hok : f.fopen.ok = true := h.others .fopen (Ne.symm ho)
    have hfst := (h.writeAndReplace_left hd ho (thumbnailPath n) frame.bytes
      (w.fopen f.fopen (thumbnailPath n).temporary).2).1
    constructor <;> simp [hok, hfst, ho]

theorem commitIndex_reports {plan : SavePlan} {entry : PhotoEntry}
    (h : plan.index.Only call e) (hm : WriteStep.index.makes call = true) :
    Reports .index (plan.index.leftBySaveIndex e call) (commitIndex plan entry s w) := by
  obtain ⟨hfst, herr⟩ := h.replaceText_left hm indexPath
    (indexText (s.entries.addEntry entry).list) w
  constructor <;> simp [commitIndex, commitIndexWith, saveIndex, hfst, herr]

/-! ## The steps before the one that fails -/

/-- Every call of the file succeeds. -/
def FilePlan.Succeeds (f : FilePlan) : Prop := ∀ c, (f.outcome c).ok = true

theorem FilePlan.Succeeds.writes (h : f.Succeeds) :
    f.fopen.ok = true ∧ f.fwrite.ok = true ∧ f.replaces = true := by
  refine ⟨h .fopen, h .fwrite, ?_⟩
  have hflush : f.fflush.ok = true := h .fflush
  have hclose : f.fclose.ok = true := h .fclose
  have hrename : f.rename.ok = true := h .rename
  have hsynced : f.synced = true := synced_of_ok (h .fsync)
  simp [FilePlan.replaces, FilePlan.closes, hflush, hsynced, hclose, hrename]

/-- A step that is through has left `lastError` alone. -/
structure Through (s : PhotoStore) (r : Bool × PhotoStore × CardWorld) : Prop where
  result : r.1 = true
  lastError : r.2.1.lastError = s.lastError

theorem writeJpeg_through (h : f.Succeeds) : Through s (writeJpeg f n encoded s w) := by
  obtain ⟨ho, hw, hr⟩ := h.writes
  have hresult := (writeJpeg_spec (f := f) (n := n) (s := s) (w := w) encoded).result
  refine ⟨by simp [hresult, ho, hw, hr], ?_⟩
  simp only [ho, hw, hr, Bool.and_self] at hresult
  unfold writeJpeg at hresult ⊢
  dsimp only at hresult ⊢
  rw [fopen_fst, ho] at hresult ⊢
  simp only [Bool.not_true, Bool.false_eq_true, if_false] at hresult ⊢
  split at hresult
  · cases hresult
  · rename_i hdone
    rw [if_neg hdone]

theorem writeSidecar_through (h : f.Succeeds) : Through s (writeSidecar f undo n text s w) := by
  obtain ⟨ho, -, hr⟩ := h.writes
  have hresult := (writeSidecar_spec (f := f) (n := n) (s := s) (w := w) undo text).result
  refine ⟨by simp [hresult, ho, hr], ?_⟩
  unfold writeSidecar
  dsimp only
  rw [fopen_fst, ho]
  simp only [Bool.not_true, Bool.false_eq_true, if_false]
  split <;> rfl

theorem writeThumbnail_through (h : f.Succeeds) :
    Through s (writeThumbnail f undo n frame s w) := by
  obtain ⟨ho, hw, hr⟩ := h.writes
  have hresult := (writeThumbnail_spec (f := f) (n := n) (s := s) (w := w) undo frame).result
  refine ⟨by simp [hresult, ho, hw, hr], ?_⟩
  unfold writeThumbnail
  dsimp only
  rw [fopen_fst, ho]
  simp only [Bool.not_true, Bool.false_eq_true, if_false]
  split <;> rfl

variable {plan : SavePlan} {photo : Photo} {encodedCapacity : Int} {step : WriteStep}

/-- A step that fails ends the save. -/
theorem Reports.stops {stage : PhotoWriteStage} {r : Bool × PhotoStore × CardWorld}
    (h : Reports stage e r) (next : Bool × PhotoStore × CardWorld) :
    Reports stage e (if !r.1 then r else next) := by
  rwa [h.result, Bool.not_false, if_pos rfl]

theorem Through.goes {r : Bool × PhotoStore × CardWorld} (h : Through s r)
    (next : Bool × PhotoStore × CardWorld) : (if !r.1 then r else next) = next := by
  rw [h.result, Bool.not_true, if_neg Bool.false_ne_true]

/-- The steps before the one that fails are done, and those after it are not begun. -/
theorem writePhoto_reports (h : OneFailure plan step call e) (hs : s.lastError = 0) :
    ∃ err, Reports step.stage err (writePhoto plan photo encoded s w) ∧
      (err = e ↔ Recorded plan e call step) := by
  have hd : call.decides = true := (Bool.and_eq_true _ _ ▸ h.makes).1
  have hopens : (if call = .fopen then e else 0) = e ↔ call = .fopen := by
    by_cases ho : call = .fopen
    · simp [ho]
    · simpa [ho] using h.nonzero.symm
  unfold writePhoto writePhotoWith
  dsimp only
  by_cases hj : step = .jpeg
  · subst hj
    exact ⟨_, (writeJpeg_reports h.only hd).stops _, Iff.rfl⟩
  have hjpeg : Through s (writeJpeg plan.jpeg (photo.entry plan.wall).filename encoded s w) :=
    writeJpeg_through (h.others .jpeg (Ne.symm hj))
  rw [hjpeg.goes]
  generalize writeJpeg plan.jpeg (photo.entry plan.wall).filename encoded s w = r at hjpeg ⊢
  by_cases hc : step = .sidecar
  · subst hc
    refine ⟨_, (writeSidecar_reports h.only h.makes).stops _, ?_⟩
    rw [hjpeg.lastError, hs]
    exact hopens
  have hside : Through r.2.1 (writeSidecar plan.sidecar plan.undo
      (photo.entry plan.wall).filename (photo.manifest s) r.2.1 r.2.2) :=
    writeSidecar_through (h.others .sidecar (Ne.symm hc))
  rw [hside.goes]
  generalize writeSidecar plan.sidecar plan.undo (photo.entry plan.wall).filename
    (photo.manifest s) r.2.1 r.2.2 = q at hside ⊢
  by_cases ht : step = .thumbnail
  · subst ht
    refine ⟨_, (writeThumbnail_reports h.only hd).stops _, ?_⟩
    rw [hside.lastError, hjpeg.lastError, hs]
    exact hopens
  have hthumb : Through q.2.1 (writeThumbnail plan.thumbnail plan.undo
      (photo.entry plan.wall).filename photo.frame q.2.1 q.2.2) :=
    writeThumbnail_through (h.others .thumbnail (Ne.symm ht))
  rw [hthumb.goes]
  obtain rfl : step = .index := by cases step <;> simp_all
  exact ⟨_, commitIndex_reports h.only h.makes, Iff.rfl⟩

/-- **A save in which one call of one step fails reports the step and the error exactly if the
step reads `errno` on that path and no call since has changed it.** The sidecar and
the thumbnail read it after their `fopen` alone. -/
theorem diagnosed_iff {encoded : Bytes}
    (henc : encodePhoto plan photo encodedCapacity s = some encoded)
    (h : OneFailure plan step call e) :
    Diagnosed plan photo encodedCapacity step e s w ↔ Recorded plan e call step := by
  let begun : PhotoStore := { s with writeStage := .encode, lastError := 0 }
  obtain ⟨err, hr, herr⟩ : ∃ err, Reports step.stage err (writePhoto plan photo encoded begun w) ∧
      (err = e ↔ Recorded plan e call step) := writePhoto_reports h rfl
  have hsave : savePhoto plan photo encodedCapacity s w =
      (none, (writePhoto plan photo encoded begun w).2) := by
    have henc' : encodePhoto plan photo encodedCapacity begun = some encoded := henc
    simp [savePhoto, savePhotoWith, begun, henc', hr.result]
  rw [← herr]
  constructor
  · intro hdiag
    have hlast := hdiag.lastError
    rw [hsave] at hlast
    exact hr.lastError.symm.trans hlast
  · rintro rfl
    exact ⟨by rw [hsave], by rw [hsave]; exact hr.writeStage, by rw [hsave]; exact hr.lastError⟩

/-! ## Two saves -/

/-- The card has no room for the sidecar's last bytes. -/
def closePlan : SavePlan := { samplePlan with sidecar := { fclose := .fails 28 } }

/-- The photo's temporary file cannot be opened. -/
def openPlan : SavePlan := { samplePlan with jpeg := { fopen := .fails 30 } }

theorem open_failure : OneFailure openPlan .jpeg .fopen 30 := by
  refine ⟨by decide, rfl, ⟨rfl, fun c hc => ?_, by decide⟩, fun other ho c => ?_⟩
  · cases c <;> first | rfl | exact absurd rfl hc
  · cases other <;> first | exact absurd rfl ho | (cases c <;> rfl)

theorem close_failure : OneFailure closePlan .sidecar .fclose 28 := by
  refine ⟨by decide, rfl, ⟨rfl, fun c hc => ?_, by decide⟩, fun other ho c => ?_⟩
  · cases c <;> first | rfl | exact absurd rfl hc
  · cases other <;> first | exact absurd rfl ho | (cases c <;> rfl)

theorem diagnosed_open :
    Diagnosed openPlan samplePhoto 4096 .jpeg 30 sampleStore { card := sampleCard } :=
  have henc : encodePhoto openPlan samplePhoto 4096 sampleStore = some (ascii "JPEG") := by decide
  (diagnosed_iff henc open_failure).2 rfl

/-- The call says that the sidecar failed, with no error. -/
theorem close_error_lost :
    encodePhoto closePlan samplePhoto 4096 sampleStore = some (ascii "JPEG") ∧
      OneFailure closePlan .sidecar .fclose 28 ∧
      ¬ Diagnosed closePlan samplePhoto 4096 .sidecar 28 sampleStore { card := sampleCard } := by
  refine ⟨by decide, close_failure, fun h => ?_⟩
  have hlast : (savePhoto closePlan samplePhoto 4096 sampleStore
      { card := sampleCard }).2.1.lastError = 0 := by decide +kernel
  exact absurd (hlast.symm.trans h.lastError) (by decide)

end RetroLens.Store
