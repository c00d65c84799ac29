import RetroLens.Lib.Mailbox
import RetroLens.Worker.Choices
import RetroLens.Worker.Jobs

/-!
# The hand-off of the frames

`jpeg_` and its two flags are a mailbox with one place, too: `frameBox` is the
mailbox that a state stands for. A submission is posted, taken by the frame
thread and given back when its decode has failed or its frame is filtered. No
submission is copied into the buffer in between, so the decoder reads what was
accepted.
-/

namespace RetroLens.Worker

open Text RetroLens.Core Store Runs Mailbox

/-! ## What the log tells -/

/-- The arguments of an accepted `submitJpeg`. -/
structure Submission where
  jpeg : Bytes
  timestampMs : Int64
  deriving DecidableEq

namespace Act

def accepted? : Act → Option Submission
  | submitted .accepted (some jpeg) timestampMs => some ⟨jpeg, timestampMs⟩
  | _ => none

/-- What a decode read. -/
def decoded? : Act → Option Submission
  | decoded jpeg timestampMs _ _ => some ⟨jpeg, timestampMs⟩
  | _ => none

def isDropped : Act → Bool
  | submitted .busyDropped _ _ => true
  | _ => false

end Act

/-- The accepted submissions, in order. -/
def acceptedFrames (l : List Act) : List Submission := l.filterMap Act.accepted?

/-- What the decodes read, in order. -/
def decodedFrames (l : List Act) : List Submission := l.filterMap Act.decoded?

/-- The number of submissions that were dropped. -/
def droppedFrames (l : List Act) : Nat := l.countP Act.isDropped

section

variable (l o : List Act)

@[simp] theorem acceptedFrames_append :
    acceptedFrames (l ++ o) = acceptedFrames l ++ acceptedFrames o := List.filterMap_append

@[simp] theorem decodedFrames_append :
    decodedFrames (l ++ o) = decodedFrames l ++ decodedFrames o := List.filterMap_append

@[simp] theorem droppedFrames_append :
    droppedFrames (l ++ o) = droppedFrames l + droppedFrames o := List.countP_append

end

/-! ## The mailbox of a state -/

/-- What `jpeg_` holds. -/
def Intake.submission (i : Intake) : Submission := ⟨i.jpeg, i.jpegTimestampMs⟩

def frameBox (c : Screen) : Box Submission :=
  { accepting := c.running
    pending := if c.intake.inputPending then some c.intake.submission else none
    inUse := if c.intake.inputInUse then some c.intake.submission else none }

/-- The frame thread works on an input. -/
def RunLoop.working : RunLoop → Bool
  | decoding .. | decodeFailed => true
  | filtering _ input _ | finishing _ input => input
  | _ => false

def RunLoop.isDecoding : RunLoop → Bool
  | decoding .. => true
  | _ => false

/-- The input whose decode has not returned. -/
def undecoded (s : DisplayProbeWorker) : List Submission :=
  if s.frame.pc.isDecoding then [s.shared.screen.intake.submission] else []

/-- What the worker's log, its state and the mailbox have to do with each other. -/
structure FrameTally (l : List Act) (s : DisplayProbeWorker) (k : List (Mailbox.Act Submission))
    (b : Box Submission) : Prop where
  box : b = frameBox s.shared.screen
  inUse : s.shared.screen.intake.inputInUse = s.frame.pc.working
  stamp : ∀ settings usePrevious, s.frame.pc = .decoding settings usePrevious →
    settings.timestampMs = s.shared.screen.intake.jpegTimestampMs
  accepted : acceptedFrames l = posts k
  decoded : decodedFrames l ++ undecoded s = takes k
  acceptedCount : s.shared.screen.filterMetrics.acceptedFrames = (posts k).length
  finishedCount : s.shared.screen.filterMetrics.processedFrames +
    s.shared.screen.filterMetrics.decodeFailures = (returns k).length
  droppedCount : s.shared.screen.filterMetrics.droppedFrames = droppedFrames l

variable {l o : List Act} {s s' : DisplayProbeWorker} {k k' : List (Mailbox.Act Submission)}
  {b : Box Submission} {ds : List (Mailbox.Event Submission)}

open Screen (Same)

/-- The worker's step is answered by a run of the mailbox. -/
def FrameAnswered (l : List Act) (s' : DisplayProbeWorker) (k : List (Mailbox.Act Submission))
    (b : Box Submission) : Prop :=
  ∃ ds k' b', Run Mailbox.box b ds k' b' ∧ FrameTally l s' (k ++ k') b'

theorem FrameTally.next (h : FrameTally l s k b)
    (hrun : Run Mailbox.box (frameBox s.shared.screen) ds k' (frameBox s'.shared.screen))
    (hinUse : s'.shared.screen.intake.inputInUse = s'.frame.pc.working)
    (hstamp : ∀ settings usePrevious, s'.frame.pc = .decoding settings usePrevious →
      settings.timestampMs = s'.shared.screen.intake.jpegTimestampMs)
    (ha : acceptedFrames o = posts k')
    (hd : decodedFrames o ++ undecoded s' = undecoded s ++ takes k')
    (hac : s'.shared.screen.filterMetrics.acceptedFrames =
      s.shared.screen.filterMetrics.acceptedFrames + (posts k').length)
    (hfc : s'.shared.screen.filterMetrics.processedFrames +
        s'.shared.screen.filterMetrics.decodeFailures =
      s.shared.screen.filterMetrics.processedFrames +
        s.shared.screen.filterMetrics.decodeFailures + (returns k').length)
    (hdc : s'.shared.screen.filterMetrics.droppedFrames =
      s.shared.screen.filterMetrics.droppedFrames + droppedFrames o) :
    FrameAnswered (l ++ o) s' k b := by
  refine ⟨ds, k', _, h.box ▸ hrun, rfl, hinUse, hstamp, ?_, ?_, ?_, ?_, ?_⟩
  · rw [acceptedFrames_append, posts_append, h.accepted, ha]
  · rw [decodedFrames_append, takes_append, List.append_assoc, hd, ← List.append_assoc, h.decoded]
  · rw [hac, posts_append, List.length_append, h.acceptedCount]
    omega
  · rw [hfc, returns_append, List.length_append, h.finishedCount]
    omega
  · rw [hdc, droppedFrames_append, h.droppedCount]
    omega

/-- A step that concerns other things than the frames. -/
theorem FrameTally.aside (h : FrameTally l s k b)
    (hsame : s'.shared.screen.intake.submission = s.shared.screen.intake.submission)
    (hflags : s'.shared.screen.intake.inputPending = s.shared.screen.intake.inputPending ∧
      s'.shared.screen.intake.inputInUse = s.shared.screen.intake.inputInUse)
    (hframes : s'.shared.screen.filterMetrics.frames = s.shared.screen.filterMetrics.frames)
    (hworking : s'.frame.pc.working = s.frame.pc.working)
    (hdecoding : ∀ settings usePrevious, s'.frame.pc = .decoding settings usePrevious →
      s.frame.pc = .decoding settings usePrevious)
    (hun : decodedFrames o ++ undecoded s' = undecoded s)
    (ho : acceptedFrames o = [] ∧ droppedFrames o = 0) :
    FrameAnswered (l ++ o) s' k b := by
  obtain ⟨h1, h2, h3, h4⟩ := frames_eq hframes
  have hopen : Run Mailbox.box (frameBox s.shared.screen)
      [.open' s'.shared.screen.running] [] (frameBox s'.shared.screen) := by
    apply run_step
    simp only [Mailbox.box, frameBox, hflags.1, hflags.2, hsame]
  refine h.next hopen ?_ ?_ ho.1 ?_ ?_ ?_ ?_
  · rw [hflags.2, h.inUse, hworking]
  · intro settings usePrevious hpc
    rw [h.stamp settings usePrevious (hdecoding _ _ hpc)]
    exact (congrArg Submission.timestampMs hsame).symm
  · rw [hun]
    exact (List.append_nil _).symm
  · rw [h1]
    exact (Int.add_zero _).symm
  · rw [h2, h4]
    exact (Int.add_zero _).symm
  · rw [h3, ho.2]
    exact (Int.add_zero _).symm

/-! ## The steps -/

/-- Calls other than `submitJpeg` show no frame. -/
theorem call_frames (filtered : Frame) (entries : Entries) (sh : Shared) (call : UiCall) :
    decodedFrames (call.acts filtered entries sh) = [] ∧
      ((∀ jpeg timestampMs, call ≠ .submitJpeg jpeg timestampMs) →
        acceptedFrames (call.acts filtered entries sh) = [] ∧
          droppedFrames (call.acts filtered entries sh) = 0) := by
  cases call with
  | key keyValue down timestampMs =>
    simp only [UiCall.acts]
    split <;> split <;> exact ⟨rfl, fun _ => ⟨rfl, rfl⟩⟩
  | requestPhoto timestampMs =>
    simp only [UiCall.acts]
    split <;> exact ⟨rfl, fun _ => ⟨rfl, rfl⟩⟩
  | submitJpeg jpeg timestampMs => exact ⟨rfl, fun h => absurd rfl (h jpeg timestampMs)⟩
  | touch | changeStyle | setFocus | configureStorage | noteAttempts =>
    exact ⟨rfl, fun _ => ⟨rfl, rfl⟩⟩

theorem PhotoEvent.acts_frames (e : PhotoEvent) (v v' : PhotoView) :
    decodedFrames (e.acts v v') = [] ∧ acceptedFrames (e.acts v v') = [] ∧
      droppedFrames (e.acts v v') = 0 := by
  unfold PhotoEvent.acts
  split
  · exact ⟨rfl, rfl, rfl⟩
  · split <;> exact ⟨rfl, rfl, rfl⟩
  · split <;> exact ⟨rfl, rfl, rfl⟩
  · exact ⟨rfl, rfl, rfl⟩

/-- A step of another thread, which may mark the style dirty. -/
theorem FrameTally.other (h : FrameTally l s k b) (hframe : s'.frame = s.frame)
    (hintake : (∃ dirty, s'.shared.screen.intake =
        { s.shared.screen.intake with styleDirty := dirty }) ∧
      s'.shared.screen.filterMetrics.frames = s.shared.screen.filterMetrics.frames)
    (ho : decodedFrames o = [] ∧ acceptedFrames o = [] ∧ droppedFrames o = 0) :
    FrameAnswered (l ++ o) s' k b := by
  obtain ⟨⟨dirty, hi⟩, hframes⟩ := hintake
  have hsame : s'.shared.screen.intake.submission = s.shared.screen.intake.submission := by
    rw [hi]
    rfl
  refine h.aside hsame (by rw [hi]; exact ⟨rfl, rfl⟩) hframes (by rw [hframe]) ?_ ?_ ho.2
  · rw [hframe]
    exact fun _ _ hpc => hpc
  · rw [ho.1, undecoded, undecoded, hframe, hsame, List.nil_append]

theorem FrameTally.submit (h : FrameTally l s k b) (jpeg : Option Bytes) (timestampMs : Int64) :
    FrameAnswered
      (l ++ [.submitted (submitJpeg jpeg timestampMs s.shared.screen).1 jpeg timestampMs])
      { s with shared.screen := (submitJpeg jpeg timestampMs s.shared.screen).2 } k b := by
  have hcases := submitJpeg_cases jpeg timestampMs s.shared.screen
  generalize submitJpeg jpeg timestampMs s.shared.screen = r at hcases ⊢
  cases hcases with
  | invalid why => exact h.other rfl ⟨⟨_, rfl⟩, rfl⟩ ⟨rfl, rfl, rfl⟩
  | dropped busy =>
    have hrun : Run Mailbox.box (frameBox s.shared.screen) [] [] (frameBox s.shared.screen) := .init
    exact h.next hrun h.inUse h.stamp rfl (List.append_nil _).symm (Int.add_zero _).symm
      (Int.add_zero _).symm rfl
  | accepted bytes eq running pending inUse =>
    subst eq
    have hidle : s.frame.pc.working = false := h.inUse.symm.trans inUse
    have hpc : ∀ settings usePrevious, s.frame.pc ≠ .decoding settings usePrevious := fun _ _ hpc => by
      rw [hpc] at hidle
      cases hidle
    have hun : ∀ c : Screen, undecoded { s with shared.screen := c } = [] := fun c => by
      unfold undecoded
      refine if_neg fun hd => ?_
      cases hs : s.frame.pc <;> simp [hs, RunLoop.isDecoding] at hd
      exact hpc _ _ hs
    have hrun : Run Mailbox.box (frameBox s.shared.screen) [.post ⟨bytes, timestampMs⟩]
        [.posted ⟨bytes, timestampMs⟩] (frameBox { s.shared.screen with
          intake.jpeg := bytes
          intake.jpegTimestampMs := timestampMs
          intake.inputPending := true
          filterMetrics.acceptedFrames := s.shared.screen.filterMetrics.acceptedFrames + 1 }) := by
      apply run_step
      simp [Mailbox.box, frameBox, Box.accepts, running, pending, inUse, Intake.submission]
    refine h.next hrun h.inUse (fun _ _ h => absurd h (hpc _ _)) rfl ?_ rfl
      (Int.add_zero _).symm (Int.add_zero _).symm
    rw [hun, show undecoded s = [] from hun s.shared.screen]
    rfl

theorem FrameTally.ui (h : FrameTally l s k b) (call : UiCall) :
    FrameAnswered (l ++ call.acts s.frame.filtered s.photo.store.entries s.shared)
      { s with shared := call.run s.frame.filtered s.shared } k b := by
  rcases UiCall.run_choice s.frame.filtered call s.shared with ⟨jpeg, timestampMs, rfl⟩ | ⟨hcall, hc⟩
  · exact h.submit jpeg timestampMs
  · obtain ⟨hd, ha⟩ := call_frames s.frame.filtered s.photo.store.entries s.shared call
    exact h.other rfl hc.intake ⟨hd, ha hcall⟩

theorem FrameTally.photo (h : FrameTally l s k b) {e : PhotoEvent} {v : PhotoView}
    (hs : e.run s.photoView = some v) : FrameAnswered (l ++ e.acts s.photoView v)
      { s with shared := v.shared, photo := v.photo } k b := by
  have hrun : e.Step s.shared s.photo v := PhotoEvent.run_step hs
  have ho := PhotoEvent.acts_frames e s.photoView v
  refine h.other rfl ?_ ho
  cases hrun with
  | install freeBytes state settings event pc eq =>
    subst eq
    exact installStore_intake state settings freeBytes _ _
  | publish job result now freeBytes event pc eq =>
    subst eq
    have hsame := publish_same job result now freeBytes s.photo.store s.shared
    exact ⟨⟨_, hsame.intake⟩, hsame.frames⟩
  | exit event pc running eq => exact eq ▸ ⟨⟨_, rfl⟩, rfl⟩
  | configure event pc eq => exact eq ▸ ⟨⟨_, rfl⟩, rfl⟩
  | opened plan readable status event pc eq => exact eq ▸ ⟨⟨_, rfl⟩, rfl⟩
  | take event pc pending eq => exact eq ▸ ⟨⟨_, rfl⟩, rfl⟩
  | call job event pc eq => exact eq ▸ ⟨⟨_, rfl⟩, rfl⟩
  | finish job work r event pc call eq => exact eq ▸ ⟨⟨_, rfl⟩, rfl⟩
  | handBack job result event pc eq => exact eq ▸ ⟨⟨_, rfl⟩, rfl⟩

theorem undecoded_none (h : s.frame.pc.isDecoding = false) : undecoded s = [] :=
  if_neg (by rw [h]; decide)

/-- A step that leaves the mailbox alone, with no input being decoded before or after it. -/
theorem FrameTally.still (h : FrameTally l s k b)
    (hintake : (∃ dirty previous, s'.shared.screen.intake =
        { s.shared.screen.intake with styleDirty := dirty, hasPrevious := previous }) ∧
      s'.shared.screen.filterMetrics.frames = s.shared.screen.filterMetrics.frames)
    (hworking : s'.frame.pc.working = s.frame.pc.working)
    (hpc : s.frame.pc.isDecoding = false) (hpc' : s'.frame.pc.isDecoding = false)
    (ho : decodedFrames o = [] ∧ acceptedFrames o = [] ∧ droppedFrames o = 0) :
    FrameAnswered (l ++ o) s' k b := by
  obtain ⟨⟨dirty, previous, hi⟩, hframes⟩ := hintake
  refine h.aside (by rw [hi]; rfl) (by rw [hi]; exact ⟨rfl, rfl⟩) hframes hworking ?_ ?_ ho.2
  · intro settings usePrevious hd
    rw [hd] at hpc'
    cases hpc'
  · rw [ho.1, undecoded_none hpc, undecoded_none hpc']
    rfl

theorem FrameTally.owner (h : FrameTally l s k b)
    (hbefore : s.control.beforeFrame = true → s.frame.pc = .notStarted)
    {created : Bool} {plan : FilePlan} (hs : ownerStep created plan s = some s') :
    FrameAnswered (l ++ []) s' k b := by
  obtain ⟨running, complete, ready, state, hscreen⟩ := ownerStep_screen hs
  rcases ownerStep_frame hs with ⟨hframe, -⟩ | ⟨hc, -, hframe⟩
  · refine h.other hframe ?_ ⟨rfl, rfl, rfl⟩
    rw [hscreen]
    exact ⟨⟨_, rfl⟩, rfl⟩
  · have hpc := hbefore (by rw [hc]; rfl)
    refine h.still ?_ ?_ (by rw [hpc]; rfl) (by rw [hframe]; rfl) ⟨rfl, rfl, rfl⟩
    · rw [hscreen]
      exact ⟨⟨_, _, rfl⟩, rfl⟩
    · rw [hframe, hpc]
      rfl

/-- The frame thread takes the input. -/
theorem FrameTally.take (h : FrameTally l s k b) (hpc : s.frame.pc = .head)
    (pending : s.shared.screen.intake.inputPending = true) (previous : Bool) (usePrevious : Bool) :
    FrameAnswered (l ++ [])
      { s with
        shared.screen.intake.inputPending := false
        shared.screen.intake.inputInUse := true
        shared.screen.intake.hasPrevious := previous
        shared.screen.intake.styleDirty := false
        frame.pc := .decoding (frameSettings s.shared.screen.intake.jpegTimestampMs s.shared.screen)
          usePrevious } k b := by
  have inUse : s.shared.screen.intake.inputInUse = false := by
    rw [h.inUse, hpc]
    rfl
  have htake : Run Mailbox.box (frameBox s.shared.screen) [.take]
      [.taken s.shared.screen.intake.submission] (frameBox { s.shared.screen with
        intake.inputPending := false
        intake.inputInUse := true
        intake.hasPrevious := previous
        intake.styleDirty := false }) := by
    apply run_step
    simp [Mailbox.box, frameBox, pending, inUse, Intake.submission]
  refine h.next htake rfl ?_ rfl ?_ (Int.add_zero _).symm (Int.add_zero _).symm
    (Int.add_zero _).symm
  · intro settings usePrevious hd
    cases hd
    rfl
  · have hun : undecoded s = [] := undecoded_none (by rw [hpc]; rfl)
    rw [hun]
    rfl

/-- The decoder has read the input. -/
theorem FrameTally.decode (h : FrameTally l s k b) {settings : FilterSettings}
    {usePrevious : Bool} (hpc : s.frame.pc = .decoding settings usePrevious) (ok : Bool)
    (raw : Frame) :
    FrameAnswered (l ++ [.decoded s.shared.screen.intake.jpeg settings.timestampMs ok raw])
      { s with frame := decodeDone ok raw settings usePrevious s.frame } k b := by
  have hdone : (decodeDone ok raw settings usePrevious s.frame).pc.working = true ∧
      (decodeDone ok raw settings usePrevious s.frame).pc.isDecoding = false := by
    unfold decodeDone
    cases ok <;> exact ⟨rfl, rfl⟩
  refine h.aside rfl ⟨rfl, rfl⟩ rfl (hdone.1.trans (by rw [hpc]; rfl)) ?_ ?_ ⟨rfl, rfl⟩
  · intro settings' usePrevious' hd
    have := hdone.2
    change (decodeDone ok raw settings usePrevious s.frame).pc = _ at hd
    rw [hd] at this
    cases this
  · rw [undecoded_none hdone.2, undecoded, hpc, h.stamp settings usePrevious hpc]
    rfl

/-- The input is given back, filtered or failed, and the screen drawn. -/
theorem FrameTally.giveBack (h : FrameTally l s k b) (hworking : s.frame.pc.working = true)
    (hpc : s.frame.pc.isDecoding = false) {c c' : Screen} (hsame : Same c c')
    (hintake : c.intake.submission = s.shared.screen.intake.submission ∧
      c.intake.inputPending = s.shared.screen.intake.inputPending ∧ c.intake.inputInUse = false)
    (hrunning : c.running = s.shared.screen.running)
    (hac : c.filterMetrics.acceptedFrames = s.shared.screen.filterMetrics.acceptedFrames)
    (hfc : c.filterMetrics.processedFrames + c.filterMetrics.decodeFailures =
      s.shared.screen.filterMetrics.processedFrames +
        s.shared.screen.filterMetrics.decodeFailures + 1)
    (hdc : c.filterMetrics.droppedFrames = s.shared.screen.filterMetrics.droppedFrames)
    (previous : Frame) :
    FrameAnswered (l ++ [])
      { s with shared.screen := c', frame.pc := .head, frame.previous := previous } k b := by
  obtain ⟨hsub, hpending, hinUse⟩ := hintake
  obtain ⟨h1, h2, h3, h4⟩ := frames_eq hsame.frames
  have hback : Run Mailbox.box (frameBox s.shared.screen) [.giveBack]
      [.returned s.shared.screen.intake.submission] (frameBox c') := by
    apply run_step
    simp [Mailbox.box, frameBox, hsame.intake, hsame.running, hsub, hpending, hinUse, hrunning,
      h.inUse.trans hworking]
  refine h.next hback ?_ (fun _ _ hd => by cases hd) rfl ?_ ?_ ?_ ?_
  · show c'.intake.inputInUse = false
    rw [hsame.intake, hinUse]
  · have hun : undecoded s = [] := undecoded_none hpc
    rw [hun]
    rfl
  · exact (h1.trans hac).trans (Int.add_zero _).symm
  · exact (congrArg₂ (· + ·) h2 h4).trans hfc
  · exact (h3.trans hdc).trans (Int.add_zero _).symm

theorem FrameTally.frame (h : FrameTally l s k b) {e : FrameEvent} {v : FrameView}
    (hs : e.run s.frameView = some v) : FrameAnswered (l ++ e.acts s.frameView)
      { s with shared.screen := v.screen, frame := v.frame } k b := by
  cases FrameEvent.run_step hs with
  | exit now event pc running eq =>
    subst event eq
    change s.frame.pc = .head at pc
    exact h.still ⟨⟨_, _, rfl⟩, rfl⟩ (by rw [pc]; rfl) (by rw [pc]; rfl) rfl ⟨rfl, rfl, rfl⟩
  | take now event pc running pending eq =>
    subst event eq
    exact h.take pc pending _ _
  | again now event pc running pending dirty raw eq =>
    subst event eq
    change s.frame.pc = .head at pc
    exact h.still ⟨⟨_, _, rfl⟩, rfl⟩ (by rw [pc]; rfl) (by rw [pc]; rfl) rfl ⟨rfl, rfl, rfl⟩
  | idle now event pc running pending eq =>
    subst event eq
    have hsame := renderNextLocked_same now s.shared.screen
    exact h.other rfl ⟨⟨_, hsame.intake⟩, hsame.frames⟩ ⟨rfl, rfl, rfl⟩
  | decoded ok raw settings usePrevious event pc eq =>
    subst event eq
    rw [FrameEvent.decoded_acts pc]
    exact h.decode pc ok raw
  | wrote pixels call input written event pc eq =>
    subst event eq
    change s.frame.pc = .filtering call input written at pc
    exact h.still ⟨⟨_, _, rfl⟩, rfl⟩ (by rw [pc]; rfl) (by rw [pc]; rfl) rfl ⟨rfl, rfl, rfl⟩
  | filtered call input written event pc eq =>
    subst event eq
    rw [FrameEvent.filtered_acts pc]
    change s.frame.pc = .filtering call input written at pc
    exact h.still ⟨⟨_, _, rfl⟩, rfl⟩ (by rw [pc]; rfl) (by rw [pc]; rfl) rfl ⟨rfl, rfl, rfl⟩
  | finish now decodeMs filterMs call input event pc eq =>
    subst event eq
    change s.frame.pc = .finishing call input at pc
    cases input with
    | true =>
      refine h.giveBack (by rw [pc]; rfl) (by rw [pc]; rfl)
        (renderNextLocked_same now (frameDone call.timestampMs decodeMs filterMs s.shared.screen))
        ⟨rfl, rfl, rfl⟩ rfl rfl ?_ rfl _
      simp only [frameDone]
      omega
    | false =>
      have hsame := renderNextLocked_same now (styleDone filterMs s.shared.screen)
      exact h.still ⟨⟨_, _, hsame.intake⟩, hsame.frames⟩ (by rw [pc]; rfl) (by rw [pc]; rfl) rfl
        ⟨rfl, rfl, rfl⟩
  | fail now decodeMs filterMs event pc eq =>
    subst event eq
    change s.frame.pc = .decodeFailed at pc
    refine h.giveBack (by rw [pc]; rfl) (by rw [pc]; rfl)
      (renderNextLocked_same now (decodeError decodeMs filterMs s.shared.screen))
      ⟨rfl, rfl, rfl⟩ rfl rfl ?_ rfl _
    simp only [decodeError]
    omega

/-! ## Runs -/

variable {s₀ : DisplayProbeWorker} {es : List Event}

theorem FrameTally.step (h : FrameTally l s k b)
    (hbefore : s.control.beforeFrame = true → s.frame.pc = .notStarted) {e : Event}
    (hs : worker.step s e = some (s', o)) : FrameAnswered (l ++ o) s' k b := by
  cases e with
  | ui call =>
    cases hs
    exact h.ui call
  | frame e =>
    obtain ⟨v, hv, hs⟩ := Option.map_eq_some_iff.1 hs
    cases hs
    exact h.frame hv
  | photo e =>
    obtain ⟨v, hv, hs⟩ := Option.map_eq_some_iff.1 hs
    cases hs
    exact h.photo hv
  | owner created plan =>
    obtain ⟨v, hv, hs⟩ := Option.map_eq_some_iff.1 hs
    cases hs
    exact h.owner hbefore hv

theorem fresh_frameTally (h : Fresh s) : FrameTally [] s [] {} := by
  obtain ⟨now, root, model, version, status, memory, card, rfl⟩ := h
  exact ⟨rfl, rfl, (fun _ _ hd => by cases hd), rfl, rfl, rfl, rfl, rfl⟩

/-- The frames' side of the worker refines the mailbox. -/
theorem reach_frameTally (h0 : Fresh s₀) (h : Run worker s₀ es l s) :
    ∃ k, Counts k (frameBox s.shared.screen) ∧ FrameTally l s k (frameBox s.shared.screen) := by
  obtain ⟨ds, k, b, hrun, ht, -⟩ := h.simulate
    (R := fun l s k b => FrameTally l s k b ∧ ∃ es, Run worker s₀ es l s)
    ⟨fresh_frameTally h0, [], .init⟩ (by
      rintro l s e s' o k b ⟨ht, es, hrun⟩ hg hs
      obtain ⟨ds, k', b', hr, ht'⟩ := ht.step (reach_beforeFrame h0 hrun) hs
      exact ⟨ds, k', b', hr, ht', _, .step hrun hg hs⟩)
  obtain rfl := ht.box
  exact ⟨k, reach_counts hrun, ht⟩

/-- The submission that `jpeg_` holds for a decode to come or to return. -/
def waitingFrame (s : DisplayProbeWorker) : List Submission :=
  if s.shared.screen.intake.inputPending || s.frame.pc.isDecoding then
    [s.shared.screen.intake.submission] else []

/-- A submission is accepted or dropped, and counted as that. -/
def Counted (c : Screen) (r : FilterSubmitStatus × Screen) : Prop :=
  r.1 = .accepted ∧ r.2.filterMetrics.acceptedFrames = c.filterMetrics.acceptedFrames + 1 ∧
      r.2.filterMetrics.droppedFrames = c.filterMetrics.droppedFrames ∨
    r.1 = .busyDropped ∧ r.2.filterMetrics.acceptedFrames = c.filterMetrics.acceptedFrames ∧
      r.2.filterMetrics.droppedFrames = c.filterMetrics.droppedFrames + 1

/-- What the hand-off of the frames promises, given the log. -/
structure FramesHandedOff (l : List Act) (s : DisplayProbeWorker) : Prop where
  /-- The place holds one frame at most. -/
  single : ¬ (s.shared.screen.intake.inputPending = true ∧
    s.shared.screen.intake.inputInUse = true)
  balance : s.shared.screen.filterMetrics.acceptedFrames =
    s.shared.screen.filterMetrics.processedFrames + s.shared.screen.filterMetrics.decodeFailures +
      if s.shared.screen.intake.inputPending || s.shared.screen.intake.inputInUse then 1 else 0
  accepted : s.shared.screen.filterMetrics.acceptedFrames = (acceptedFrames l).length
  dropped : s.shared.screen.filterMetrics.droppedFrames = droppedFrames l
  /-- The next submission while running is accepted or dropped, and counted so. -/
  counted : s.shared.screen.running = true → ∀ jpeg timestampMs, ValidSubmission jpeg timestampMs →
    Counted s.shared.screen (submitJpeg (some jpeg) timestampMs s.shared.screen)
  /-- Decodes read what was accepted, in its order; what waits is in the buffer unchanged. -/
  decodes : acceptedFrames l = decodedFrames l ++ waitingFrame s

theorem valid_counted {c : Screen} (hr : c.running = true) {jpeg : Bytes} {timestampMs : Int64}
    (hv : ValidSubmission jpeg timestampMs) :
    Counted c (submitJpeg (some jpeg) timestampMs c) := by
  have hcases := submitJpeg_cases (some jpeg) timestampMs c
  generalize submitJpeg (some jpeg) timestampMs c = r at hcases ⊢
  cases hcases with
  | invalid why => exact absurd hv (why hr jpeg rfl)
  | dropped busy => exact .inr ⟨rfl, rfl, rfl⟩
  | accepted bytes eq running pending inUse => exact .inl ⟨rfl, rfl, rfl⟩

/-- **The one-slot hand-off of the frames**: in every state reached the accounts balance, and the
decoder has read exactly the accepted submissions, but for the one in the buffer. -/
theorem frames_handedOff (h0 : Fresh s₀) (h : Run worker s₀ es l s) : FramesHandedOff l s := by
  obtain ⟨k, hc, ht⟩ := reach_frameTally h0 h
  have hpending : (frameBox s.shared.screen).pending =
      if s.shared.screen.intake.inputPending then some s.shared.screen.intake.submission
      else none := rfl
  have hinUse : (frameBox s.shared.screen).inUse =
      if s.shared.screen.intake.inputInUse then some s.shared.screen.intake.submission
      else none := rfl
  have single : ¬ (s.shared.screen.intake.inputPending = true ∧
      s.shared.screen.intake.inputInUse = true) := by
    rintro ⟨hp, hu⟩
    rw [if_pos hp] at hpending
    rw [if_pos hu] at hinUse
    rcases hc.single with h | h
    · rw [hpending] at h
      cases h
    · rw [hinUse] at h
      cases h
  have hposts : posts k = returns k ++ (frameBox s.shared.screen).inUse.toList ++
      (frameBox s.shared.screen).pending.toList := by rw [hc.posts_eq, hc.takes_eq]
  refine ⟨single, ?_, ?_, ht.droppedCount, fun hr _ _ hv => valid_counted hr hv, ?_⟩
  · rw [ht.acceptedCount, ht.finishedCount, hposts, hpending, hinUse, List.length_append,
      List.length_append]
    by_cases hp : s.shared.screen.intake.inputPending = true
    · have hu : s.shared.screen.intake.inputInUse = false := by simpa [hp] using single
      simp [hp, hu]
    · by_cases hu : s.shared.screen.intake.inputInUse = true <;> simp [hp, hu]
  · rw [ht.acceptedCount, ht.accepted]
  · rw [ht.accepted, hc.posts_eq, ← ht.decoded, hpending, List.append_assoc]
    congr 1
    unfold undecoded waitingFrame
    by_cases hp : s.shared.screen.intake.inputPending = true
    · have hu : s.shared.screen.intake.inputInUse = false := by simpa [hp] using single
      have hd : s.frame.pc.isDecoding = false := by
        have hw := ht.inUse.symm.trans hu
        cases hpc : s.frame.pc <;> simp [hpc, RunLoop.working, RunLoop.isDecoding] at hw ⊢
      simp [hp, hd]
    · simp [hp]

/-- A frame is filtered while another one comes, a third waits at the stop, and a fourth is late. -/
def framesSession : List Event :=
  [Event.go, .go, .go, .go, .ui (.submitJpeg (some (ascii "first")) 40),
    .ui (.submitJpeg (some (ascii "second")) 80), .frame (.turn 0),
    .frame (.decoded true blackFrame), .frame .filtered, .frame (.finish 0 1 1),
    .ui (.submitJpeg (some (ascii "third")) 120), .go,
    .ui (.submitJpeg (some (ascii "fourth")) 160), .frame (.turn 0)]

theorem frames_handedOff_session : ∃ l s, Run worker sampleWorker framesSession l s ∧
    acceptedFrames l = [⟨ascii "first", 40⟩, ⟨ascii "third", 120⟩] ∧ droppedFrames l = 1 ∧
    waitingFrame s = [⟨ascii "third", 120⟩] ∧ FramesHandedOff l s := by
  obtain ⟨l, s, h, hp⟩ := run_of_exec (M := worker) (s := sampleWorker) framesSession
    (p := fun x => acceptedFrames x.2 == [⟨ascii "first", 40⟩, ⟨ascii "third", 120⟩] &&
      droppedFrames x.2 == 1 && waitingFrame x.1 == [⟨ascii "third", 120⟩]) (by decide +kernel)
  simp only [Bool.and_eq_true, beq_iff_eq] at hp
  exact ⟨l, s, h, hp.1.1, hp.1.2, hp.2, frames_handedOff sample_fresh h⟩

end RetroLens.Worker
