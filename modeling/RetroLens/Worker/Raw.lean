import RetroLens.Core.ReducedJpeg
import RetroLens.Worker.Frames
import RetroLens.Worker.History

/-!
# The last good frame

`raw_` is decoded in place. `hasRaw_` says that it holds a frame, and stays
set when a later decode fails; what the failing call wrote up to then is in
`raw_` all the same, for the compare view and the next change of style.
`RawKept` says that `raw_` is the complete decode of the last JPEG that could
be decoded. The runs that pass through such states only are exactly those in
which a failing decode writes nothing new (`raw_kept_iff`).
-/

namespace RetroLens.Worker

open Text RetroLens.Core Store Runs

/-! ## What was decoded last -/

/-- A call of `decodeReducedJpeg` that returned true. -/
def Act.isGood : Act → Bool
  | .decoded _ _ ok _ => ok
  | _ => false

/-- The last such call: what had been seen before it, and its JPEG. -/
def lastGood (l : List Act) : Option (List Act × Bytes) :=
  match l.reverse.dropWhile (!·.isGood) with
  | .decoded jpeg _ _ _ :: before => some (before.reverse, jpeg)
  | _ => none

/-- The frame is the complete decode of that JPEG. What picojpeg makes of a JPEG may depend on
the calls before, whose leftovers are in its buffers. -/
def Shows (pico : List Act → Bytes → PicoJpeg) (l : List Act) (frame : Frame) : Prop :=
  ∃ before jpeg info, lastGood l = some (before, jpeg) ∧
    (pico before jpeg).decodeInit = some info ∧ frame = completeDecode (pico before jpeg) info

/-- The call of `processFrame` that the frame thread is in, and whether its frame is new. -/
def RunLoop.call? : RunLoop → Option (FilterCall × Bool)
  | filtering call input _ | finishing call input => some (call, input)
  | _ => none

/-- What is shown, compared and filtered anew is the last good frame. -/
structure RawKept (pico : List Act → Bytes → PicoJpeg) (l : List Act) (s : DisplayProbeWorker) :
    Prop where
  kept : s.shared.screen.intake.hasRaw = true → Shows pico l s.frame.raw
  compared : s.shared.screen.filterMetrics.hasFrame = true → Shows pico l s.frame.raw
  refiltered : ∀ call, s.frame.pc.call? = some (call, false) → Shows pico l call.source

/-- The decodes are those of `decodeReducedJpeg`. -/
def decodesWith (pico : List Act → Bytes → PicoJpeg) : Guard DisplayProbeWorker Event Act :=
  fun l s e => ∀ ok raw, e = .frame (.decoded ok raw) →
    (ok, raw) = decodeReducedJpeg (pico l s.shared.screen.intake.jpeg)
      s.shared.screen.intake.jpeg s.frame.raw

/-- A JPEG that is decoded over a good frame either decodes, or fails before anything in it that
is new. -/
def spoilsNothing (pico : List Act → Bytes → PicoJpeg) : Guard DisplayProbeWorker Event Act :=
  fun l s e => ∀ ok raw, e = .frame (.decoded ok raw) → s.shared.screen.intake.hasRaw = true →
    Decodes (pico l s.shared.screen.intake.jpeg) s.shared.screen.intake.jpeg ∨
      NothingNew (pico l s.shared.screen.intake.jpeg) s.shared.screen.intake.jpeg s.frame.raw

variable {pico : List Act → Bytes → PicoJpeg} {s s' s₀ : DisplayProbeWorker} {l o : List Act}
  {es : List Event} {e : Event} {c : Screen}

theorem lastGood_append (h : ∀ x ∈ o, x.isGood = false) : lastGood (l ++ o) = lastGood l := by
  have hskip : ∀ x ∈ o.reverse, (!x.isGood) = true := fun x hx => by
    rw [h x (List.mem_reverse.1 hx)]
    rfl
  simp only [lastGood, List.reverse_append, List.dropWhile_append_of_pos hskip]

theorem lastGood_decoded (l : List Act) (jpeg : Bytes) (timestampMs : Int64) (raw : Frame) :
    lastGood (l ++ [.decoded jpeg timestampMs true raw]) = some (l, jpeg) := by
  simp [lastGood, Act.isGood]

theorem Shows.append {frame : Frame} (h : Shows pico l frame) (ho : ∀ x ∈ o, x.isGood = false) :
    Shows pico (l ++ o) frame := by
  obtain ⟨before, jpeg, info, hlast, hrest⟩ := h
  exact ⟨before, jpeg, info, (lastGood_append ho).trans hlast, hrest⟩

theorem Shows.unique {f g : Frame} (hf : Shows pico l f) (hg : Shows pico l g) : f = g := by
  obtain ⟨before, jpeg, info, hlast, hinfo, rfl⟩ := hf
  obtain ⟨_, _, _, hlast', hinfo', rfl⟩ := hg
  cases hlast.symm.trans hlast'
  cases hinfo.symm.trans hinfo'
  rfl

/-- A list that shows no decode shows no good one. -/
theorem none_good (h : decodedFrames o = []) : ∀ x ∈ o, x.isGood = false := by
  intro x hx
  have hnone := List.filterMap_eq_nil_iff.1 h x hx
  cases x with
  | decoded => cases hnone
  | _ => rfl

/-! ## Who sets the flags -/

theorem renderNextLocked_hasFrame (now : Int) (c : Screen) :
    (renderNextLocked now c).filterMetrics.hasFrame = c.filterMetrics.hasFrame := by
  simp only [renderNextLocked, expireMessage, hideControls]
  split <;> split <;> rfl

theorem queueGalleryLocked_metrics (job : PhotoJob) (status : PhotoWriteState) (sh : Shared) :
    (queueGalleryLocked job status sh).2.screen.filterMetrics = sh.screen.filterMetrics := by
  unfold queueGalleryLocked
  split
  · rfl
  · split <;> rfl

theorem keyEffect_hasFrame (keyValue : PhotoUiKey) (timestampMs : Int) (sh : Shared) :
    (keyEffect keyValue timestampMs sh).2.screen.filterMetrics.hasFrame =
      sh.screen.filterMetrics.hasFrame := by
  have hdirection : ∀ direction, (keyDirection direction sh).screen.filterMetrics.hasFrame =
      sh.screen.filterMetrics.hasFrame := fun direction => by
    unfold keyDirection
    split
    · unfold moveInGallery
      dsimp only
      split
      · rw [queueGalleryLoadLocked, queueGalleryLocked_metrics]
      · rfl
    · rfl
    · rfl
  have hvertical : ∀ down, (keyVertical down sh.screen).filterMetrics.hasFrame =
      sh.screen.filterMetrics.hasFrame := fun down => by
    unfold keyVertical
    split <;> rfl
  cases keyValue with
  | previous => exact hdirection (-1)
  | next => exact hdirection 1
  | up => exact hvertical false
  | down => exact hvertical true
  | confirm =>
    show (keyConfirm sh).screen.filterMetrics.hasFrame = _
    unfold keyConfirm
    split
    · dsimp only
      split <;> rw [queueGalleryDeleteLocked, queueGalleryLocked_metrics]
    · rfl
    · rfl
    · rfl
  | gallery =>
    show (keyGallery sh).screen.filterMetrics.hasFrame = _
    unfold keyGallery
    split
    · rfl
    · dsimp only
      split
      · rw [queueGalleryLoadLocked, queueGalleryLocked_metrics]
      · rfl
  | back =>
    show (keyBack sh.screen).2.filterMetrics.hasFrame = _
    unfold keyBack
    split <;> rfl
  | browser | record | focus | diagnostics | compare | capture | other => rfl

theorem call_hasFrame (filtered : Frame) (call : UiCall) (sh : Shared) :
    (call.run filtered sh).screen.filterMetrics.hasFrame = sh.screen.filterMetrics.hasFrame := by
  cases call with
  | key keyValue down timestampMs =>
    show (key keyValue down timestampMs sh).2.screen.filterMetrics.hasFrame = _
    unfold key
    split
    · rfl
    · split
      · rfl
      · exact keyEffect_hasFrame keyValue timestampMs _
  | touch action timestampMs =>
    cases action with
    | move =>
      simp only [UiCall.run, touch]
      split <;> rfl
    | up swipe => cases swipe <;> rfl
    | down | other => rfl
  | changeStyle delta =>
    simp only [UiCall.run, changeStyle]
    split <;> rfl
  | requestPhoto timestampMs =>
    simp only [UiCall.run, requestPhoto]
    split
    · rfl
    · split
      · rfl
      · split <;> rfl
  | submitJpeg jpeg timestampMs =>
    have hcases := submitJpeg_cases jpeg timestampMs sh.screen
    simp only [UiCall.run]
    generalize submitJpeg jpeg timestampMs sh.screen = r at hcases
    cases hcases <;> rfl
  | setFocus | configureStorage | noteAttempts => rfl

theorem publish_hasFrame (job : Job) (result : JobResult) (now freeBytes : Int) (p : PhotoStore)
    (sh : Shared) : (publish job result now freeBytes p sh).screen.filterMetrics.hasFrame =
      sh.screen.filterMetrics.hasFrame := by
  unfold publish
  dsimp only
  split
  · simp only [publishSave, mirrorPhoto]
    split <;> rfl
  · rfl
  · simp only [publishDelete, mirrorPhoto]
    split
    · rw [queueGalleryLoadLocked, queueGalleryLocked_metrics]
    · rfl
  · rfl

theorem installStore_hasFrame (state : PhotoStorageState) (settings : Option RuntimeSettings)
    (freeBytes : Int) (p : PhotoStore) (c : Screen) :
    (installStore state settings freeBytes p c).filterMetrics.hasFrame =
      c.filterMetrics.hasFrame := by
  cases settings <;> rfl

/-! ## What a step does to the raw frame -/

/-- The flags that say that there is a frame. -/
def Screen.flags (c : Screen) : Bool × Bool := (c.intake.hasRaw, c.filterMetrics.hasFrame)

/-- A step that does not decode: the raw frame stays as it is. -/
structure Undecoded (s s' : DisplayProbeWorker) (o : List Act) (e : Event) : Prop where
  event : ∀ ok raw, e ≠ .frame (.decoded ok raw)
  raw : s'.frame.raw = s.frame.raw
  seen : ∀ x ∈ o, x.isGood = false

inductive RawStep (s s' : DisplayProbeWorker) (o : List Act) (e : Event) : Prop where
  | aside (quiet : Undecoded s s' o e) (flags : s'.shared.screen.flags = s.shared.screen.flags)
      (call : s'.frame.pc.call? = s.frame.pc.call? ∨ s'.frame.pc.call? = none)
  /-- The raw frame is to be filtered anew. -/
  | again (quiet : Undecoded s s' o e) (flags : s'.shared.screen.flags = s.shared.screen.flags)
      (raw : s.shared.screen.intake.hasRaw = true) (call : FilterCall)
      (pc : s'.frame.pc.call? = some (call, false)) (source : call.source = s.frame.raw)
  /-- A call of `processFrame` is over. -/
  | finished (quiet : Undecoded s s' o e) (call : FilterCall) (input : Bool)
      (pc : s.frame.pc.call? = some (call, input))
      (flags : s'.shared.screen.flags = (input || s.shared.screen.intake.hasRaw, true))
      (resting : s'.frame.pc.call? = none)
  | decoded (ok : Bool) (raw : Frame) (event : e = .frame (.decoded ok raw)) (timestampMs : Int64)
      (seen : o = [.decoded s.shared.screen.intake.jpeg timestampMs ok raw])
      (screen : s'.shared.screen = s.shared.screen) (frame : s'.frame.raw = raw)
      (call : s'.frame.pc.call? = none ∨ ok = true ∧ ∃ call, s'.frame.pc.call? = some (call, true))

theorem Undecoded.frame {e : FrameEvent} {v : FrameView} (hd : ∀ ok raw, e ≠ .decoded ok raw)
    (hraw : v.frame.raw = s.frame.raw) :
    Undecoded s { s with shared.screen := v.screen, frame := v.frame } (e.acts s.frameView)
      (.frame e) := by
  refine ⟨fun ok raw he => ?_, hraw, ?_⟩
  · cases he
    exact hd ok raw rfl
  · unfold FrameEvent.acts
    split
    · exact absurd rfl (hd _ _)
    · exact none_good rfl
    · exact none_good rfl

theorem FrameEvent.raw_step {e : FrameEvent} {v : FrameView} (hv : e.run s.frameView = some v) :
    RawStep s { s with shared.screen := v.screen, frame := v.frame } (e.acts s.frameView)
      (.frame e) := by
  have hstep : e.Step s.frameView v := FrameEvent.run_step hv
  cases hstep with
  | exit now event pc running eq =>
    subst event eq
    exact .aside (.frame (by simp) rfl) rfl (.inr rfl)
  | take now event pc running pending eq =>
    subst event eq
    exact .aside (.frame (by simp) rfl) rfl (.inr rfl)
  | again now event pc running pending dirty raw eq =>
    subst event eq
    exact .again (.frame (by simp) rfl) rfl raw _ rfl rfl
  | idle now event pc running pending eq =>
    subst event eq
    refine .aside (.frame (by simp) rfl) ?_ (.inl rfl)
    exact congrArg₂ Prod.mk (renderNextLocked_look now s.shared.screen).2.1
      (renderNextLocked_hasFrame now s.shared.screen)
  | decoded ok raw settings usePrevious event pc eq =>
    subst event eq
    refine .decoded ok raw rfl settings.timestampMs (FrameEvent.decoded_acts pc) rfl rfl ?_
    cases ok with
    | false => exact .inl rfl
    | true => exact .inr ⟨rfl, _, rfl⟩
  | wrote pixels call input written event pc eq =>
    subst event eq
    have hpc : s.frame.pc = .filtering call input written := pc
    exact .aside (.frame (by simp) rfl) rfl (.inl (by rw [hpc]; rfl))
  | filtered call input written event pc eq =>
    subst event eq
    have hpc : s.frame.pc = .filtering call input written := pc
    exact .aside (.frame (by simp) rfl) rfl (.inl (by rw [hpc]; rfl))
  | finish now decodeMs filterMs call input event pc eq =>
    subst event eq
    have hpc : s.frame.pc = .finishing call input := pc
    refine .finished (.frame (by simp) rfl) call input (by rw [hpc]; rfl) ?_ rfl
    refine congrArg₂ Prod.mk ((renderNextLocked_look now _).2.1.trans ?_)
      ((renderNextLocked_hasFrame now _).trans ?_)
    · cases input <;> rfl
    · cases input <;> rfl
  | fail now decodeMs filterMs event pc eq =>
    subst event eq
    refine .aside (.frame (by simp) rfl) ?_ (.inr rfl)
    exact congrArg₂ Prod.mk (renderNextLocked_look now _).2.1 (renderNextLocked_hasFrame now _)

theorem PhotoEvent.flags_kept (hselected : s.shared.screen.Selected) {e : PhotoEvent}
    {v : PhotoView} (hv : e.run s.photoView = some v) :
    v.shared.screen.flags = s.shared.screen.flags := by
  have hstep : e.Step s.shared s.photo v := PhotoEvent.run_step hv
  cases hstep with
  | install freeBytes state settings event pc eq =>
    subst eq
    exact congrArg₂ Prod.mk
      (installStore_look hselected state settings freeBytes s.photo.store).2.1
      (installStore_hasFrame state settings freeBytes s.photo.store s.shared.screen)
  | publish job result now freeBytes event pc eq =>
    subst eq
    exact congrArg₂ Prod.mk (publish_look job result now freeBytes s.photo.store s.shared).2.1
      (publish_hasFrame job result now freeBytes s.photo.store s.shared)
  | exit event pc running eq => exact eq ▸ rfl
  | configure event pc eq => exact eq ▸ rfl
  | opened plan readable status event pc eq => exact eq ▸ rfl
  | take event pc pending eq => exact eq ▸ rfl
  | call job event pc eq => exact eq ▸ rfl
  | finish job work r event pc call eq => exact eq ▸ rfl
  | handBack job result event pc eq => exact eq ▸ rfl

/-- **What a step can do to the raw frame.** -/
theorem RawStep.of_step (hselected : s.shared.screen.Selected)
    (hs : worker.step s e = some (s', o)) : RawStep s s' o e := by
  cases e with
  | ui call =>
    cases hs
    have hseen := none_good (call_frames s.frame.filtered s.photo.store.entries s.shared call).1
    refine .aside ⟨by simp, rfl, hseen⟩ ?_ (.inl rfl)
    exact congrArg₂ Prod.mk (call_look s.frame.filtered call s.shared).2.1
      (call_hasFrame s.frame.filtered call s.shared)
  | frame e =>
    obtain ⟨v, hv, hs⟩ := Option.map_eq_some_iff.1 hs
    cases hs
    exact e.raw_step hv
  | photo e =>
    obtain ⟨v, hv, hs⟩ := Option.map_eq_some_iff.1 hs
    cases hs
    refine .aside ⟨by simp, rfl, none_good (e.acts_frames s.photoView v).1⟩ ?_ (.inl rfl)
    exact PhotoEvent.flags_kept hselected hv
  | owner created plan =>
    obtain ⟨v, hv, hs⟩ := Option.map_eq_some_iff.1 hs
    cases hs
    obtain ⟨running, complete, ready, state, hscreen⟩ := ownerStep_screen hv
    have hflags : s'.shared.screen.flags = s.shared.screen.flags := by
      rw [hscreen]
      rfl
    rcases ownerStep_frame hv with ⟨hframe, -⟩ | ⟨-, -, hframe⟩
    · exact .aside ⟨by simp, by rw [hframe], by simp⟩ hflags (.inl (by rw [hframe]))
    · exact .aside ⟨by simp, by rw [hframe], by simp⟩ hflags (.inr (by rw [hframe]; rfl))

/-! ## Where the raw frame comes from -/

/-- A new frame that is filtered is a good one; a frame that is filtered anew is the raw one. -/
structure Sourced (pico : List Act → Bytes → PicoJpeg) (l : List Act) (s : DisplayProbeWorker) :
    Prop where
  fresh : ∀ call, s.frame.pc.call? = some (call, true) → Shows pico l s.frame.raw
  again : ∀ call, s.frame.pc.call? = some (call, false) →
    call.source = s.frame.raw ∧ s.shared.screen.intake.hasRaw = true
  flags : s.shared.screen.filterMetrics.hasFrame = true → s.shared.screen.intake.hasRaw = true

theorem Sourced.kept_iff (h : Sourced pico l s) : RawKept pico l s ↔
    (s.shared.screen.intake.hasRaw = true → Shows pico l s.frame.raw) := by
  constructor
  · exact fun hk => hk.kept
  · intro hk
    refine ⟨hk, fun hf => hk (h.flags hf), fun call hc => ?_⟩
    obtain ⟨hsource, hraw⟩ := h.again call hc
    rw [hsource]
    exact hk hraw

theorem Shows.decoded {jpeg : Bytes} {timestampMs : Int64} {old raw : Frame}
    (h : (true, raw) = decodeReducedJpeg (pico l jpeg) jpeg old) :
    Shows pico (l ++ [.decoded jpeg timestampMs true raw]) raw := by
  obtain ⟨info, hinfo, hcomplete⟩ := decodeReducedJpeg_complete (congrArg Prod.fst h).symm
  exact ⟨l, jpeg, info, lastGood_decoded l jpeg timestampMs raw, hinfo,
    (congrArg Prod.snd h).trans hcomplete⟩

theorem Sourced.step (h : Sourced pico l s) (hd : decodesWith pico l s e)
    (hr : RawStep s s' o e) : Sourced pico (l ++ o) s' := by
  cases hr with
  | aside quiet flags call =>
    have hraw : s'.shared.screen.intake.hasRaw = s.shared.screen.intake.hasRaw :=
      congrArg Prod.fst flags
    have hframe : s'.shared.screen.filterMetrics.hasFrame =
        s.shared.screen.filterMetrics.hasFrame := congrArg Prod.snd flags
    have hcall : ∀ x, s'.frame.pc.call? = some x → s.frame.pc.call? = some x := fun x hx => by
      rcases call with hc | hc
      · exact hc ▸ hx
      · rw [hc] at hx
        cases hx
    refine ⟨fun c hc => ?_, fun c hc => ?_, fun hf => ?_⟩
    · rw [quiet.raw]
      exact (h.fresh c (hcall _ hc)).append quiet.seen
    · rw [quiet.raw, hraw]
      exact h.again c (hcall _ hc)
    · rw [hraw]
      exact h.flags (hframe ▸ hf)
  | again quiet flags raw call pc source =>
    have hraw : s'.shared.screen.intake.hasRaw = true := (congrArg Prod.fst flags).trans raw
    refine ⟨fun c hc => ?_, fun c hc => ?_, fun _ => hraw⟩
    · cases pc.symm.trans hc
    · cases pc.symm.trans hc
      exact ⟨source.trans quiet.raw.symm, hraw⟩
  | finished quiet call input pc flags resting =>
    have hraw : s'.shared.screen.intake.hasRaw = (input || s.shared.screen.intake.hasRaw) :=
      congrArg Prod.fst flags
    refine ⟨fun c hc => ?_, fun c hc => ?_, fun _ => ?_⟩
    · cases resting.symm.trans hc
    · cases resting.symm.trans hc
    · cases input with
      | true => exact hraw
      | false => exact hraw.trans (h.again call pc).2
  | decoded ok raw event timestampMs seen screen frame call =>
    subst seen frame
    have hdecode := hd ok _ event
    refine ⟨fun c hc => ?_, fun c hc => ?_, fun hf => ?_⟩
    · rcases call with hnone | ⟨rfl, -⟩
      · cases hnone.symm.trans hc
      · exact .decoded hdecode
    · rcases call with hnone | ⟨-, c', hc'⟩
      · cases hnone.symm.trans hc
      · cases hc'.symm.trans hc
    · rw [screen] at hf ⊢
      exact h.flags hf

theorem fresh_sourced (h : Fresh s) : Sourced pico [] s := by
  obtain ⟨now, root, model, version, status, memory, card, rfl⟩ := h
  exact ⟨(fun _ hc => by cases hc), (fun _ hc => by cases hc), fun hf => by cases hf⟩

theorem fresh_kept (h : Fresh s) : RawKept pico [] s := by
  obtain ⟨now, root, model, version, status, memory, card, rfl⟩ := h
  exact ⟨(fun hr => by cases hr), (fun hf => by cases hf), fun _ hc => by cases hc⟩

/-- **A step from a state that kept the frame leads to one just when it spoils nothing.** -/
theorem RawKept.step_iff (hk : RawKept pico l s) (h : Sourced pico l s)
    (hd : decodesWith pico l s e) (hr : RawStep s s' o e) :
    RawKept pico (l ++ o) s' ↔ spoilsNothing pico l s e := by
  have h' := h.step hd hr
  rw [h'.kept_iff]
  have hquiet : Undecoded s s' o e → spoilsNothing pico l s e :=
    fun hq ok raw he => absurd he (hq.event ok raw)
  cases hr with
  | aside quiet flags call =>
    refine iff_of_true (fun hraw => ?_) (hquiet quiet)
    rw [quiet.raw]
    exact (hk.kept ((congrArg Prod.fst flags).symm.trans hraw)).append quiet.seen
  | again quiet flags raw call pc source =>
    refine iff_of_true (fun _ => ?_) (hquiet quiet)
    rw [quiet.raw]
    exact (hk.kept raw).append quiet.seen
  | finished quiet call input pc flags resting =>
    refine iff_of_true (fun hraw => ?_) (hquiet quiet)
    rw [quiet.raw]
    cases input with
    | true => exact (h.fresh call pc).append quiet.seen
    | false => exact (hk.kept (h.again call pc).2).append quiet.seen
  | decoded ok raw event timestampMs seen screen frame call =>
    subst event seen frame
    have hdecode := hd ok _ rfl
    have hok := congrArg Prod.fst hdecode
    rw [screen]
    cases ok with
    | true =>
      refine iff_of_true (fun _ => .decoded hdecode) ?_
      rintro - - ⟨⟩ -
      exact .inl ((decodeReducedJpeg_iff s.frame.raw).1 hok.symm)
    | false =>
      have hraw : s'.frame.raw = _ := congrArg Prod.snd hdecode
      have hsame := decodeReducedJpeg_failed hok.symm
      rw [← hraw] at hsame
      have hold : s.shared.screen.intake.hasRaw = true → Shows pico
          (l ++ [.decoded s.shared.screen.intake.jpeg timestampMs false s'.frame.raw]) s.frame.raw :=
        fun h => (hk.kept h).append (by simp [Act.isGood])
      constructor
      · rintro hshow - - ⟨⟩ hraw
        exact .inr (hsame.1 ((hshow hraw).unique (hold hraw)))
      · intro hg hraw
        rcases hg false _ rfl hraw with hgood | hnew
        · rw [← decodeReducedJpeg_iff s.frame.raw, ← hok] at hgood
          cases hgood
        · have hshow := hold hraw
          rwa [← hsame.2 hnew] at hshow

theorem reach_sourced (h0 : Fresh s₀) (h : Reach worker (decodesWith pico) s₀ es l s) :
    Sourced pico l s := by
  refine (h.inv (I := fun l s => Sourced pico l s ∧ Bounded s ∧ Handoff s)
    ⟨fresh_sourced h0, fresh_bounded h0, fresh_handoff h0⟩ fun _ _ _ _ _ hi hg hs => ?_).1
  obtain ⟨hsourced, hbounded, hh⟩ := hi
  exact ⟨hsourced.step hg (.of_step hbounded.selected hs), hbounded.step hh hs, hh.step hs⟩

/-- Where nothing is spoiled, the frame is kept. -/
theorem reach_kept (h0 : Fresh s₀)
    (h : Reach worker (fun l s e => decodesWith pico l s e ∧ spoilsNothing pico l s e) s₀ es l s) :
    RawKept pico l s := by
  induction h with
  | init => exact fresh_kept h0
  | step h hg hs ih =>
    have hsourced := reach_sourced h0 (h.mono fun _ _ _ hg => hg.1)
    have hselected := (reach_bounded h0 h.run).selected
    exact (ih.step_iff hsourced hg.1 (.of_step hselected hs)).2 hg.2

/-- **The runs that keep the last good frame are those in which no failing decode writes
anything new over it.** -/
theorem raw_kept_iff (pico : List Act → Bytes → PicoJpeg) (h0 : Fresh s₀) :
    Reach worker (fun l s e => decodesWith pico l s e ∧ spoilsNothing pico l s e) s₀ es l s ↔
      Reach worker (fun l s e => decodesWith pico l s e ∧ RawKept pico l s) s₀ es l s ∧
        RawKept pico l s := by
  constructor
  · intro h
    refine ⟨?_, reach_kept h0 h⟩
    induction h with
    | init => exact .init
    | step h hg hs ih => exact .step ih ⟨hg.1, reach_kept h0 h⟩ hs
  · rintro ⟨h, hk⟩
    induction h with
    | init => exact .init
    | step h hg hs ih =>
      have hsourced := reach_sourced h0 (h.mono fun _ _ _ hg => hg.1)
      have hselected := (reach_bounded h0 h.run).selected
      exact .step (ih hg.2)
        ⟨hg.1, (hg.2.step_iff hsourced hg.1 (.of_step hselected hs)).1 hk⟩ hs

/-! ## A torn frame -/

/-- A JPEG of 640x480 without subsampling: one quantization table of 16s, a DC table with the
codes 0 for no change and 10 for a change of six bits, an AC table with the code 0 for the end of
a block; `restart` goes before the scan. -/
def sampleJpeg (restart scan : Bytes) : Bytes :=
  List.flatten [[0xff, 0xd8], [0xff, 0xdb, 0, 0x43, 0], List.replicate 64 16,
    [0xff, 0xc0, 0, 0x11, 8, 0x01, 0xe0, 0x02, 0x80, 3, 1, 0x11, 0, 2, 0x11, 0, 3, 0x11, 0],
    [0xff, 0xc4, 0, 0x15, 0, 1, 1], List.replicate 14 0, [0, 6],
    [0xff, 0xc4, 0, 0x14, 0x10, 1], List.replicate 15 0, [0], restart,
    [0xff, 0xda, 0, 0x0c, 3, 1, 0, 2, 0, 3, 0, 0, 0x3f, 0], scan, [0xff, 0xd9]]

/-- Six bits for each of 4800 MCUs, none of which changes anything. -/
def greyJpeg : Bytes := sampleJpeg [] (List.replicate 3600 0)

/-- One dark MCU, and no restart marker where one has to follow. -/
def tornJpeg : Bytes := sampleJpeg [0xff, 0xdd, 0, 4, 0, 1] [0x80, 0]

/-- The reduced mode fills the first place of each block only. -/
def greyMcu (v : UInt8) : Mcu :=
  let plane := fun i => if i = 0 then v else 0
  ⟨plane, plane, plane⟩

def sampleInfo : ImageInfo := ⟨640, 480, .yh1v1⟩

def greyPico : PicoJpeg := ⟨some sampleInfo, fun k => if k < 4800 then some (greyMcu 128) else none⟩

def tornPico : PicoJpeg := ⟨some sampleInfo, fun k => if k = 0 then some (greyMcu 2) else none⟩

def samplePico (_ : List Act) (jpeg : Bytes) : PicoJpeg :=
  if jpeg = greyJpeg then greyPico else if jpeg = tornJpeg then tornPico else ⟨none, fun _ => none⟩

def greyFrame : Frame := completeDecode greyPico sampleInfo

theorem samplePico_grey : samplePico l greyJpeg = greyPico := if_pos rfl

theorem samplePico_torn : samplePico l tornJpeg = tornPico :=
  (if_neg (by decide +kernel)).trans (if_pos rfl)

theorem greyJpeg_decodes : Decodes greyPico greyJpeg := by
  refine ⟨sampleInfo, ⟨by decide +kernel, rfl, rfl, rfl⟩, fun j hj => ?_⟩
  have hlt : j < 4800 := hj
  simp [greyPico, hlt]

theorem greyJpeg_decoded (old : Frame) :
    decodeReducedJpeg greyPico greyJpeg old = (true, greyFrame) := by
  have hok := (decodeReducedJpeg_iff old).2 greyJpeg_decodes
  obtain ⟨info, hinfo, hframe⟩ := decodeReducedJpeg_complete hok
  cases hinfo
  exact Prod.ext hok hframe

/-- A JPEG without a header. -/
def emptyJpeg : Bytes := [0xff, 0xd8, 0xff, 0xd9]

theorem samplePico_empty : (samplePico l emptyJpeg).decodeInit = none :=
  congrArg PicoJpeg.decodeInit
    ((if_neg (by decide +kernel)).trans (if_neg (by decide +kernel)))

theorem emptyJpeg_refused (old : Frame) :
    decodeReducedJpeg (samplePico l emptyJpeg) emptyJpeg old = (false, old) := by
  rw [decodeReducedJpeg, samplePico_empty, ite_self]

/-- A grey frame; the style is changed after it, and the frame filtered anew. -/
def greySession : List Event :=
  List.flatten [Event.startUp, [.ui (.submitJpeg (some greyJpeg) 100), .frame (.turn 0),
    .frame (.decoded true greyFrame), .frame .filtered, .frame (.finish 0 0 0), .press .next,
    .frame (.turn 0), .frame .filtered, .frame (.finish 0 0 0)]]

/-- Behind the grey frame one is refused at its header, and the grey one filtered anew. -/
def refusedSession : List Event :=
  List.flatten [greySession, [.ui (.submitJpeg (some emptyJpeg) 200), .frame (.turn 0),
    .frame (.decoded false greyFrame), .frame (.finish 0 0 0), .press .next, .frame (.turn 0),
    .frame .filtered]]

def decodesSamples (l : List Act) (s : DisplayProbeWorker) : Event → Bool
  | .frame (.decoded ok _) =>
    s.shared.screen.intake.jpeg == (if ok then greyJpeg else emptyJpeg) &&
      (ok || (lastGood l).isSome)
  | _ => true

/-- All decodes leave the grey frame. -/
def leavesGrey (e : Event) : Prop := ∀ ok raw, e = .frame (.decoded ok raw) → raw = greyFrame

/-- A run of the samples is one of the decoder, and spoils nothing. -/
theorem samples_reach {es : List Event}
    (h : Reach worker (fun l s e => decodesSamples l s e = true ∧ leavesGrey e) sampleWorker es l s) :
    Reach worker (fun l s e => decodesWith samplePico l s e ∧ spoilsNothing samplePico l s e)
        sampleWorker es l s ∧
      ((lastGood l).isSome = true → s.frame.raw = greyFrame) := by
  induction h with
  | init => exact ⟨.init, fun h => by cases h⟩
  | step h hg hs ih =>
    rename_i s e s' o
    obtain ⟨hrun, hgrey⟩ := ih
    have hselected := (reach_bounded sample_fresh hrun.run).selected
    refine ⟨hrun.step ⟨fun ok raw he => ?_, fun ok raw he _ => ?_⟩ hs, fun hgood => ?_⟩
    · obtain rfl := hg.2 ok raw he
      subst he
      cases ok with
      | true =>
        have hjpeg := beq_iff_eq.1 (Bool.and_eq_true_iff.1 hg.1).1
        rw [hjpeg, if_pos rfl, samplePico_grey]
        exact (greyJpeg_decoded s.frame.raw).symm
      | false =>
        obtain ⟨hjpeg, hgood⟩ := Bool.and_eq_true_iff.1 hg.1
        rw [beq_iff_eq.1 hjpeg, if_neg (by decide), emptyJpeg_refused, hgrey hgood]
    · subst he
      have hjpeg := beq_iff_eq.1 (Bool.and_eq_true_iff.1 hg.1).1
      cases ok with
      | true =>
        rw [hjpeg, if_pos rfl, samplePico_grey]
        exact .inl greyJpeg_decodes
      | false =>
        refine .inr fun info ha => ?_
        rw [hjpeg, if_neg (by decide)] at ha
        cases samplePico_empty.symm.trans ha.header
    · cases RawStep.of_step hselected hs with
      | aside quiet | again quiet | finished quiet =>
        rw [lastGood_append quiet.seen] at hgood
        exact quiet.raw.trans (hgrey hgood)
      | decoded ok raw event timestampMs seen screen frame => exact frame.trans (hg.2 ok raw event)

/-- Executing a run of the samples. -/
theorem samples_run (events : List Event) (hevents : ∀ e ∈ events, leavesGrey e)
    {p : DisplayProbeWorker × List Act → Bool}
    (h : (worker.execIf decodesSamples [] sampleWorker events).any p = true) :
    ∃ l s, Reach worker (fun l s e => decodesWith samplePico l s e ∧ spoilsNothing samplePico l s e)
      sampleWorker events l s ∧ ((lastGood l).isSome = true → s.frame.raw = greyFrame) ∧
        p (s, l) = true := by
  obtain ⟨l, s, hrun, hp⟩ := reach_of_execIf (M := worker) (g := decodesSamples)
    (s := sampleWorker) events (p := p) (fun _ _ _ h => h) h
  obtain ⟨hreach, hgrey⟩ := samples_reach (hrun.mem.mono fun _ _ e hg => ⟨hg.1, hevents e hg.2⟩)
  exact ⟨l, s, hreach, hgrey, hp⟩

theorem greySession_leaves : ∀ e ∈ greySession, leavesGrey e := by
  rintro e he ok raw rfl
  have hdecoded : ok = true ∧ raw = greyFrame := by
    simpa [greySession, Event.startUp, Event.go, Event.press] using he
  exact hdecoded.2

theorem refusedSession_leaves : ∀ e ∈ refusedSession, leavesGrey e := by
  intro e he
  simp only [refusedSession, List.flatten_cons, List.flatten_nil, List.append_nil,
    List.mem_append] at he
  rcases he with he | he
  · exact greySession_leaves e he
  · rintro ok raw rfl
    have hdecoded : ok = false ∧ raw = greyFrame := by simpa [Event.press] using he
    exact hdecoded.2

/-- The grey frame is kept while a decode is refused behind it. -/
theorem raw_kept_session : ∃ l s,
    Reach worker (fun l s e => decodesWith samplePico l s e ∧ spoilsNothing samplePico l s e)
      sampleWorker refusedSession l s ∧ s.shared.screen.intake.hasRaw = true ∧
        s.shared.screen.filterMetrics.decodeFailures = 1 ∧ RawKept samplePico l s := by
  obtain ⟨l, s, h, -, hp⟩ := samples_run refusedSession refusedSession_leaves
    (p := fun x => x.1.shared.screen.intake.hasRaw &&
      x.1.shared.screen.filterMetrics.decodeFailures == 1) (by decide +kernel)
  simp only [Bool.and_eq_true, beq_iff_eq] at hp
  exact ⟨l, s, h, hp.1, hp.2, ((raw_kept_iff samplePico sample_fresh).1 h).2⟩

/-- The grey frame, and the torn one taken after it. -/
def tornSession : List Event :=
  greySession ++ [.ui (.submitJpeg (some tornJpeg) 200), .frame (.turn 0)]

theorem tornSession_leaves : ∀ e ∈ tornSession, leavesGrey e := by
  intro e he
  rcases List.mem_append.1 he with he | he
  · exact greySession_leaves e he
  · rintro ok raw rfl
    simp at he

theorem tornJpeg_fails : ¬ Decodes tornPico tornJpeg := by
  rintro ⟨info, ha, hall⟩
  cases ha.header
  exact absurd (hall 1 (by decide)) (by decide)

/-- The torn frame has something new: its first pixel is dark. -/
theorem tornJpeg_new : ¬ NothingNew tornPico tornJpeg greyFrame := by
  intro h
  have hpixel := h sampleInfo ⟨by decide +kernel, rfl, rfl, rfl⟩ 0 (by decide) (by decide)
  rw [greyFrame, completeDecode_pixels _ _ (by decide)] at hpixel
  exact absurd hpixel (by decide)

/-- The grey frame is lost: its first block is that of the torn one. -/
theorem torn_not_kept : ∃ raw l s,
    Reach worker (decodesWith samplePico) sampleWorker
      (tornSession ++ [.frame (.decoded false raw)]) l s ∧ ¬ RawKept samplePico l s := by
  obtain ⟨l, s, h, hgood, hp⟩ := samples_run tornSession tornSession_leaves
    (p := fun x => x.1.shared.screen.intake.hasRaw && x.1.frame.pc.isDecoding &&
      x.1.shared.screen.intake.jpeg == tornJpeg && (lastGood x.2).isSome) (by decide +kernel)
  simp only [Bool.and_eq_true, beq_iff_eq] at hp
  obtain ⟨⟨⟨hraw, hdecoding⟩, hjpeg⟩, hlast⟩ := hp
  have hgrey := hgood hlast
  have hk := reach_kept sample_fresh h
  have hsourced := reach_sourced sample_fresh (h.mono fun _ _ _ hg => hg.1)
  have hselected := (reach_bounded sample_fresh h.run).selected
  have hok : (decodeReducedJpeg tornPico tornJpeg s.frame.raw).1 = false := by
    rw [← Bool.not_eq_true, decodeReducedJpeg_iff]
    exact tornJpeg_fails
  have hd : decodesWith samplePico l s
      (.frame (.decoded false (decodeReducedJpeg tornPico tornJpeg s.frame.raw).2)) := by
    rintro ok raw he
    cases he
    rw [hjpeg, samplePico_torn, ← hok]
  obtain ⟨s', o, hs⟩ : ∃ s' o, worker.step s
      (.frame (.decoded false (decodeReducedJpeg tornPico tornJpeg s.frame.raw).2)) =
        some (s', o) := by
    cases hpc : s.frame.pc with
    | decoding settings usePrevious =>
      simp [worker, DisplayProbeWorker.step, FrameEvent.run, DisplayProbeWorker.frameView, hpc]
    | _ => simp [hpc, RunLoop.isDecoding] at hdecoding
  refine ⟨_, _, _, (h.mono fun _ _ _ hg => hg.1).step hd hs, fun hk' => ?_⟩
  rcases (hk.step_iff hsourced hd (.of_step hselected hs)).1 hk' false _ rfl hraw with hg | hg
  · rw [hjpeg, samplePico_torn] at hg
    exact tornJpeg_fails hg
  · rw [hjpeg, samplePico_torn, hgrey] at hg
    exact tornJpeg_new hg

end RetroLens.Worker
