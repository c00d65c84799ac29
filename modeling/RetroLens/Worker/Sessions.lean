import RetroLens.Store.Session
import RetroLens.Worker.Gate

/-!
# The session behind a worker

The photo thread is the only caller of the store. What the log has of its
calls, an opening and then saves and deletions, is the log of a session, and
the store and the card of the worker are where that session is
(`run_session`). So what holds of sessions holds of a worker, up to the
settings that the owner writes as its last act.
-/

namespace RetroLens.Worker

open Text RetroLens.Core Store Runs

/-- What is noted of a call of the store. -/
inductive StoreNote where
  | initialized (state : PhotoStorageState)
  | saved (photo : Photo) (encodedCapacity : Int) (ok : Bool)
  | deleted (newestIndex : Int) (ok : Bool)

def Act.storeNote : Act → Option StoreNote
  | initialized state => some (.initialized state)
  | saveReturned photo ok => some (.saved photo encodedCapacity ok)
  | deleteReturned galleryIndex _ _ ok => some (.deleted galleryIndex ok)
  | _ => none

/-- The calls of the store in a log. -/
def storeNotes (l : List Act) : List StoreNote := l.filterMap Act.storeNote

/-- What a session notes of its own calls. -/
def answerNote : Answer → StoreNote
  | (.save _ photo encodedCapacity, ok) => .saved photo encodedCapacity ok
  | (.delete _ newestIndex, ok) => .deleted newestIndex ok

/-- Where a session starts: with the store as it is, or as `initialize` leaves it. -/
inductive Opens (x : Session) : Session → List StoreNote → Prop where
  | unopened : Opens x x []
  | opened (plan : InitPlan) : Opens x (initializeStore plan x.1 x.2)
      [.initialized (initializeStore plan x.1 x.2).1.storageState]

/-- The calls that are noted bring `x` to `x'`. -/
def Serves (x : Session) (notes : List StoreNote) (x' : Session) : Prop :=
  ∃ x₀ first calls answers, Opens x x₀ first ∧ Run store x₀ calls answers x' ∧
    notes = first ++ answers.map answerNote

variable {s s' s₀ : DisplayProbeWorker} {l o : List Act} {es : List Event} {e : Event}
  {x x' : Session} {notes : List StoreNote}

theorem Serves.none : Serves x [] x := ⟨x, [], [], [], .unopened, .init, rfl⟩

theorem Serves.opening (plan : InitPlan) :
    Serves x [.initialized (initializeStore plan x.1 x.2).1.storageState]
      (initializeStore plan x.1 x.2) :=
  ⟨_, _, [], [], .opened plan, .init, rfl⟩

/-- A further call. -/
theorem Serves.call (h : Serves x notes x') (call : Call) :
    Serves x (notes ++ [answerNote (call, (call.run x'.1 x'.2).1)]) (call.run x'.1 x'.2).2 := by
  obtain ⟨x₀, first, calls, answers, hopens, hrun, rfl⟩ := h
  refine ⟨x₀, first, calls ++ [call], answers ++ [(call, (call.run x'.1 x'.2).1)], hopens,
    hrun.step (e := call) trivial rfl, ?_⟩
  rw [List.map_append, List.append_assoc]
  rfl

theorem storeNotes_append (l o : List Act) : storeNotes (l ++ o) = storeNotes l ++ storeNotes o :=
  List.filterMap_append

theorem storeNotes_quiet (h : Quiet o) : storeNotes o = [] := by
  refine List.filterMap_eq_nil_iff.2 fun a ha => ?_
  obtain ⟨hopens, huses⟩ := h a ha
  cases a with
  | initialized => exact nomatch hopens
  | saveReturned | deleteReturned => exact nomatch huses
  | _ => rfl

/-! ## The invariant -/

namespace DisplayProbeWorker

/-- The store and the card. -/
def session (s : DisplayProbeWorker) : Session := (s.photo.store, s.photo.world)

end DisplayProbeWorker

/-- Until the owner stops, the worker is where its calls of the store have brought it. -/
structure InSession (s₀ : DisplayProbeWorker) (l : List Act) (s : DisplayProbeWorker) : Prop where
  serves : Serves s₀.session (storeNotes l) s.session
  /-- Before the store is opened nothing has happened to it. -/
  early : s.photo.pc.early = true → storeNotes l = [] ∧ s.session = s₀.session

/-- A step without a call of the store. -/
theorem InSession.quiet (h : InSession s₀ l s) (ho : storeNotes o = [])
    (hsession : s'.session = s.session)
    (hearly : s'.photo.pc.early = true → s.photo.pc.early = true) : InSession s₀ (l ++ o) s' where
  serves := by
    rw [storeNotes_append, ho, List.append_nil, hsession]
    exact h.serves
  early hpc := by
    rw [storeNotes_append, ho, List.append_nil, hsession]
    exact h.early (hearly hpc)

/-- A section of the photo thread that calls the store, once it is opened. -/
theorem InSession.called (h : InSession s₀ l s) (call : Call)
    (ho : storeNotes o = [answerNote (call, (call.run s.photo.store s.photo.world).1)])
    (hsession : s'.session = (call.run s.photo.store s.photo.world).2)
    (hlate : s'.photo.pc.early = false) : InSession s₀ (l ++ o) s' where
  serves := by
    rw [storeNotes_append, ho, hsession]
    exact h.serves.call call
  early hpc := by
    rw [hlate] at hpc
    cases hpc

/-- The opening is the first that happens to the store. -/
theorem InSession.initialized (h : InSession s₀ l s) (hpc : s.photo.pc.early = true)
    (plan : InitPlan)
    (ho : storeNotes o =
      [.initialized (initializeStore plan s.photo.store s.photo.world).1.storageState])
    (hsession : s'.session = initializeStore plan s.photo.store s.photo.world)
    (hlate : s'.photo.pc.early = false) : InSession s₀ (l ++ o) s' where
  serves := by
    obtain ⟨hnone, hstart⟩ := h.early hpc
    rw [storeNotes_append, hnone, ho, hsession, ← hstart]
    exact .opening plan
  early hpc := by
    rw [hlate] at hpc
    cases hpc

theorem InSession.photo (h : InSession s₀ l s) (hh : Handoff s) {e : PhotoEvent} {v : PhotoView}
    (hv : e.run s.photoView = some v) :
    InSession s₀ (l ++ e.acts s.photoView v) { s with shared := v.shared, photo := v.photo } := by
  have hentry := PhotoEvent.run_entry hv
  have hstep : worker.step s (.photo e) = some
      ({ s with shared := v.shared, photo := v.photo }, e.acts s.photoView v) :=
    Option.map_eq_some_iff.2 ⟨v, hv, rfl⟩
  have hearly := step_early hh hstep
  generalize e.acts s.photoView v = o at hentry ⊢
  -- where the call of a job is, the store is open
  have hlate : ∀ {job}, s.photo.pc = .calling job → v.photo.pc.early = false := fun hpc => by
    by_contra hn
    have := hearly (by simpa using hn)
    rw [hpc] at this
    cases this
  cases hentry with
  | silent hstore hworld => exact h.quiet rfl (Prod.ext hstore hworld) hearly
  | initialized plan readable settings event pc call next =>
    refine h.initialized (by rw [show s.photo.pc = _ from pc]; rfl) plan ?_ call.symm ?_
    · exact congrArg (fun x => [StoreNote.initialized x.1.storageState]) call.symm
    · exact congrArg PhotoLoop.early next
  | saveCalled job event pc save hstore hworld =>
    exact h.quiet rfl (Prod.ext hstore hworld) hearly
  | saved job plan encoded event pc save call =>
    refine h.called (.save plan (job.photo s.shared.photoFrame) encodedCapacity) ?_
      (congrArg Prod.snd call).symm (hlate pc)
    exact congrArg (fun x => [StoreNote.saved _ encodedCapacity x.1.isSome]) call.symm
  | loaded job work ok event pc load hstore hworld =>
    exact h.quiet rfl (Prod.ext hstore hworld) hearly
  | deleted job plan ok event pc delete call =>
    refine h.called (.delete plan job.galleryIndex) ?_ (congrArg Prod.snd call).symm (hlate pc)
    exact congrArg (fun x => [StoreNote.deleted _ x.1]) call.symm

/-- The owner's steps before its last. -/
theorem InSession.owner (h : InSession s₀ l s) (hh : Handoff s) {created : Bool} {plan : FilePlan}
    (hs : ownerStep created plan s = some s') (hc : s'.control ≠ .stopped) :
    InSession s₀ (l ++ []) s' := by
  have hk := hh.owner_keeps hs
  refine h.quiet rfl (Prod.ext hk.store ?_) fun hpc => ?_
  · exact (ownerStep_world hs).resolve_right fun hstop => hc hstop.2
  · rcases hk.pc with hsame | ⟨hnot, -⟩
    · rw [← hsame]
      exact hpc
    · rw [hnot]
      rfl

/-- Every step before the owner's last one. -/
theorem InSession.step (h : InSession s₀ l s) (hh : Handoff s)
    (hs : worker.step s e = some (s', o)) (hc : s'.control ≠ .stopped) :
    InSession s₀ (l ++ o) s' := by
  cases e with
  | ui call =>
    cases hs
    exact h.quiet (storeNotes_quiet (call_quiet _ _ _ _)) rfl id
  | frame e =>
    obtain ⟨v, hv, hs⟩ := Option.map_eq_some_iff.1 hs
    cases hs
    exact h.quiet (storeNotes_quiet (frame_quiet _ _)) rfl id
  | photo e =>
    obtain ⟨v, hv, hs⟩ := Option.map_eq_some_iff.1 hs
    cases hs
    exact h.photo hh hv
  | owner created plan =>
    obtain ⟨v, hv, hs⟩ := Option.map_eq_some_iff.1 hs
    cases hs
    exact h.owner hh hv hc

/-- Nothing leads out of the state that the owner's last step leaves. -/
theorem step_control (hs : worker.step s e = some (s', o)) (hc : s'.control ≠ .stopped) :
    s.control ≠ .stopped := by
  cases e with
  | ui call =>
    cases hs
    exact hc
  | frame e | photo e =>
    obtain ⟨v, hv, hs⟩ := Option.map_eq_some_iff.1 hs
    cases hs
    exact hc
  | owner created plan =>
    obtain ⟨v, hv, hs⟩ := Option.map_eq_some_iff.1 hs
    intro hstopped
    rw [ownerStep, hstopped] at hv
    cases hv

/-! ## Runs -/

/-- **The worker's store is a session.** Its state and its card are where the calls in the log have
brought them, until the owner has stopped. -/
theorem run_session (h0 : Fresh s₀) (h : Run worker s₀ es l s) (hc : s.control ≠ .stopped) :
    Serves s₀.session (storeNotes l) s.session := by
  have hin : s.control ≠ .stopped → InSession s₀ l s := by
    clear hc
    induction h with
    | init => exact fun _ => ⟨.none, fun _ => ⟨rfl, rfl⟩⟩
    | step h _ hs ih =>
      intro hc
      exact (ih (step_control hs hc)).step (reach_handoff h0 h) hs hc
  exact (hin hc).serves

/-- Once the store has been opened and is ready, its session has begun. -/
theorem run_begun (h0 : Fresh s₀) (h : Run worker s₀ es l s) (hc : s.control ≠ .stopped)
    (hready : .initialized .ready ∈ l) :
    ∃ x₀ calls answers, Begun x₀ ∧ Run store x₀ calls answers s.session ∧
      storeNotes l = .initialized .ready :: answers.map answerNote := by
  obtain ⟨x₀, first, calls, answers, hopens, hrun, hnotes⟩ := run_session h0 h hc
  have hmem : StoreNote.initialized .ready ∈ first ++ answers.map answerNote := by
    rw [← hnotes]
    exact List.mem_filterMap.2 ⟨_, hready, rfl⟩
  have hfirst : StoreNote.initialized .ready ∈ first := by
    refine (List.mem_append.1 hmem).resolve_right fun hanswer => ?_
    obtain ⟨⟨call, ok⟩, -, hcall⟩ := List.mem_map.1 hanswer
    cases call <;> cases hcall
  cases hopens with
  | unopened => cases hfirst
  | opened plan =>
    have hstate := StoreNote.initialized.inj (List.mem_singleton.1 hfirst)
    refine ⟨_, calls, answers, ⟨⟨plan, _, _, rfl⟩, hstate.symm⟩, hrun, ?_⟩
    rw [hnotes, ← hstate]
    rfl

end RetroLens.Worker
