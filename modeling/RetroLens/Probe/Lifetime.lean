import RetroLens.Probe.Controller

/-!
# The lifetime of a probe handle

Every method that uses the handle from another thread holds the monitor from
its read of `handle` to the return of the native call, and `stop` destroys the
probe inside the monitor. `fail` does not take the monitor: reached from a tick
or a surface callback it destroys the probe under a worker that has read the
handle (`destroyed_in_use`). Where no such destruction begins, no call is on a
destroyed handle (`lifetime`).
-/

namespace RetroLens.Probe

open Threads Threads.Prog Runs

abbrev Handles := State ThreadId Controller NativeCall Reply Native

/-- No call is on a handle whose destruction has begun, but for the one destruction itself. -/
def Lifetime (s : Handles) : Prop :=
  s.world.begun.Nodup ∧ ∀ t c h, (s.thread t).inProgress = some c → c.handle = some h →
    h ∈ s.world.begun → c = .destroy h

/-- A destruction outside the monitor finds no other thread with a native call
on that handle begun or about to begin. -/
def DestroysUnused : Guard Handles (Event ThreadId Entry Reply) (ThreadId × NativeCall) :=
  fun _ s e => ∀ t h, e = .run t → (s.thread t).pending = some (.destroy h) →
    (∀ n, s.owner ≠ some (t, n)) →
      ∀ u c, u ≠ t → (s.thread u).pending = some c → c.handle ≠ some h

/-! ## The UI thread -/

/-- What holds of the fields and the handles after every step of the UI thread. -/
structure Inv (m : Controller) (w : Native) : Prop where
  fresh : m.handle ≠ 0 → m.handle ∉ w.begun
  bound : m.handle ≤ w.created
  begun : ∀ h ∈ w.begun, h ≤ w.created
  nodup : w.begun.Nodup
  created : 0 ≤ w.created

/-- A call of the UI thread is on a live handle. -/
def Live (c : NativeCall) (_ : Controller) (w : Native) : Prop :=
  ∀ h, c.handle = some h → h ∉ w.begun

/-- A method of the UI thread that keeps `Inv` at every step and calls on live handles only. -/
def Keeps {α : Type} (p : Method α) : Prop :=
  ∀ m w, Inv m w → p.wp system.toWorld Inv Live (fun _ => Inv) m w

/-- A call that neither creates nor destroys a probe. -/
def NativeCall.Plain : NativeCall → Prop
  | .create _ _ | .destroy _ => False
  | _ => True

section

variable {α β : Type} {m : Controller} {w : Native} {Q : α → Controller → Native → Prop}

theorem Inv.of_handle {m' : Controller} (h : Inv m w) (hm : m'.handle = m.handle) : Inv m' w :=
  ⟨hm ▸ h.fresh, hm ▸ h.bound, h.begun, h.nodup, h.created⟩

theorem plain_start {c : NativeCall} (hc : c.Plain) : system.start w c = w := by
  cases c <;> first | rfl | exact hc.elim

theorem plain_reply {c : NativeCall} {r : Reply} {w' : Native} (hc : c.Plain)
    (h : system.reply w c r = some w') : w' = w := by
  cases c <;> first | exact hc.elim | (cases h; rfl)

theorem reply_begun {c : NativeCall} {r : Reply} {w' : Native}
    (h : system.reply w c r = some w') : w'.begun = w.begun := by
  simp only [system, Native.reply] at h
  split at h
  · split at h
    · cases h; rfl
    · split at h
      · cases h; rfl
      · cases h
  · cases h; rfl

/-- A plain call on a live handle changes nothing. -/
theorem invoke_wp {c : NativeCall} {Q : Reply → Controller → Native → Prop} (hc : c.Plain)
    (hi : Inv m w) (hl : Live c m w) (hQ : ∀ r, Q r m w) :
    (invoke c : Method Reply).wp system.toWorld Inv Live Q m w := by
  refine ⟨hl, by rwa [plain_start hc], fun r w' hr => ?_⟩
  rw [plain_start hc] at hr
  rw [plain_reply hc hr]
  exact ⟨hi, hQ r⟩

/-- A call on the handle just read, or on none, is on a live one. -/
theorem Inv.live {c : NativeCall} (h : Inv m w)
    (hc : ∀ x, c.handle = some x → x = m.handle ∧ x ≠ 0) : Live c m w := fun x hx => by
  obtain ⟨rfl, h0⟩ := hc x hx
  exact h.fresh h0

theorem Keeps.wp {p : Method α} (hp : Keeps p) (hi : Inv m w)
    (hQ : ∀ a m w, Inv m w → Q a m w) : p.wp system.toWorld Inv Live Q m w :=
  wp_mono hQ (hp m w hi)

theorem Keeps.pure (a : α) : Keeps (Pure.pure a : Method α) := fun _ _ h => h

theorem Keeps.bind {p : Method α} {f : α → Method β} (hp : Keeps p) (hf : ∀ a, Keeps (f a)) :
    Keeps (p >>= f) := fun _ _ h => (wp_bind _ _ _ _ _).2 (hp.wp h fun a m w h => hf a m w h)

theorem Keeps.get (f : Controller → α) : Keeps (Prog.get f : Method α) := fun _ _ h => h

theorem Keeps.set {f : Controller → Controller} (hf : ∀ m, (f m).handle = m.handle) :
    Keeps (Prog.set f : Method Unit) := fun m _ h => ⟨h.of_handle (hf m), h.of_handle (hf m)⟩

theorem Keeps.synchronized {p : Method α} (hp : Keeps p) : Keeps (Prog.synchronized p) :=
  fun m w h => (wp_synchronized ..).2 (hp m w h)

theorem Keeps.ite {c : Prop} [Decidable c] {p q : Method α} (hp : Keeps p) (hq : Keeps q) :
    Keeps (if c then p else q) := by
  split
  · exact hp
  · exact hq

theorem Keeps.discard {p : Method α} (hp : Keeps p) : Keeps (discard p) :=
  hp.bind fun _ => .pure ()

end

namespace Controller

theorem onProbe_keeps (unavailable : Int) {c : Int → NativeCall} (hp : ∀ h, (c h).Plain)
    (hc : ∀ h, (c h).handle = some h) : Keeps (onProbe unavailable c) := by
  intro m w h
  simp only [onProbe, wp_bind, wp_get, wp_ite, wp_pure]
  split
  · exact h
  · rename_i hh
    exact invoke_wp (hp _) h (h.live fun x hx => by simp [hc] at hx; simp [← hx, hh]) fun _ => h

theorem updateSequenceMetrics_keeps (state : Int) : Keeps (updateSequenceMetrics state) :=
  .synchronized (onProbe_keeps _ (fun _ => trivial) fun _ => rfl)

theorem changeStyle_keeps (delta : Int) : Keeps (changeStyle delta) :=
  .synchronized (onProbe_keeps _ (fun _ => trivial) fun _ => rfl)

theorem key_keeps (k : Int) (down : Bool) : Keeps (key k down) :=
  .synchronized (onProbe_keeps _ (fun _ => trivial) fun _ => rfl)

theorem requestPhoto_keeps : Keeps requestPhoto :=
  .synchronized (onProbe_keeps _ (fun _ => trivial) fun _ => rfl)

theorem setFocus_keeps (active : Bool) : Keeps (setFocus active) := by
  refine .synchronized fun m w h => ?_
  simp only [wp_bind, wp_get, wp_ite, wp_pure]
  split
  · rename_i hh
    exact invoke_wp trivial h (h.live (by simpa [NativeCall.handle] using hh)) fun _ => h
  · exact h

theorem onTouch_keeps (width height action : Int) : Keeps (onTouch width height action) := by
  refine .synchronized fun m w h => ?_
  simp only [wp_bind, wp_get, wp_ite, wp_pure]
  split
  · exact h
  · rename_i hh
    simp only [not_or] at hh
    exact invoke_wp trivial h (h.live (by simpa [NativeCall.handle] using hh.1)) fun _ => h

theorem completeStorageProbe_keeps (status attempts : Int) :
    Keeps (completeStorageProbe status attempts) :=
  .synchronized (.bind (.set fun _ => rfl) fun _ =>
    onProbe_keeps _ (fun _ => trivial) fun _ => rfl)

theorem configureStorageRoot_keeps : Keeps configureStorageRoot :=
  .synchronized (.bind (.get _) fun _ => .ite (.pure ()) (.set fun _ => rfl))

theorem scheduleNextFrame_keeps : Keeps scheduleNextFrame :=
  .bind (.get _) fun _ => .bind (.get _) fun _ => .ite (.pure ()) (.set fun _ => rfl)

theorem scheduleStats_keeps : Keeps scheduleStats :=
  .bind (.get _) fun _ => .bind (.get _) fun _ => .ite (.pure ()) (.set fun _ => rfl)

/-- The handle is out of `handle` before its destruction begins. -/
theorem destroyNativeProbe_keeps : Keeps destroyNativeProbe := by
  intro m w h
  unfold destroyNativeProbe
  simp only [wp_bind, wp_get, wp_set, wp_ite, wp_pure]
  have h0 : Inv { m with handle := 0 } w :=
    ⟨fun hh => absurd rfl hh, h.created, h.begun, h.nodup, h.created⟩
  refine ⟨h0, ?_⟩
  split
  · exact h0
  · rename_i hh
    have hlive : m.handle ∉ w.begun := h.fresh hh
    refine invoke_wp trivial h0 (fun x hx => ?_) fun _ => ?_
    · simp only [NativeCall.handle, Option.some.injEq] at hx
      exact hx ▸ hlive
    have h1 : Inv { m with handle := 0 } (system.start w (.destroy m.handle)) := by
      refine ⟨fun hh => absurd rfl hh, h.created, ?_, ?_, h.created⟩
      · intro x hx
        rcases List.mem_cons.1 hx with rfl | hx
        · exact h.bound
        · exact h.begun x hx
      · exact List.nodup_cons.2 ⟨hlive, h.nodup⟩
    simp only [wp_bind, wp_invoke, wp_pure]
    refine ⟨fun x hx => ?_, h1, fun r w' hr => ?_⟩
    · simp only [NativeCall.handle, Option.some.injEq] at hx
      exact hx ▸ hlive
    · cases hr
      exact ⟨h1, h1⟩

theorem deactivate_keeps : Keeps deactivate := .set fun _ => rfl

theorem fail_keeps : Keeps fail :=
  .bind deactivate_keeps fun _ => destroyNativeProbe_keeps

theorem stop_keeps : Keeps stop :=
  .synchronized (.bind (.get _) fun _ => .bind (.get _) fun _ => .ite (.pure ())
    (.bind deactivate_keeps fun _ => destroyNativeProbe_keeps))

theorem updates_keeps (updates : List Int) :
    Keeps (updates.forM fun state => do let _ ← updateSequenceMetrics state) := by
  induction updates with
  | nil => exact .pure ()
  | cons state rest ih =>
    exact Keeps.bind (p := do let _ ← updateSequenceMetrics state) (f := fun _ => rest.forM _)
      (.bind (updateSequenceMetrics_keeps state) fun _ => .pure ()) fun _ => ih

/-- What `create` returns is no destroyed handle. -/
theorem create_wp {m : Controller} {w : Native} {Q : Reply → Controller → Native → Prop}
    (intervalMs status : Int) (h : Inv m w)
    (hQ : ∀ r w', Inv { m with handle := r.value } w' → Q r m w') :
    (invoke (.create intervalMs status) : Method Reply).wp system.toWorld Inv Live Q m w := by
  simp only [wp_invoke]
  refine ⟨fun x hx => (by cases hx), h, fun r w' hr => ?_⟩
  have hc := h.created
  simp only [system, Native.start, Native.reply] at hr
  split at hr
  · rename_i h0
    cases hr
    exact ⟨h, hQ r w ⟨fun hh => absurd h0 hh, h0 ▸ hc, h.begun, h.nodup, hc⟩⟩
  · split at hr
    · rename_i h1
      cases hr
      have hb : ∀ x ∈ w.begun, x ≤ w.created + 1 := fun x hx => by
        have := h.begun x hx
        omega
      have hm : m.handle ≤ w.created + 1 := by
        have := h.bound
        omega
      have hc' : 0 ≤ w.created + 1 := by omega
      refine ⟨⟨h.fresh, hm, hb, h.nodup, hc'⟩,
        hQ r _ ⟨fun _ hx => ?_, Int.le_of_eq h1, hb, h.nodup, hc'⟩⟩
      have := h.begun r.value hx
      omega
    · cases hr

theorem pollStats_keeps : Keeps pollStats := by
  intro m w h
  unfold pollStats
  simp only [wp_bind, wp_get, wp_ite, wp_pure]
  split
  · exact h
  · rename_i hgo
    simp only [Bool.or_eq_true, Bool.not_eq_true', decide_eq_true_eq, not_or] at hgo
    refine invoke_wp trivial h (h.live (by simpa [NativeCall.handle] using hgo.2)) fun r => ?_
    have hrest : Keeps (if r.stats.getD 6 0 = 0 ∧ r.stats.getD 7 0 ≥ 3 then fail
        else Pure.pure ()) := .ite fail_keeps (.pure ())
    refine Keeps.wp ?_ h fun _ _ _ hi => hi
    exact .bind (.get _) fun _ => .ite (.bind (.set fun _ => rfl) fun _ => hrest) hrest

theorem postFrame_keeps : Keeps postFrame := by
  intro m w h
  unfold postFrame
  simp only [wp_bind, wp_get, wp_ite, wp_pure]
  split
  · exact h
  · rename_i hgo
    simp only [Bool.or_eq_true, Bool.not_eq_true', decide_eq_true_eq, not_or] at hgo
    refine invoke_wp trivial h (h.live (by simp [NativeCall.handle])) fun valid => ?_
    simp only [wp_bind, wp_get, wp_ite, wp_pure]
    split
    · exact h
    · refine invoke_wp trivial h (h.live (by simpa [NativeCall.handle] using hgo.2)) fun r => ?_
      have hrest : Keeps (do pollStats; return true) := .bind pollStats_keeps fun _ => .pure true
      refine Keeps.wp ?_ h fun _ _ _ hi => hi
      exact .ite (.bind fail_keeps fun _ => .pure false) (.bind (.get _) fun _ =>
        .ite (.bind (.set fun _ => rfl) fun _ => hrest) hrest)

theorem beginPosting_keeps : Keeps beginPosting :=
  .bind (.set fun _ => rfl) fun _ => .bind postFrame_keeps fun _ =>
    .ite scheduleNextFrame_keeps (.pure ())

theorem surfaceCreated_keeps : Keeps surfaceCreated :=
  .bind (.set fun _ => rfl) fun _ => beginPosting_keeps

theorem surfaceDestroyed_keeps : Keeps surfaceDestroyed := .set fun _ => rfl

theorem animationTick_keeps : Keeps animationTick :=
  .bind (.set fun _ => rfl) fun _ => .bind (.get _) fun _ => .bind (.get _) fun _ =>
    .ite (.bind postFrame_keeps fun _ => .ite scheduleNextFrame_keeps (.pure ())) (.pure ())

theorem statsTick_keeps : Keeps statsTick :=
  .bind (.set fun _ => rfl) fun _ => .bind (.get _) fun _ => .bind (.get _) fun _ =>
    .ite (.pure ()) (.bind pollStats_keeps fun _ => .bind (.get _) fun _ =>
      .ite scheduleStats_keeps (.pure ()))

theorem start_keeps (updates : List Int) : Keeps (start updates) := by
  refine .synchronized fun m w h => ?_
  simp only [wp_bind, wp_get, wp_set, wp_ite, wp_pure]
  split
  · exact h
  · refine ⟨h.of_handle rfl, invoke_wp trivial (h.of_handle rfl) (Inv.live (h.of_handle rfl)
      (by simp [NativeCall.handle])) fun loaded => ?_⟩
    have hfail : Keeps (do fail; return ()) := .bind fail_keeps fun _ => .pure ()
    have hrest : Keeps (do
        updates.forM fun state => do
          let _ ← updateSequenceMetrics state
        scheduleStats) := .bind (updates_keeps updates) fun _ => scheduleStats_keeps
    simp only [wp_ite]
    split
    · exact hfail _ _ (h.of_handle rfl)
    · simp only [wp_bind, wp_get]
      refine create_wp _ _ (h.of_handle rfl) fun r w' h' => ?_
      simp only [wp_bind, wp_get, wp_set, wp_ite]
      have h' : Inv { m with active := true, firstPostReported := false
                             surfaceRevealRequested := false, handle := r.value } w' :=
        h'.of_handle rfl
      refine ⟨h', ?_⟩
      split
      · exact (wp_bind ..).1 (hfail _ _ h')
      · rename_i hh
        split
        · refine invoke_wp trivial h' (h'.live (by simpa [NativeCall.handle] using hh)) fun _ => ?_
          exact hrest _ _ h'
        · exact (wp_bind ..).1 (hrest _ _ h')

theorem uiEntry_keeps {m : Controller} {e : Entry} {p : Method Unit} (h : uiEntry m e = some p) :
    Keeps p := by
  cases e with
  | start updates => cases h; exact start_keeps updates
  | stop => cases h; exact stop_keeps
  | animationTick =>
    simp only [uiEntry] at h
    split at h
    · cases h; exact animationTick_keeps
    · cases h
  | statsTick =>
    simp only [uiEntry] at h
    split at h
    · cases h; exact statsTick_keeps
    · cases h
  | surfaceCreated => cases h; exact surfaceCreated_keeps
  | surfaceDestroyed => cases h; exact surfaceDestroyed_keeps
  | updateSequenceMetrics state => cases h; exact (updateSequenceMetrics_keeps state).discard
  | submitJpeg length => cases h
  | changeStyle delta => cases h; exact (changeStyle_keeps delta).discard
  | key k down => cases h; exact (key_keeps k down).discard
  | requestPhoto => cases h; exact requestPhoto_keeps.discard
  | setFocus active => cases h; exact setFocus_keeps active
  | onTouch width height action => cases h; exact (onTouch_keeps width height action).discard
  | configureStorageRoot => cases h; exact configureStorageRoot_keeps
  | completeStorageProbe status attempts =>
    cases h
    exact (completeStorageProbe_keeps status attempts).discard

end Controller

/-! ## The frame workers -/

/-- A native call of a frame worker, on the handle it has read. -/
def OnHandle (c : NativeCall) (m : Controller) : Prop :=
  c.Plain ∧ c.handle = some m.handle ∧ m.handle ≠ 0

/-- The steps of a frame worker's method. -/
theorem synchronized_onProbe (unavailable : Int) (c : Int → NativeCall) :
    (discard (synchronized (Controller.onProbe unavailable c)) : Method Unit) =
      .lock (.read fun m =>
        if m.handle = 0 then .unlock (.pure ())
        else .call (c m.handle) fun _ => .unlock (.pure ())) := by
  refine congrArg Prog.lock (congrArg Prog.read (funext fun m => ?_))
  change Prog.bind (Prog.bind (if m.handle = 0 then _ else _) _) _ = _
  split <;> rfl

theorem onProbe_guarded (unavailable : Int) {c : Int → NativeCall} (hp : ∀ h, (c h).Plain)
    (hc : ∀ h, (c h).handle = some h) :
    (discard (synchronized (Controller.onProbe unavailable c))).Guarded OnHandle 0 none := by
  rw [synchronized_onProbe]
  refine ⟨Nat.zero_lt_one, fun m => ?_⟩
  dsimp only
  split
  · exact ⟨0, rfl, rfl⟩
  · rename_i hm
    exact ⟨⟨m, rfl, hp _, hc _, hm⟩, Nat.zero_lt_one, fun _ => ⟨0, rfl, rfl⟩⟩

theorem workerEntry_guarded {e : Entry} {p : Method Unit} (h : workerEntry e = some p) :
    p.Guarded OnHandle 0 none := by
  cases e with
  | updateSequenceMetrics state =>
    cases h
    exact onProbe_guarded _ (fun _ => trivial) fun _ => rfl
  | submitJpeg length =>
    cases h
    exact onProbe_guarded _ (fun _ => trivial) fun _ => rfl
  | _ => cases h

/-! ## Both -/

/-- The invariant of the interleaved runs. -/
structure Good (s : Handles) : Prop where
  inv : Inv s.mem s.world
  ui : Safe system.toWorld Inv Live s.mem s.world (s.thread .ui)
  uiCall : ∀ c h, (s.thread .ui).inProgress = some c → c.handle = some h →
    c = .destroy h ∨ h ∉ s.world.begun
  worker : ∀ n, s.Reader OnHandle (.worker n)
  workerCall : ∀ n c, (s.thread (.worker n)).pending = some c →
    c.Plain ∧ ∀ h, c.handle = some h → h ∉ s.world.begun

theorem good_initial : Good initial := by
  refine ⟨⟨by simp [initial], by simp [initial], by simp [initial], by simp [initial],
    by simp [initial]⟩, ?_, by simp [initial, Thread.inProgress], fun n => ?_, by simp [initial,
    Thread.pending]⟩
  · exact ⟨by simp [initial], by simp [initial], by simp [initial], by simp [initial],
      by simp [initial]⟩
  · exact ⟨0, by simp [State.Holds, initial], none, rfl⟩

theorem inProgress_pending {t : Thread Controller NativeCall Reply} {c : NativeCall}
    (h : t.inProgress = some c) : t.pending = some c := by
  cases t with
  | ready p => cases h
  | calling c' k => exact h

theorem Good.alive {s : Handles} (h : Good s) : Lifetime s := by
  refine ⟨h.inv.nodup, fun t c x hc hx hb => ?_⟩
  cases t with
  | ui =>
    rcases h.uiCall c x hc hx with hd | hn
    · exact hd
    · exact absurd hb hn
  | worker n => exact absurd hb ((h.workerCall n c (inProgress_pending hc)).2 x hx)

/-- A worker's step. -/
theorem good_worker {s s' : Handles} {e : Event ThreadId Entry Reply}
    {o : List (ThreadId × NativeCall)} {n : Nat} (h : Good s) (hs : Step system s e s' o)
    (he : e.thread = .worker n) : Good s' := by
  obtain ⟨hr, hq, hp⟩ := State.Reader.step hs (he ▸ h.worker n) fun x p hx => by
    rw [he] at hx
    exact workerEntry_guarded hx
  have hw : s'.world = s.world := by
    rcases hq.world with hw | ⟨c, hc, hw | ⟨r, hw⟩⟩
    · exact hw
    · rw [hw]
      exact plain_start (h.workerCall n c (he ▸ hc)).1
    · exact plain_reply (h.workerCall n c (he ▸ hc)).1 hw
  have hui : s'.thread .ui = s.thread .ui := hs.other (by simp [he])
  refine ⟨by rw [hq.mem, hw]; exact h.inv, by rw [hq.mem, hw, hui]; exact h.ui,
    by rw [hui, hw]; exact h.uiCall, fun k => ?_, fun k c hc => ?_⟩
  · by_cases hk : ThreadId.worker k = e.thread
    · exact hk ▸ hr
    · exact State.Reader.other hs (h.worker k) hk
  · rw [hw]
    by_cases hk : ThreadId.worker k = e.thread
    · rcases hp c (hk ▸ hc) with hc | ⟨hpl, hhd, h0⟩
      · exact h.workerCall k c (hk ▸ hc)
      · refine ⟨hpl, fun x hx => ?_⟩
        obtain rfl : s.mem.handle = x := by simpa [hhd] using hx
        exact h.inv.fresh h0
    · exact h.workerCall k c (hs.other hk ▸ hc)

/-- A step of the UI thread. -/
theorem good_ui {l : List (ThreadId × NativeCall)} {s s' : Handles}
    {e : Event ThreadId Entry Reply} {o : List (ThreadId × NativeCall)} (h : Good s)
    (hs : Step system s e s' o) (he : e.thread = .ui) (hg : DestroysUnused l s e) : Good s' := by
  obtain ⟨hsafe, hinv, hok⟩ := Safe.step hs (he ▸ h.ui) h.inv fun x p hp => by
    rw [he] at hp
    exact Controller.uiEntry_keeps hp _ _ h.inv
  have hw : ∀ n, ThreadId.worker n ≠ e.thread := fun n => by simp [he]
  -- a destruction that begins is unused: inside the monitor by its owner, outside by the guard
  have hbegun : ∀ n c x, (s.thread (.worker n)).pending = some c → c.handle = some x →
      x ∉ s'.world.begun := by
    intro n c x hc hx
    have hold := (h.workerCall n c hc).2 x hx
    cases hs with
    | @call t c' k ht =>
      obtain rfl : t = .ui := he
      intro hb
      cases c' with
      | destroy y =>
        rcases List.mem_cons.1 hb with rfl | hb
        · obtain ⟨m, hm⟩ := (h.worker n).owner hc
          refine hg .ui x rfl (by rw [ht]; rfl) (fun k hk => ?_) (.worker n) c (hw n) hc hx
          simp [hm] at hk
        · exact hold hb
      | _ => exact hold hb
    | ret ht hr =>
      intro hb
      exact hold (reply_begun hr ▸ hb)
    | _ => exact hold
  refine ⟨hinv, he ▸ hsafe, ?_, fun n => State.Reader.other hs (h.worker n) (hw n),
    fun n c hc => ?_⟩
  · intro c x hc hx
    cases hs with
    | @call t c' k ht =>
      obtain rfl : t = .ui := he
      simp only [State.begin_thread, Thread.inProgress, Option.some.injEq] at hc
      subst hc
      have hlive := hok _ (List.mem_singleton_self _) x hx
      cases c' with
      | destroy y => exact .inl (by simpa [NativeCall.handle] using hx)
      | _ => exact .inr hlive
    | _ =>
      simp only [Event.thread] at he
      subst he
      simp [Thread.inProgress] at hc
  · rw [hs.other (hw n)] at hc
    exact ⟨(h.workerCall n c hc).1, fun x hx => hbegun n c x hc hx⟩

theorem good_step {l : List (ThreadId × NativeCall)} {s s' : Handles}
    {e : Event ThreadId Entry Reply} {o : List (ThreadId × NativeCall)} (h : Good s)
    (hg : DestroysUnused l s e) (hs : system.machine.step s e = some (s', o)) : Good s' := by
  have hs := machine_step hs
  cases he : e.thread with
  | ui => exact good_ui h hs he hg
  | worker n => exact good_worker h hs he

/-- **Without a destruction under a call, no native call is on a destroyed handle.** -/
theorem lifetime {es : List (Event ThreadId Entry Reply)} {l : List (ThreadId × NativeCall)}
    {s : Handles} (h : Reach system.machine DestroysUnused initial es l s) : Lifetime s :=
  (h.inv_state good_initial fun _ _ _ _ _ hi hg hs => good_step hi hg hs).alive

/-- A destruction that begins inside the monitor. -/
def destroysInside (_ : List (ThreadId × NativeCall)) (s : Handles)
    (e : Event ThreadId Entry Reply) : Bool :=
  match (s.thread e.thread).pending with
  | some (.destroy _) => s.owner.any (·.1 == e.thread)
  | _ => true

theorem destroysUnused_of_inside {l : List (ThreadId × NativeCall)} {s : Handles}
    {e : Event ThreadId Entry Reply} (h : destroysInside l s e = true) : DestroysUnused l s e := by
  rintro t x rfl hp ho
  simp only [destroysInside, Event.thread, hp] at h
  cases hs : s.owner with
  | none => simp [hs] at h
  | some o =>
    obtain ⟨u, n⟩ := o
    simp only [hs, Option.any_some, beq_iff_eq] at h
    exact absurd hs (h ▸ ho n)

/-- A worker's call, then `stop`: the destruction begins inside the monitor. -/
theorem lifetime_stop : ∃ es l s, Lifetime s ∧ s.world.begun = [1] ∧
    Reach system.machine DestroysUnused initial es l s := by
  obtain ⟨l, s, h, hs⟩ := reach_of_execIf (M := system.machine) (g := destroysInside)
    (s := initial)
    (List.flatten [
      [.enter .ui (.start [])], Event.steps .ui 4, [.ret .ui { value := 1 }],
      Event.steps .ui 2, [.ret .ui { value := 1 }], Event.steps .ui 7,
      [.enter (.worker 0) (.submitJpeg 100)], Event.steps (.worker 0) 3,
      [.ret (.worker 0) { value := 0 }], Event.steps (.worker 0) 1,
      [.enter .ui .stop], Event.steps .ui 7, [.ret .ui { value := 0 }], Event.steps .ui 1])
    (p := fun x => x.1.world.begun == [1])
    (fun _ _ _ => destroysUnused_of_inside) (by decide +kernel)
  exact ⟨_, l, s, lifetime h, by simpa using hs, h⟩

/-- A failed post on the UI thread destroys the probe under a worker's `submitJpeg`. -/
theorem destroyed_in_use :
    ¬ ∀ es l s, Run system.machine initial es l s → Lifetime s := by
  intro hall
  obtain ⟨l, s, h, hs⟩ := run_of_exec (M := system.machine) (s := initial)
    (List.flatten [
      [.enter .ui (.start [])], Event.steps .ui 4, [.ret .ui { value := 1 }],
      Event.steps .ui 2, [.ret .ui { value := 1 }], Event.steps .ui 7,
      [.enter .ui .surfaceCreated], Event.steps .ui 6, [.ret .ui { value := 1 }],
      Event.steps .ui 2, [.ret .ui { value := 0 }], Event.steps .ui 6, [.ret .ui { value := 0 }],
      Event.steps .ui 4,
      [.enter (.worker 0) (.submitJpeg 100)], Event.steps (.worker 0) 3,
      [.enter .ui .animationTick], Event.steps .ui 7, [.ret .ui { value := 1 }],
      Event.steps .ui 2, [.ret .ui { value := 1 }], Event.steps .ui 4, [.ret .ui { value := 0 }],
      Event.steps .ui 1])
    (p := fun x => (x.1.thread (.worker 0)).inProgress == some (.submitJpeg 1 100) &&
      x.1.world.begun == [1])
    (by decide +kernel)
  simp only [Bool.and_eq_true, beq_iff_eq] at hs
  have hc := (hall _ _ _ h).2 (.worker 0) (.submitJpeg 1 100) 1 hs.1 rfl (by simp [hs.2])
  cases hc

end RetroLens.Probe
