import RetroLens.Worker.Calls

/-!
# The hand-off between the calls and the photo thread

The flags of the slot say where the photo thread is: `photoInUse_` from the
taking of a job until it is handed back, `photoPending_` only while the thread
is on its way to the slot. `Handoff` holds in every state that a worker reaches.
-/

namespace RetroLens.Worker

open Text RetroLens.Core Store Runs

/-- The job that the photo thread works on. -/
def PhotoLoop.job : PhotoLoop → Option Job
  | taken job | calling job | returned job _ => some job
  | _ => none

/-- The store is not open yet. -/
def PhotoLoop.opening : PhotoLoop → Bool
  | notStarted | starting | configured _ | initialized .. => true
  | _ => false

/-- The owner has not come to create the photo thread. -/
def Control.beforePhoto : Control → Bool
  | created | starting | notCreated | threadStarted | photoStarting | photoNotCreated
  | photoAbandoned => true
  | _ => false

/-- The owner has told the photo thread to stop. -/
def Control.afterPhoto : Control → Bool
  | photoStopping | photoJoined | stopped => true
  | _ => false

/-- The owner has joined the photo thread. -/
def Control.joined : Control → Bool
  | photoJoined | stopped => true
  | _ => false

/-- The frame thread is not created. -/
def Control.beforeFrame : Control → Bool
  | created | starting | notCreated => true
  | _ => false

/-- What is true of the slot, given where the threads are. -/
structure Handoff (s : DisplayProbeWorker) : Prop where
  inUse : s.shared.slot.photoInUse = s.photo.pc.job.isSome
  unopened : s.photo.pc.opening = true → s.shared.screen.storageReady = false
  pending : s.shared.slot.photoPending = true → s.photo.pc.job = none ∧
    s.photo.pc.opening = false ∧ s.photo.pc ≠ .exited ∧ s.shared.slot.photoJob ≠ .none
  known : ∀ job, s.photo.pc.job = some job → job.job ≠ .none
  exited : s.photo.pc = .exited → s.shared.slot.photoRunning = false
  before : s.control.beforePhoto = true → s.photo.pc = .notStarted
  after : s.control.afterPhoto = true → s.shared.slot.photoRunning = false
  started : s.photo.pc ≠ .notStarted → s.photoThreadStarted = true ∨ s.control.joined = true
  joined : s.control.joined = true → s.photo.pc = .exited ∨ s.photo.pc = .notStarted

variable {s s' : DisplayProbeWorker} {sh' : Shared}

theorem free_iff {slot : JobSlot} : slot.free = true ↔
    slot.photoRunning = true ∧ slot.photoPending = false ∧ slot.photoInUse = false := by
  simp [JobSlot.free, and_assoc]

theorem job_of_copy {slot slot' : JobSlot} (h : slot.copy = slot'.copy) :
    slot.photoJob = slot'.photoJob := congrArg Job.job h

theorem create_handoff (now : Int) (storageRoot cameraModel versionName : Option Bytes)
    (storageStatus : StorageProbeStatus) (memory : Frame) (card : CardWorld) :
    Handoff (.create now storageRoot cameraModel versionName storageStatus memory card) where
  inUse := rfl
  unopened _ := rfl
  pending h := by cases h
  known _ h := by cases h
  exited h := by cases h
  before _ := rfl
  after h := by cases h
  started h := absurd rfl h
  joined h := by cases h

/-- Nothing is pending while a job is worked on. -/
theorem Handoff.not_pending (h : Handoff s) (hj : s.photo.pc.job.isSome = true) :
    s.shared.slot.photoPending = false := by
  by_contra hp
  rw [(h.pending (by simpa using hp)).1] at hj
  cases hj

/-- Nothing is pending before the store is open. -/
theorem Handoff.not_posted (h : Handoff s) (ho : s.photo.pc.opening = true) :
    s.shared.slot.photoPending = false := by
  by_contra hp
  rw [(h.pending (by simpa using hp)).2.1] at ho
  cases ho

/-- Posting a job, or nothing, keeps the hand-off. -/
theorem Handoff.change (h : Handoff s) (hc : SlotChange s.shared sh')
    (hready : sh'.screen.storageReady = s.shared.screen.storageReady) :
    Handoff { s with shared := sh' } := by
  cases hc with
  | kept photoRunning photoPending photoInUse copy =>
    exact
      { inUse := photoInUse.trans h.inUse
        unopened := fun ho => hready.trans (h.unopened ho)
        pending := fun hp => by
          obtain ⟨h1, h2, h3, h4⟩ := h.pending (photoPending ▸ hp)
          exact ⟨h1, h2, h3, fun hj => h4 ((job_of_copy copy).symm.trans hj)⟩
        known := h.known
        exited := fun he => photoRunning.trans (h.exited he)
        before := h.before
        after := fun ha => photoRunning.trans (h.after ha)
        started := h.started
        joined := h.joined }
  | posted free storageReady photoRunning photoPending photoInUse photoJob =>
    obtain ⟨hr, -, hu⟩ := free_iff.1 free
    have hnone : s.photo.pc.job = none := by
      rw [← Option.not_isSome_iff_eq_none, ← h.inUse, hu]
      decide
    have hopen : s.photo.pc.opening = false := by
      by_contra ho
      rw [h.unopened (by simpa using ho)] at storageReady
      cases storageReady
    have hexited : s.photo.pc ≠ .exited := fun he => by
      rw [h.exited he] at hr
      cases hr
    exact
      { inUse := photoInUse.trans h.inUse
        unopened := fun ho => hready.trans (h.unopened ho)
        pending := fun _ => ⟨hnone, hopen, hexited, photoJob⟩
        known := h.known
        exited := fun he => absurd he hexited
        before := h.before
        after := fun ha => photoRunning.trans (h.after ha)
        started := h.started
        joined := h.joined }

theorem Handoff.frame (h : Handoff s) {e : FrameEvent} {v : FrameView}
    (hs : e.run s.frameView = some v) :
    Handoff { s with shared.screen := v.screen, frame := v.frame } := by
  have ha := FrameEvent.run_aside hs
  exact
    { inUse := h.inUse
      unopened := fun ho => ha.storageReady.trans (h.unopened ho)
      pending := h.pending
      known := h.known
      exited := h.exited
      before := h.before
      after := h.after
      started := h.started
      joined := h.joined }

/-! ## The photo thread -/

/-- What a section of the photo thread does. -/
inductive PhotoEvent.Step (e : PhotoEvent) (sh : Shared) (p : PhotoThread) (v : PhotoView) :
    Prop where
  /-- The thread ends: at its start, or with no job pending. -/
  | exit (event : e = .start ∨ e = .take)
      (pc : p.pc = .starting ∨ p.pc = .waiting ∧ sh.slot.photoPending = false)
      (running : sh.slot.photoRunning = false) (eq : v = ⟨sh, { p with pc := .exited }⟩)
  | configure (event : e = .start) (pc : p.pc = .starting)
      (eq : v = ⟨sh, { p with pc := .configured sh.slot.initialStorageStatus }⟩)
  | opened (plan : InitPlan) (readable : Bool) (status : StorageProbeStatus)
      (event : e = .initializeStore plan readable) (pc : p.pc = .configured status)
      (eq : v = ⟨sh, openStore plan readable status p⟩)
  | install (freeBytes : Int) (state : PhotoStorageState) (settings : Option RuntimeSettings)
      (event : e = .install freeBytes) (pc : p.pc = .initialized state settings)
      (eq : v =
        ⟨{ sh with screen := installStore state settings freeBytes p.store sh.screen },
          { p with pc := .waiting }⟩)
  | take (event : e = .take) (pc : p.pc = .waiting)
      (pending : sh.slot.photoPending = true)
      (eq : v = ⟨{ sh with slot.photoPending := false, slot.photoInUse := true },
        { p with pc := .taken sh.slot.copy }⟩)
  | call (job : Job) (event : e = .call) (pc : p.pc = .taken job)
      (eq : v = ⟨sh, { p with pc := .calling job }⟩)
  | finish (job : Job) (work : Work) (r : JobResult × Frame × PhotoStore × CardWorld)
      (event : e = .finish work) (pc : p.pc = .calling job)
      (call : callStore job work sh.photoFrame p.store p.world = some r)
      (eq : v = ⟨{ sh with photoFrame := r.2.1 },
        { pc := .returned job r.1, store := r.2.2.1, world := r.2.2.2 }⟩)
  | handBack (job : Job) (result : JobResult) (event : e = .handBack)
      (pc : p.pc = .returned job result)
      (eq : v = ⟨{ sh with slot.photoInUse := false, slot.photoJob := .none },
        { p with pc := .handedBack job result }⟩)
  | publish (job : Job) (result : JobResult) (now freeBytes : Int)
      (event : e = .publish now freeBytes) (pc : p.pc = .handedBack job result)
      (eq : v = ⟨Worker.publish job result now freeBytes p.store sh, { p with pc := .waiting }⟩)

theorem PhotoEvent.run_step {e : PhotoEvent} {v v' : PhotoView} (h : e.run v = some v') :
    e.Step v.shared v.photo v' := by
  unfold PhotoEvent.run at h
  split at h
  · rename_i hpc
    split at h
    · rename_i hr
      cases h
      exact .exit (.inl rfl) (.inl hpc) hr rfl
    · split at h
      · cases h
        exact .configure rfl hpc rfl
      · cases h
  · rename_i hpc
    cases h
    exact .opened _ _ _ rfl hpc rfl
  · rename_i hpc
    cases h
    exact .install _ _ _ rfl hpc rfl
  · rename_i hpc
    split at h
    · rename_i hp
      cases h
      exact .take rfl hpc hp rfl
    · rename_i hp
      split at h
      · cases h
      · rename_i hr
        cases h
        exact .exit (.inr rfl) (.inr ⟨hpc, by simpa using hp⟩) (by simpa using hr) rfl
  · rename_i hpc
    cases h
    exact .call _ rfl hpc rfl
  · rename_i hpc
    obtain ⟨r, hr, rfl⟩ := Option.map_eq_some_iff.1 h
    exact .finish _ _ r rfl hpc hr rfl
  · rename_i hpc
    cases h
    exact .handBack _ _ rfl hpc rfl
  · rename_i hpc
    cases h
    exact .publish _ _ _ _ rfl hpc rfl
  · cases h

theorem openStore_pc (plan : InitPlan) (readable : Bool) (status : StorageProbeStatus)
    (p : PhotoThread) : ∃ state settings,
      (openStore plan readable status p).pc = .initialized state settings := by
  cases status <;> exact ⟨_, _, rfl⟩

/-- What a section of the photo thread enters in the log, and what the store and the card go through
in it. The entry of a call says what the store was called with and what it returned; without one
the store and the card are left alone. -/
inductive PhotoEvent.Entry (e : PhotoEvent) (v v' : PhotoView) : List Act → Prop where
  | silent (store : v'.photo.store = v.photo.store) (world : v'.photo.world = v.photo.world) :
    Entry e v v' []
  | initialized (plan : InitPlan) (readable : Bool) (settings : Option RuntimeSettings)
      (event : e = .initializeStore plan readable) (pc : v.photo.pc = .configured .ready)
      (call : Store.initializeStore plan v.photo.store v.photo.world =
        (v'.photo.store, v'.photo.world))
      (next : v'.photo.pc = .initialized v'.photo.store.storageState settings) :
    Entry e v v' [.initialized v'.photo.store.storageState]
  | saveCalled (job : Job) (event : e = .call) (pc : v.photo.pc = .taken job)
      (save : job.job = .save) (store : v'.photo.store = v.photo.store)
      (world : v'.photo.world = v.photo.world) :
    Entry e v v' [.saveCalled (job.photo v.shared.photoFrame)]
  | saved (job : Job) (plan : SavePlan) (encoded : Option Nat) (event : e = .finish (.save plan))
      (pc : v.photo.pc = .calling job) (save : job.job = .save)
      (call : savePhoto plan (job.photo v.shared.photoFrame) encodedCapacity v.photo.store
        v.photo.world = (encoded, v'.photo.store, v'.photo.world)) :
    Entry e v v' [.saveReturned (job.photo v.shared.photoFrame) encoded.isSome]
  | loaded (job : Job) (work : Work) (ok : Bool) (event : e = .finish work)
      (pc : v.photo.pc = .calling job) (load : job.job = .load)
      (store : v'.photo.store = v.photo.store) (world : v'.photo.world = v.photo.world) :
    Entry e v v' [.loadReturned job.galleryIndex ok]
  | deleted (job : Job) (plan : DeletePlan) (ok : Bool) (event : e = .finish (.delete plan))
      (pc : v.photo.pc = .calling job) (delete : job.job = .delete)
      (call : deletePhoto plan job.galleryIndex v.photo.store v.photo.world =
        (ok, v'.photo.store, v'.photo.world)) :
    Entry e v v'
      [.deleteReturned job.galleryIndex v.photo.store.entries v'.photo.store.entries ok]

/-- The entry of a job's call. -/
theorem finish_entry {job : Job} {work : Work} {r : JobResult × Frame × PhotoStore × CardWorld}
    {sh : Shared} {p : PhotoThread} (pc : p.pc = .calling job)
    (h : callStore job work sh.photoFrame p.store p.world = some r) :
    PhotoEvent.Entry (.finish work) ⟨sh, p⟩
      ⟨{ sh with photoFrame := r.2.1 },
        { pc := .returned job r.1, store := r.2.2.1, world := r.2.2.2 }⟩
      (PhotoEvent.acts (.finish work) ⟨sh, p⟩ ⟨{ sh with photoFrame := r.2.1 },
        { pc := .returned job r.1, store := r.2.2.1, world := r.2.2.2 }⟩) := by
  simp only [PhotoEvent.acts, pc]
  unfold callStore at h
  split at h
  · rename_i hjob
    cases h
    simp only [hjob]
    exact .saved job _ _ rfl pc hjob rfl
  · rename_i hjob
    simp only [hjob]
    split at h <;> cases h <;> exact .loaded job _ _ rfl pc hjob rfl rfl
  · rename_i hjob
    cases h
    simp only [hjob]
    exact .deleted job _ _ rfl pc hjob rfl
  · rename_i hjob
    cases h
    simp only [hjob]
    exact .silent rfl rfl
  · cases h

/-- **The log has the calls of the store**, each where it is made. -/
theorem PhotoEvent.run_entry {e : PhotoEvent} {v v' : PhotoView} (h : e.run v = some v') :
    e.Entry v v' (e.acts v v') := by
  obtain ⟨sh, p⟩ := v
  have hrun : e.Step sh p v' := PhotoEvent.run_step h
  cases hrun with
  | exit event pc running eq =>
    subst eq
    rcases event with rfl | rfl <;> exact .silent rfl rfl
  | configure event pc eq =>
    subst eq event
    exact .silent rfl rfl
  | opened plan readable status event pc eq =>
    subst eq event
    obtain ⟨state, settings, hopen⟩ := openStore_pc plan readable status p
    cases status with
    | ready =>
      simp only [PhotoEvent.acts, pc, hopen]
      obtain ⟨rfl, -⟩ := PhotoLoop.initialized.inj hopen
      exact .initialized plan readable _ rfl pc rfl rfl
    | _ =>
      simp only [PhotoEvent.acts, pc]
      exact .silent rfl rfl
  | install freeBytes state settings event pc eq =>
    subst eq event
    exact .silent rfl rfl
  | take event pc pending eq =>
    subst eq event
    exact .silent rfl rfl
  | call job event pc eq =>
    subst eq event
    simp only [PhotoEvent.acts, pc]
    split
    · rename_i hjob
      exact .saveCalled job rfl pc hjob rfl rfl
    · exact .silent rfl rfl
  | finish job work r event pc call eq =>
    subst eq event
    exact finish_entry pc call
  | handBack job result event pc eq =>
    subst eq event
    exact .silent rfl rfl
  | publish job result now freeBytes event pc eq =>
    subst eq event
    exact .silent rfl rfl

/-- A publication leaves the slot alone, but for the load after a deletion. -/
theorem publish_slot (job : Job) (result : JobResult) (now freeBytes : Int) (p : PhotoStore)
    (sh : Shared) :
    ((publish job result now freeBytes p sh).slot = sh.slot ∨
      job.job = .delete ∧ Posted .load sh (publish job result now freeBytes p sh)) ∧
    (publish job result now freeBytes p sh).photoFrame = sh.photoFrame := by
  unfold publish
  dsimp only
  split
  · unfold publishSave
    dsimp only
    split <;> exact ⟨.inl rfl, rfl⟩
  · exact ⟨.inl rfl, rfl⟩
  · rename_i hjob
    unfold publishDelete
    dsimp only
    split
    · generalize hsh₁ : ({ sh with screen := _ } : Shared) = sh₁
      have hslot : sh₁.slot = sh.slot := by subst hsh₁; rfl
      have hready : sh₁.screen.storageReady = sh.screen.storageReady := by subst hsh₁; rfl
      have hbuffer : sh₁.photoFrame = sh.photoFrame := by subst hsh₁; rfl
      rcases queueGalleryLocked_cases .load .loading sh₁ with h | ⟨-, hp, ha, hf⟩
      · rw [queueGalleryLoadLocked, h]
        exact ⟨.inl hslot, hbuffer⟩
      · exact ⟨.inr ⟨hjob, (hp.congr hslot hready).aside rfl ⟨⟨rfl, rfl, rfl, rfl⟩, rfl⟩⟩,
          hf.trans hbuffer⟩
    · exact ⟨.inl rfl, rfl⟩
  · exact ⟨.inl rfl, rfl⟩

theorem publish_change (job : Job) (result : JobResult) (now freeBytes : Int) (p : PhotoStore)
    (sh : Shared) : SlotChange sh (publish job result now freeBytes p sh) :=
  (publish_slot job result now freeBytes p sh).1.elim .of_eq fun h => h.2.change (by decide)

/-- A step of a photo thread that runs. -/
theorem Handoff.next (h : Handoff s) (hn : s.photo.pc ≠ .notStarted) (he : s.photo.pc ≠ .exited)
    {p : PhotoThread} (running : sh'.slot.photoRunning = s.shared.slot.photoRunning)
    (inUse : sh'.slot.photoInUse = p.pc.job.isSome)
    (unopened : p.pc.opening = true → sh'.screen.storageReady = false)
    (pending : sh'.slot.photoPending = true → p.pc.job = none ∧ p.pc.opening = false ∧
      p.pc ≠ .exited ∧ sh'.slot.photoJob ≠ .none)
    (known : ∀ job, p.pc.job = some job → job.job ≠ .none)
    (exited : p.pc = .exited → s.shared.slot.photoRunning = false) :
    Handoff { s with shared := sh', photo := p } := by
  have hjoined : s.control.joined = false := by
    by_contra hj
    rcases h.joined (by simpa using hj) with hpc | hpc
    · exact he hpc
    · exact hn hpc
  exact
    { inUse
      unopened
      pending
      known
      exited := fun hp => running.trans (exited hp)
      before := fun hb => absurd (h.before hb) hn
      after := fun ha => running.trans (h.after ha)
      started := fun _ => .inl ((h.started hn).resolve_right (by simp [hjoined]))
      joined := fun hj => by simp [hjoined] at hj }

/-- A step of a photo thread that runs, with nothing pending behind it. -/
theorem Handoff.rests (h : Handoff s) (hn : s.photo.pc ≠ .notStarted) (he : s.photo.pc ≠ .exited)
    {p : PhotoThread} (hpending : sh'.slot.photoPending = false)
    (running : sh'.slot.photoRunning = s.shared.slot.photoRunning)
    (inUse : sh'.slot.photoInUse = p.pc.job.isSome)
    (unopened : p.pc.opening = true → sh'.screen.storageReady = false)
    (known : ∀ job, p.pc.job = some job → job.job ≠ .none)
    (exited : p.pc = .exited → s.shared.slot.photoRunning = false) :
    Handoff { s with shared := sh', photo := p } :=
  h.next hn he running inUse unopened (fun hp => by cases hp.symm.trans hpending) known exited

/-- The end of the photo thread, which had nothing to do. -/
theorem Handoff.exit (h : Handoff s)
    (pc : s.photo.pc = .starting ∨ s.photo.pc = .waiting ∧ s.shared.slot.photoPending = false)
    (running : s.shared.slot.photoRunning = false) : Handoff { s with photo.pc := .exited } := by
  have hpending : s.shared.slot.photoPending = false := by
    rcases pc with pc | ⟨-, hp⟩
    · exact h.not_posted (by rw [pc]; rfl)
    · exact hp
  have hpc : s.photo.pc.job = none ∧ s.photo.pc ≠ .notStarted ∧ s.photo.pc ≠ .exited := by
    rcases pc with pc | ⟨pc, -⟩ <;> simp [pc, PhotoLoop.job]
  refine h.rests hpc.2.1 hpc.2.2 hpending rfl ?_ (fun ho => by cases ho) (fun _ hj => by cases hj)
    fun _ => running
  rw [h.inUse, hpc.1]
  rfl

/-- A step in which the store is opened, up to the slot. -/
theorem Handoff.opens (h : Handoff s) {p : PhotoThread} {screen : Screen}
    (hpc : s.photo.pc.opening = true) (hn : s.photo.pc ≠ .notStarted) (hjob : p.pc.job = none)
    (hready : p.pc.opening = true → screen = s.shared.screen) (he : p.pc ≠ .exited) :
    Handoff { s with shared.screen := screen, photo := p } := by
  have hnone : s.photo.pc.job = none := by
    cases hp : s.photo.pc <;> rw [hp] at hpc <;> first | rfl | cases hpc
  refine h.rests hn (fun hx => ?_) (h.not_posted hpc) rfl ?_ (fun ho => ?_) (fun job hj => ?_)
    fun hx => absurd hx he
  · rw [hx] at hpc
    cases hpc
  · rw [h.inUse, hnone, hjob]
  · rw [hready ho]
    exact h.unopened hpc
  · rw [hjob] at hj
    cases hj

/-- A publication, which may post a load. -/
theorem Handoff.publish (h : Handoff s) {job : Job} {result : JobResult}
    (pc : s.photo.pc = .handedBack job result) (now freeBytes : Int) :
    Handoff { s with
      shared := Worker.publish job result now freeBytes s.photo.store s.shared
      photo.pc := .waiting } := by
  have hnone : s.photo.pc.job = none := by rw [pc]; rfl
  cases publish_change job result now freeBytes s.photo.store s.shared with
  | kept photoRunning photoPending photoInUse copy =>
    refine h.next (by simp [pc]) (by simp [pc]) photoRunning ?_ (fun ho => by cases ho)
      (fun hp => ⟨rfl, rfl, by simp, ?_⟩) (fun _ hj => by cases hj) fun hp => by cases hp
    · rw [photoInUse, h.inUse, hnone]
      rfl
    · exact fun hj => (h.pending (photoPending ▸ hp)).2.2.2 ((job_of_copy copy).symm.trans hj)
  | posted free storageReady photoRunning photoPending photoInUse photoJob =>
    refine h.next (by simp [pc]) (by simp [pc]) photoRunning ?_ (fun ho => by cases ho)
      (fun hp => ⟨rfl, rfl, by simp, photoJob⟩) (fun _ hj => by cases hj)
      fun hp => by cases hp
    rw [photoInUse, h.inUse, hnone]
    rfl

theorem Handoff.photo (h : Handoff s) {e : PhotoEvent} {v : PhotoView}
    (hs : e.run s.photoView = some v) : Handoff { s with shared := v.shared, photo := v.photo } := by
  have hrun : e.Step s.shared s.photo v := PhotoEvent.run_step hs
  cases hrun with
  | exit event pc running eq =>
    subst eq
    exact h.exit pc running
  | configure event pc eq =>
    subst eq
    exact h.opens (by rw [pc]; rfl) (by simp [pc]) rfl (fun _ => rfl) (by simp)
  | opened plan readable status event pc eq =>
    subst eq
    obtain ⟨state, settings, hopen⟩ := openStore_pc plan readable status s.photo
    exact h.opens (by rw [pc]; rfl) (by simp [pc]) (by rw [hopen]; rfl) (fun _ => rfl)
      (by simp [hopen])
  | install freeBytes state settings event pc eq =>
    subst eq
    exact h.opens (by rw [pc]; rfl) (by simp [pc]) rfl (fun ho => by cases ho) (by simp)
  | take event pc pending eq =>
    subst eq
    exact h.rests (by simp [pc]) (by simp [pc]) rfl rfl rfl (fun ho => by cases ho)
      (fun _ hj => by cases hj; exact (h.pending pending).2.2.2) fun hp => by cases hp
  | call job event pc eq =>
    subst eq
    refine h.rests (by simp [pc]) (by simp [pc]) (h.not_pending (by rw [pc]; rfl)) rfl ?_
      (fun ho => by cases ho) (fun _ hj => h.known _ (by rw [pc]; exact hj)) fun hp => by cases hp
    rw [h.inUse, pc]
    rfl
  | finish job work r event pc call eq =>
    subst eq
    exact h.rests (by simp [pc]) (by simp [pc]) (h.not_pending (by rw [pc]; rfl)) rfl
      (h.inUse.trans (by rw [pc]; rfl)) (fun ho => by cases ho)
      (fun _ hj => h.known _ (by rw [pc]; exact hj)) fun hp => by cases hp
  | handBack job result event pc eq =>
    subst eq
    exact h.rests (by simp [pc]) (by simp [pc]) (h.not_pending (by rw [pc]; rfl)) rfl rfl
      (fun ho => by cases ho) (fun _ hj => by cases hj) fun hp => by cases hp
  | publish job result now freeBytes event pc eq =>
    subst eq
    exact h.publish pc now freeBytes

/-! ## The owner -/

/-- A step of the owner that leaves the photo thread and the job alone. -/
theorem Handoff.own (h : Handoff s) {control : Control} {running ready complete : Bool}
    {metrics : FilterProbeMetrics} {frame : FrameThread} {world : CardWorld} {photoRunning : Bool}
    (hready : s.photo.pc.opening = true → ready = false)
    (hexited : s.photo.pc = .exited → photoRunning = false)
    (hbefore : control.beforePhoto = true → s.photo.pc = .notStarted)
    (hafter : control.afterPhoto = true → photoRunning = false)
    (hjoined : control.joined = true → s.photo.pc = .exited ∨ s.photo.pc = .notStarted)
    (hstill : s.control.joined = true → control.joined = true) :
    Handoff { s with
      control
      frame
      photo.world := world
      shared.slot.photoRunning := photoRunning
      shared.screen.running := running
      shared.screen.storageReady := ready
      shared.screen.storageInitializationComplete := complete
      shared.screen.filterMetrics := metrics } where
  inUse := h.inUse
  unopened := hready
  pending := h.pending
  known := h.known
  exited := hexited
  before := hbefore
  after := hafter
  started := fun hn => (h.started hn).imp_right hstill
  joined := hjoined

/-- The steps of the owner, each with what it has found. -/
inductive OwnerStep (created : Bool) (plan : FilePlan) (s : DisplayProbeWorker) :
    DisplayProbeWorker → Prop where
  | start (control : s.control = .created) : OwnerStep created plan s
      { s with control := .starting, shared.screen.running := true }
  | create (control : s.control = .starting) (made : created = true) : OwnerStep created plan s
      { s with control := .threadStarted, frame.pc := .head }
  | createFailed (control : s.control = .starting) (made : created = false) :
      OwnerStep created plan s { s with control := .notCreated }
  | giveUp (control : s.control = .notCreated) : OwnerStep created plan s
      { s with control := .created, shared.screen.running := false }
  | startPhoto (control : s.control = .threadStarted) : OwnerStep created plan s
      { s with control := .photoStarting, shared.slot.photoRunning := true }
  | createPhoto (control : s.control = .photoStarting) (made : created = true) :
      OwnerStep created plan s
        { s with control := .started, photoThreadStarted := true, photo.pc := .starting }
  | createPhotoFailed (control : s.control = .photoStarting) (made : created = false) :
      OwnerStep created plan s { s with control := .photoNotCreated }
  | giveUpPhoto (control : s.control = .photoNotCreated) : OwnerStep created plan s
      { s with control := .photoAbandoned, shared.slot.photoRunning := false }
  | abandonPhoto (control : s.control = .photoAbandoned) : OwnerStep created plan s
      { s with
        control := .started
        shared.screen.storageInitializationComplete := true
        shared.screen.storageReady := false
        shared.screen.filterMetrics.photoStorageState := .directoryFailed }
  | stop (control : s.control = .started) : OwnerStep created plan s
      { s with control := .stopping, shared.screen.running := false }
  | join (control : s.control = .stopping) (exited : s.frame.pc = .exited) :
      OwnerStep created plan s { s with control := .threadJoined }
  | stopPhoto (control : s.control = .threadJoined) : OwnerStep created plan s
      { s with control := .photoStopping, shared.slot.photoRunning := false }
  | joinPhoto (control : s.control = .photoStopping) (began : s.photoThreadStarted = true)
      (exited : s.photo.pc = .exited) : OwnerStep created plan s
        { s with control := .photoJoined, photoThreadStarted := false }
  | skipPhoto (control : s.control = .photoStopping) (began : ¬ s.photoThreadStarted = true) :
      OwnerStep created plan s { s with control := .photoJoined }
  | save (control : s.control = .photoJoined)
      (dirty : (s.shared.screen.storageReady && s.shared.screen.settingsDirty) = true) :
      OwnerStep created plan s
        { s with
          control := .stopped
          photo.world := (saveSettings plan (settingsLocked s.shared.screen) s.photo.world).2 }
  | leave (control : s.control = .photoJoined)
      (clean : ¬ (s.shared.screen.storageReady && s.shared.screen.settingsDirty) = true) :
      OwnerStep created plan s { s with control := .stopped }

theorem ownerStep_step {created : Bool} {plan : FilePlan}
    (hs : ownerStep created plan s = some s') : OwnerStep created plan s s' := by
  unfold ownerStep at hs
  split at hs <;> rename_i hc
  · cases hs
    exact .start hc
  · split at hs <;> rename_i hmade <;> cases hs
    · exact .create hc hmade
    · exact .createFailed hc (Bool.eq_false_iff.2 hmade)
  · cases hs
    exact .giveUp hc
  · cases hs
    exact .startPhoto hc
  · split at hs <;> rename_i hmade <;> cases hs
    · exact .createPhoto hc hmade
    · exact .createPhotoFailed hc (Bool.eq_false_iff.2 hmade)
  · cases hs
    exact .giveUpPhoto hc
  · cases hs
    exact .abandonPhoto hc
  · cases hs
    exact .stop hc
  · split at hs <;> cases hs
    rename_i hpc
    exact .join hc hpc
  · cases hs
    exact .stopPhoto hc
  · split at hs
    · rename_i hbegan
      split at hs <;> cases hs
      rename_i hpc
      exact .joinPhoto hc hbegan hpc
    · rename_i hbegan
      cases hs
      exact .skipPhoto hc hbegan
  · dsimp only at hs
    split at hs <;> rename_i hdirty <;> cases hs
    · exact .save hc hdirty
    · exact .leave hc hdirty
  · cases hs

theorem Handoff.owner (h : Handoff s) {created : Bool} {plan : FilePlan}
    (hs : ownerStep created plan s = some s') : Handoff s' := by
  -- before the photo thread, and after it with nothing left to join
  have early : ∀ control, s.control = control → control.beforePhoto = true →
      s.photo.pc = .notStarted := fun _ hc hb => h.before (hc ▸ hb)
  have nothing : ∀ {p : Prop} {b : Bool}, b = false → b = true → p := fun h h' =>
    absurd (h.symm.trans h') (by decide)
  cases ownerStep_step hs with
  | start hc | create hc | createFailed hc | giveUp hc =>
    exact h.own h.unopened h.exited (fun _ => early _ hc rfl) (nothing rfl) (nothing rfl)
      (by rw [hc]; exact nothing rfl)
  | startPhoto hc =>
    have hpc := early _ hc rfl
    exact h.own h.unopened (fun he => by simp [hpc] at he) (fun _ => hpc) (nothing rfl)
      (nothing rfl) (by rw [hc]; exact nothing rfl)
  | createPhoto hc =>
    have hpc := early _ hc rfl
    have hp := h.not_posted (by rw [hpc]; rfl)
    exact
      { inUse := h.inUse.trans (by rw [hpc]; rfl)
        unopened := fun _ => h.unopened (by rw [hpc]; rfl)
        pending := nothing hp
        known := fun _ hj => by cases hj
        exited := fun he => by cases he
        before := nothing rfl
        after := nothing rfl
        started := fun _ => .inl rfl
        joined := nothing rfl }
  | createPhotoFailed hc =>
    exact h.own h.unopened h.exited (fun _ => early _ hc rfl) (nothing rfl) (nothing rfl)
      (by rw [hc]; exact nothing rfl)
  | giveUpPhoto hc =>
    exact h.own h.unopened (fun _ => rfl) (fun _ => early _ hc rfl) (nothing rfl) (nothing rfl)
      (by rw [hc]; exact nothing rfl)
  | abandonPhoto hc =>
    exact h.own (fun _ => rfl) h.exited (nothing rfl) (nothing rfl) (nothing rfl)
      (by rw [hc]; exact nothing rfl)
  | stop hc | join hc =>
    exact h.own h.unopened h.exited (nothing rfl) (nothing rfl) (nothing rfl)
      (by rw [hc]; exact nothing rfl)
  | stopPhoto hc =>
    exact h.own h.unopened (fun _ => rfl) (nothing rfl) (fun _ => rfl) (nothing rfl)
      (by rw [hc]; exact nothing rfl)
  | joinPhoto hc _ hpc =>
    have hrunning := h.after (by rw [hc]; rfl)
    exact
      { inUse := h.inUse
        unopened := h.unopened
        pending := h.pending
        known := h.known
        exited := fun _ => hrunning
        before := nothing rfl
        after := fun _ => hrunning
        started := fun _ => .inr rfl
        joined := fun _ => .inl hpc }
  | skipPhoto hc hbegan =>
    have hpc : s.photo.pc = .notStarted := by
      by_contra hn
      rcases h.started hn with ht | hj
      · exact hbegan ht
      · rw [hc] at hj
        cases hj
    have hrunning := h.after (by rw [hc]; rfl)
    exact h.own h.unopened h.exited (nothing rfl) (fun _ => hrunning) (fun _ => .inr hpc)
      (fun _ => rfl)
  | save hc | leave hc =>
    have hrunning := h.after (by rw [hc]; rfl)
    have hjoined := h.joined (by rw [hc]; rfl)
    exact h.own h.unopened h.exited (nothing rfl) (fun _ => hrunning) (fun _ => hjoined)
      (fun _ => rfl)

/-- What the owner leaves alone: the job, the buffers, the gallery, the counts, the store. -/
structure OwnerKeeps (s s' : DisplayProbeWorker) : Prop where
  slot : s'.shared.slot = { s.shared.slot with photoRunning := s'.shared.slot.photoRunning }
  buffer : s'.shared.photoFrame = s.shared.photoFrame
  gallery : s'.shared.screen.gallery = s.shared.screen.gallery
  scene : s'.shared.screen.scene = s.shared.screen.scene
  style : s'.shared.screen.style = s.shared.screen.style
  intake : s'.shared.screen.intake = s.shared.screen.intake
  photoSavedCount : s'.shared.screen.photoSavedCount = s.shared.screen.photoSavedCount
  photoFailedCount : s'.shared.screen.photoFailedCount = s.shared.screen.photoFailedCount
  frame : s'.frame = s.frame ∨ s.control = .starting ∧ s'.frame = { s.frame with pc := .head }
  pc : s'.photo.pc = s.photo.pc ∨ s.photo.pc = .notStarted ∧ s'.photo.pc = .starting
  store : s'.photo.store = s.photo.store
  world : s'.photo.world = s.photo.world ∨
    ∃ plan settings, s'.photo.world = (saveSettings plan settings s.photo.world).2

theorem Handoff.owner_keeps (h : Handoff s) {created : Bool} {plan : FilePlan}
    (hs : ownerStep created plan s = some s') : OwnerKeeps s s' := by
  cases ownerStep_step hs with
  | create hc =>
    exact ⟨rfl, rfl, rfl, rfl, rfl, rfl, rfl, rfl, .inr ⟨hc, rfl⟩, .inl rfl, rfl, .inl rfl⟩
  | createPhoto hc =>
    have hpc := h.before (by rw [hc]; rfl)
    exact ⟨rfl, rfl, rfl, rfl, rfl, rfl, rfl, rfl, .inl rfl, .inr ⟨hpc, rfl⟩, rfl, .inl rfl⟩
  | save =>
    exact ⟨rfl, rfl, rfl, rfl, rfl, rfl, rfl, rfl, .inl rfl, .inl rfl, rfl, .inr ⟨_, _, rfl⟩⟩
  | _ => exact ⟨rfl, rfl, rfl, rfl, rfl, rfl, rfl, rfl, .inl rfl, .inl rfl, rfl, .inl rfl⟩

/-- The owner touches the frame thread only to create it. -/
theorem ownerStep_frame {created : Bool} {plan : FilePlan}
    (hs : ownerStep created plan s = some s') :
    (s'.frame = s.frame ∧ (s'.control.beforeFrame = true → s.control.beforeFrame = true)) ∨
      (s.control = .starting ∧ s'.control.beforeFrame = false ∧
        s'.frame = { s.frame with pc := .head }) := by
  cases ownerStep_step hs with
  | create hc => exact .inr ⟨hc, rfl, rfl⟩
  | start hc | createFailed hc | giveUp hc => exact .inl ⟨rfl, fun _ => by rw [hc]; rfl⟩
  | _ => exact .inl ⟨rfl, fun hbefore => by cases hbefore⟩

/-- The fields of the screen that the owner sets. -/
theorem ownerStep_screen {created : Bool} {plan : FilePlan}
    (hs : ownerStep created plan s = some s') :
    ∃ running complete ready state, s'.shared.screen =
      { s.shared.screen with
        running
        storageInitializationComplete := complete
        storageReady := ready
        filterMetrics.photoStorageState := state } := by
  cases ownerStep_step hs <;> exact ⟨_, _, _, _, rfl⟩

/-- The owner writes on the card only as the last thing it does. -/
theorem ownerStep_world {created : Bool} {plan : FilePlan}
    (hs : ownerStep created plan s = some s') :
    s'.photo.world = s.photo.world ∨ s.control = .photoJoined ∧ s'.control = .stopped := by
  cases ownerStep_step hs with
  | save hc => exact .inr ⟨hc, rfl⟩
  | _ => exact .inl rfl

/-- The owner says that there is no storage only where there is no photo thread. -/
theorem ownerStep_ready {created : Bool} {plan : FilePlan}
    (hs : ownerStep created plan s = some s') :
    s'.shared.screen.storageReady = s.shared.screen.storageReady ∨ s.control = .photoAbandoned := by
  cases ownerStep_step hs with
  | abandonPhoto hc => exact .inr hc
  | _ => exact .inl rfl

/-! ## Runs -/

theorem Handoff.step (h : Handoff s) {e : Event} {o : List Act}
    (hs : worker.step s e = some (s', o)) : Handoff s' := by
  cases e with
  | ui call =>
    cases hs
    have hstep := UiCall.run_step s.frame.filtered call s.shared
    exact h.change hstep.change hstep.kept.storageReady
  | frame e =>
    obtain ⟨v, hv, hs⟩ := Option.map_eq_some_iff.1 hs
    cases hs
    exact h.frame hv
  | photo e =>
    obtain ⟨v, hv, hs⟩ := Option.map_eq_some_iff.1 hs
    cases hs
    exact h.photo hv
  | owner created plan =>
    obtain ⟨v, hv, hs⟩ := Option.map_eq_some_iff.1 hs
    cases hs
    exact h.owner hv

theorem fresh_handoff (h : Fresh s) : Handoff s := by
  obtain ⟨now, root, model, version, status, memory, card, rfl⟩ := h
  exact create_handoff ..

variable {s₀ : DisplayProbeWorker} {G : Guard DisplayProbeWorker Event Act} {es : List Event}
  {l : List Act}

/-- **The hand-off holds in every state reached.** -/
theorem reach_handoff (h0 : Fresh s₀) (h : Reach worker G s₀ es l s) : Handoff s :=
  h.inv_state (fresh_handoff h0) fun _ _ _ _ _ hi _ hs => hi.step hs

theorem notStarted_stays {e : FrameEvent} {v v' : FrameView} (h : e.run v = some v') :
    v.frame.pc ≠ .notStarted := by
  cases FrameEvent.run_step h <;> simp [*]

/-- Until it is created the frame thread does nothing. -/
theorem reach_beforeFrame (h0 : Fresh s₀) (h : Reach worker G s₀ es l s)
    (hc : s.control.beforeFrame = true) : s.frame.pc = .notStarted := by
  refine h.inv_state (I := fun s => s.control.beforeFrame = true → s.frame.pc = .notStarted)
    ?_ ?_ hc
  · obtain ⟨now, root, model, version, status, memory, card, rfl⟩ := h0
    exact fun _ => rfl
  · intro _ s e s' o ih _ hs hb
    cases e with
    | ui call =>
      cases hs
      exact ih hb
    | frame e =>
      obtain ⟨v, hv, hs⟩ := Option.map_eq_some_iff.1 hs
      cases hs
      exact absurd (ih hb) (notStarted_stays hv)
    | photo e =>
      obtain ⟨v, hv, hs⟩ := Option.map_eq_some_iff.1 hs
      cases hs
      exact ih hb
    | owner created plan =>
      obtain ⟨v, hv, hs⟩ := Option.map_eq_some_iff.1 hs
      cases hs
      rcases ownerStep_frame hv with ⟨hframe, hbefore⟩ | ⟨-, hc', -⟩
      · rw [hframe]
        exact ih (hbefore hb)
      · rw [hc'] at hb
        cases hb

end RetroLens.Worker
