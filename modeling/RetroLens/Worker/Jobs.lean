import RetroLens.Lib.Mailbox
import RetroLens.Store.Atomic
import RetroLens.Worker.Handoff

/-!
# Every queued photo is saved once

The slot and the photo thread behave as a mailbox with one place: `boxOf` is
the mailbox that a state stands for, and every step of the worker is answered
by at most one step of it. Between a request and the end of its call the photo
buffer belongs to the job, so the call gets the photo that was queued.
-/

namespace RetroLens.Worker

open Text RetroLens.Core Store Runs Mailbox

/-! ## The mailbox of a state -/

inductive Task where
  | save (photo : Photo)
  | load (galleryIndex : Int)
  | delete (galleryIndex : Int)

def Task.photo? : Task → Option Photo
  | save photo => some photo
  | _ => none

/-- The task that a job is, with what the photo buffer holds. -/
def Job.task (job : Job) (buffer : Frame) : Option Task :=
  match job.job with
  | .save => some (.save (job.photo buffer))
  | .load => some (.load job.galleryIndex)
  | .delete => some (.delete job.galleryIndex)
  | .none => none

def boxOf (s : DisplayProbeWorker) : Box Task :=
  { accepting := s.shared.slot.photoRunning
    pending :=
      if s.shared.slot.photoPending then s.shared.slot.copy.task s.shared.photoFrame else none
    inUse := s.photo.pc.job.bind (·.task s.shared.photoFrame) }

/-! ## What the log tells -/

namespace Act

def queued? : Act → Option Photo
  | queued photo => some photo
  | _ => none

def saveCalled? : Act → Option Photo
  | saveCalled photo => some photo
  | _ => none

def saveReturned? : Act → Option Photo
  | saveReturned photo _ => some photo
  | _ => none

end Act

/-- The photos whose request returned `kPhotoRequestQueued`, in order. -/
def queuedPhotos (l : List Act) : List Photo := l.filterMap Act.queued?

/-- The photos that `savePhoto` was called with. -/
def calledPhotos (l : List Act) : List Photo := l.filterMap Act.saveCalled?

/-- The photos that `savePhoto` had read when it returned. -/
def returnedPhotos (l : List Act) : List Photo := l.filterMap Act.saveReturned?

/-- The tasks that save a photo. -/
def photosOf (ts : List Task) : List Photo := ts.filterMap Task.photo?

section

variable (l o : List Act) (ts us : List Task)

@[simp] theorem queuedPhotos_append : queuedPhotos (l ++ o) = queuedPhotos l ++ queuedPhotos o :=
  List.filterMap_append

@[simp] theorem calledPhotos_append : calledPhotos (l ++ o) = calledPhotos l ++ calledPhotos o :=
  List.filterMap_append

@[simp] theorem returnedPhotos_append :
    returnedPhotos (l ++ o) = returnedPhotos l ++ returnedPhotos o := List.filterMap_append

@[simp] theorem photosOf_append : photosOf (ts ++ us) = photosOf ts ++ photosOf us :=
  List.filterMap_append

end

/-- The photo taken, its call to come. -/
def uncalled (s : DisplayProbeWorker) : List Photo :=
  match s.photo.pc with
  | .taken job => photosOf (job.task s.shared.photoFrame).toList
  | _ => []

/-- The photo whose call has not returned. -/
def unreturned (s : DisplayProbeWorker) : List Photo :=
  match s.photo.pc with
  | .calling job => photosOf (job.task s.shared.photoFrame).toList
  | _ => []

/-- The number of saves whose result is not published. -/
def unpublished (s : DisplayProbeWorker) : Nat :=
  match s.photo.pc with
  | .returned job _ | .handedBack job _ => if job.job = .save then 1 else 0
  | _ => 0

/-- What the worker's log, its state and the mailbox have to do with each other. -/
structure Tally (l : List Act) (s : DisplayProbeWorker) (k : List (Mailbox.Act Task))
    (b : Box Task) : Prop where
  handoff : Handoff s
  box : b = boxOf s
  queued : queuedPhotos l = photosOf (posts k)
  called : calledPhotos l ++ uncalled s = photosOf (takes k)
  returned : returnedPhotos l ++ unreturned s = calledPhotos l
  counted : s.shared.screen.photoSavedCount + s.shared.screen.photoFailedCount + unpublished s =
    (returnedPhotos l).length

variable {l o : List Act} {s s' : DisplayProbeWorker} {k k' : List (Mailbox.Act Task)}
  {b : Box Task} {ds : List (Mailbox.Event Task)} {task : Task} {job : Job}

/-- The worker's step is answered by a run of the mailbox. -/
def Answered (l : List Act) (s' : DisplayProbeWorker) (k : List (Mailbox.Act Task))
    (b : Box Task) : Prop :=
  ∃ ds k' b', Run Mailbox.box b ds k' b' ∧ Tally l s' (k ++ k') b'

theorem Tally.next (h : Tally l s k b) (hh : Handoff s')
    (hrun : Run Mailbox.box (boxOf s) ds k' (boxOf s'))
    (hq : queuedPhotos o = photosOf (posts k'))
    (hc : calledPhotos o ++ uncalled s' = uncalled s ++ photosOf (takes k'))
    (hr : returnedPhotos o ++ unreturned s' = unreturned s ++ calledPhotos o)
    (hn : s'.shared.screen.photoSavedCount + s'.shared.screen.photoFailedCount + unpublished s' =
      s.shared.screen.photoSavedCount + s.shared.screen.photoFailedCount + unpublished s +
        (returnedPhotos o).length) : Answered (l ++ o) s' k b := by
  refine ⟨ds, k', _, h.box ▸ hrun, hh, rfl, ?_, ?_, ?_, ?_⟩
  · rw [queuedPhotos_append, posts_append, photosOf_append, h.queued, hq]
  · rw [calledPhotos_append, takes_append, photosOf_append, List.append_assoc, hc, ← h.called,
      List.append_assoc]
  · rw [calledPhotos_append, returnedPhotos_append, List.append_assoc, hr, ← h.returned]
    simp only [List.append_assoc]
  · rw [returnedPhotos_append, List.length_append, hn, h.counted]

/-- A step that the mailbox does not see. -/
theorem Tally.work (h : Tally l s k b) (hh : Handoff s') (hbox : boxOf s' = boxOf s)
    (hq : queuedPhotos o = []) (hc : calledPhotos o ++ uncalled s' = uncalled s)
    (hr : returnedPhotos o ++ unreturned s' = unreturned s ++ calledPhotos o)
    (hn : s'.shared.screen.photoSavedCount + s'.shared.screen.photoFailedCount + unpublished s' =
      s.shared.screen.photoSavedCount + s.shared.screen.photoFailedCount + unpublished s +
        (returnedPhotos o).length) : Answered (l ++ o) s' k b := by
  have hrun : Run Mailbox.box (boxOf s) [] [] (boxOf s') := by
    rw [hbox]
    exact .init
  exact h.next hh hrun hq (hc.trans (List.append_nil _).symm) hr hn

/-! ## Calls -/

theorem still_congr (hpc : s'.photo.pc = s.photo.pc)
    (hb : s.photo.pc.job = none ∨ s'.shared.photoFrame = s.shared.photoFrame) :
    uncalled s' = uncalled s ∧ unreturned s' = unreturned s ∧ unpublished s' = unpublished s := by
  unfold uncalled unreturned unpublished
  rw [hpc]
  rcases hb with hb | hb
  · cases h : s.photo.pc <;> simp [h, PhotoLoop.job] at hb ⊢
  · rw [hb]
    exact ⟨rfl, rfl, rfl⟩

/-- A step in which the photo thread takes no part, and at most a task is posted. -/
theorem Tally.still (h : Tally l s k b) (hh : Handoff s')
    (hrun : Run Mailbox.box (boxOf s) ds k' (boxOf s'))
    (hq : queuedPhotos o = photosOf (posts k')) (ht : photosOf (takes k') = [])
    (hc : calledPhotos o = []) (hr : returnedPhotos o = []) (hpc : s'.photo.pc = s.photo.pc)
    (hb : s.photo.pc.job = none ∨ s'.shared.photoFrame = s.shared.photoFrame)
    (hsaved : s'.shared.screen.photoSavedCount = s.shared.screen.photoSavedCount)
    (hfailed : s'.shared.screen.photoFailedCount = s.shared.screen.photoFailedCount) :
    Answered (l ++ o) s' k b := by
  obtain ⟨h1, h2, h3⟩ := still_congr hpc hb
  refine h.next hh hrun hq ?_ ?_ ?_
  · rw [hc, h1, ht, List.nil_append, List.append_nil]
  · rw [hr, h2, hc, List.nil_append, List.append_nil]
  · rw [hr, h3, hsaved, hfailed, List.length_nil, Nat.add_zero]

/-- A free slot is an empty mailbox. -/
theorem boxOf_free (h : Handoff s) (hfree : s.shared.slot.free = true) :
    boxOf s = { accepting := true } ∧ s.photo.pc.job = none := by
  obtain ⟨hr, hp, hu⟩ := free_iff.1 hfree
  have hjob : s.photo.pc.job = none := by
    rw [← Option.not_isSome_iff_eq_none, ← h.inUse, hu]
    decide
  refine ⟨?_, hjob⟩
  unfold boxOf
  rw [hr, hp, hjob]
  rfl

/-- A job posted in a free slot is a task posted in the mailbox. -/
theorem boxOf_post (h : Handoff s) (hfree : s.shared.slot.free = true)
    (hrunning : s'.shared.slot.photoRunning = true) (hpending : s'.shared.slot.photoPending = true)
    (htask : s'.shared.slot.copy.task s'.shared.photoFrame = some task)
    (hpc : s'.photo.pc.job = s.photo.pc.job) :
    Run Mailbox.box (boxOf s) [.post task] [.posted task] (boxOf s') := by
  obtain ⟨hbox, hjob⟩ := boxOf_free h hfree
  have hbox' : boxOf s' = { accepting := true, pending := some task } := by
    unfold boxOf
    rw [hrunning, hpending, hpc, hjob, htask]
    rfl
  rw [hbox, hbox']
  exact run_step rfl

theorem boxOf_eq (hrunning : s'.shared.slot.photoRunning = s.shared.slot.photoRunning)
    (hpending : s'.shared.slot.photoPending = s.shared.slot.photoPending)
    (hcopy : s'.shared.slot.copy = s.shared.slot.copy)
    (hb : s'.shared.photoFrame = s.shared.photoFrame) (hpc : s'.photo.pc.job = s.photo.pc.job) :
    boxOf s' = boxOf s := by
  unfold boxOf
  rw [hrunning, hpending, hcopy, hb, hpc]

/-- A job for the gallery is posted. -/
theorem Posted.run {job : PhotoJob} (hp : Posted job s.shared s'.shared) (h : Handoff s)
    (htask : s'.shared.slot.copy.task s'.shared.photoFrame = some task)
    (hpc : s'.photo.pc.job = s.photo.pc.job) :
    Run Mailbox.box (boxOf s) [.post task] [.posted task] (boxOf s') := by
  refine boxOf_post h hp.free ?_ ?_ htask hpc
  · rw [hp.slot]
    exact (free_iff.1 hp.free).1
  · rw [hp.slot]

/-- A key press shows no photo. -/
theorem key_acts (filtered : Frame) (entries : Entries) (sh : Shared) (keyValue : PhotoUiKey)
    (down : Bool) (timestampMs : Int) :
    let o := (UiCall.key keyValue down timestampMs).acts filtered entries sh
    queuedPhotos o = [] ∧ calledPhotos o = [] ∧ returnedPhotos o = [] := by
  simp only [UiCall.acts]
  split <;> split <;> exact ⟨rfl, rfl, rfl⟩

theorem call_acts (filtered : Frame) (entries : Entries) (sh : Shared) (call : UiCall)
    (other : ∀ keyValue down timestampMs, call ≠ .key keyValue down timestampMs)
    (refused : ∀ timestampMs, call = .requestPhoto timestampMs →
      (requestPhoto filtered timestampMs sh).1 ≠ .queued) :
    queuedPhotos (call.acts filtered entries sh) = [] ∧
      calledPhotos (call.acts filtered entries sh) = [] ∧
      returnedPhotos (call.acts filtered entries sh) = [] := by
  cases call with
  | key keyValue down timestampMs => exact absurd rfl (other _ _ _)
  | requestPhoto timestampMs =>
    simp only [UiCall.acts, if_neg (refused _ rfl)]
    exact ⟨rfl, rfl, rfl⟩
  | touch | changeStyle | setFocus | configureStorage | noteAttempts | submitJpeg =>
    exact ⟨rfl, rfl, rfl⟩

/-- A step that leaves slot, buffer and photo thread alone. -/
theorem Tally.quiet (h : Tally l s k b) (hh : Handoff s') (hbox : boxOf s' = boxOf s)
    (ho : queuedPhotos o = [] ∧ calledPhotos o = [] ∧ returnedPhotos o = [])
    (hb : s'.shared.photoFrame = s.shared.photoFrame) (hpc : s'.photo.pc = s.photo.pc)
    (hsaved : s'.shared.screen.photoSavedCount = s.shared.screen.photoSavedCount)
    (hfailed : s'.shared.screen.photoFailedCount = s.shared.screen.photoFailedCount) :
    Answered (l ++ o) s' k b := by
  obtain ⟨h1, h2, h3⟩ := still_congr hpc (.inr hb)
  refine h.work hh hbox ho.1 ?_ ?_ ?_
  · rw [ho.2.1, h1, List.nil_append]
  · rw [ho.2.1, ho.2.2, h2, List.nil_append, List.append_nil]
  · rw [ho.2.2, h3, hsaved, hfailed, List.length_nil, Nat.add_zero]

/-- A key press posts a job for the gallery, or none. -/
theorem Tally.key (h : Tally l s k b) {keyValue : PhotoUiKey} {down : Bool} {sh : Shared}
    (hk : KeySpec keyValue down s.shared sh)
    (ho : queuedPhotos o = [] ∧ calledPhotos o = [] ∧ returnedPhotos o = []) :
    Answered (l ++ o) { s with shared := sh } k b := by
  have hh := h.handoff.change hk.change hk.kept.storageReady
  have same : sh.slot = s.shared.slot → Answered (l ++ o) { s with shared := sh } k b :=
    fun hslot => h.quiet hh (boxOf_eq (by rw [hslot]) (by rw [hslot]) (by rw [hslot]) hk.buffer rfl)
      ho hk.buffer rfl hk.kept.photoSavedCount hk.kept.photoFailedCount
  have posted : ∀ job task, Posted job s.shared sh →
      sh.slot.copy.task sh.photoFrame = some task → Task.photo? task = none →
      Answered (l ++ o) { s with shared := sh } k b := fun job task hp ht hn =>
    h.still hh (hp.run h.handoff ht rfl) (by simp [ho.1, posts, photosOf, Mailbox.Act.posted?, hn])
      rfl ho.2.1 ho.2.2 rfl (.inr hk.buffer) hk.kept.photoSavedCount hk.kept.photoFailedCount
  cases hk.step with
  | aside slot => exact same slot
  | browsed slot =>
    rcases slot with slot | hp
    · exact same slot
    · exact posted _ (.load sh.screen.gallery.galleryIndex) hp (by rw [hp.slot]; rfl) rfl
  | reopened slot => exact same slot
  | confirmed hkey pressed scene hp =>
    exact posted _ (.delete sh.screen.gallery.galleryIndex) hp (by rw [hp.slot]; rfl) rfl

theorem Tally.ui (h : Tally l s k b) (call : UiCall) :
    Answered (l ++ call.acts s.frame.filtered s.photo.store.entries s.shared)
      { s with shared := call.run s.frame.filtered s.shared } k b := by
  have hstep := UiCall.run_step s.frame.filtered call s.shared
  have hh := h.handoff.change hstep.change hstep.kept.storageReady
  have hsaved := hstep.kept.photoSavedCount
  have hfailed := hstep.kept.photoFailedCount
  cases hstep with
  | key keyValue down timestampMs eq spec =>
    subst eq
    exact h.key spec (key_acts ..)
  | screen slot buffer screen other refused =>
    exact h.quiet hh (boxOf_eq (by rw [slot]) (by rw [slot]) (by rw [slot]) buffer rfl)
      (call_acts _ _ _ _ other refused) buffer rfl hsaved hfailed
  | configured status eq shared =>
    subst eq
    obtain ⟨h1, h2, -, h4⟩ := configureStorage_copy status s.shared.slot
    exact h.quiet hh (boxOf_eq h1 h2 h4 rfl rfl) ⟨rfl, rfl, rfl⟩ rfl rfl rfl rfl
  | requested timestampMs eq result hasPrevious storageReady free screen slot buffer =>
    subst eq
    have hacts : (UiCall.requestPhoto timestampMs).acts s.frame.filtered s.photo.store.entries
        s.shared = [.queued _] := if_pos result
    have htask : ∀ sh' : Shared, sh'.slot.photoJob = .save → sh'.slot.copy.task sh'.photoFrame =
        some (.save (sh'.slot.copy.photo sh'.photoFrame)) := fun sh' hj => by
      simp only [Job.task, JobSlot.copy, hj]
    rw [hacts]
    refine h.still hh (boxOf_post h.handoff free ?_ ?_ (htask _ ?_) rfl) rfl rfl rfl rfl rfl
      (.inl (boxOf_free h.handoff free).2) hsaved hfailed
    · rw [slot]
      exact (free_iff.1 free).1
    · rw [slot]
    · rw [slot]

/-! ## The photo thread -/

/-- A place of the photo thread with no job and no result. -/
def PhotoLoop.idle : PhotoLoop → Bool
  | taken _ | calling _ | returned .. | handedBack .. => false
  | _ => true

theorem idle_still (h : s.photo.pc.idle = true) :
    s.photo.pc.job = none ∧ uncalled s = [] ∧ unreturned s = [] ∧ unpublished s = 0 := by
  unfold uncalled unreturned unpublished
  cases hpc : s.photo.pc <;> simp [hpc, PhotoLoop.idle, PhotoLoop.job] at h ⊢

/-- The photo thread goes on without a job. -/
theorem Tally.idle (h : Tally l s k b) (hh : Handoff s')
    (ho : queuedPhotos o = [] ∧ calledPhotos o = [] ∧ returnedPhotos o = [])
    (hslot : s'.shared.slot = s.shared.slot) (hb : s'.shared.photoFrame = s.shared.photoFrame)
    (hidle : s.photo.pc.idle = true) (hidle' : s'.photo.pc.idle = true)
    (hsaved : s'.shared.screen.photoSavedCount = s.shared.screen.photoSavedCount)
    (hfailed : s'.shared.screen.photoFailedCount = s.shared.screen.photoFailedCount) :
    Answered (l ++ o) s' k b := by
  obtain ⟨hj, h1, h2, h3⟩ := idle_still hidle
  obtain ⟨hj', h1', h2', h3'⟩ := idle_still hidle'
  refine h.work hh (boxOf_eq (by rw [hslot]) (by rw [hslot]) (by rw [hslot]) hb
    (hj'.trans hj.symm)) ho.1 ?_ ?_ ?_
  · rw [ho.2.1, h1, h1']
    rfl
  · rw [ho.2.1, ho.2.2, h2, h2']
  · rw [ho.2.2, h3, h3', hsaved, hfailed]
    rfl

theorem publish_counts (job : Job) (result : JobResult) (now freeBytes : Int) (p : PhotoStore)
    (sh : Shared) :
    (publish job result now freeBytes p sh).screen.photoSavedCount +
        (publish job result now freeBytes p sh).screen.photoFailedCount =
      sh.screen.photoSavedCount + sh.screen.photoFailedCount + if job.job = .save then 1 else 0 := by
  unfold publish
  dsimp only
  split
  · rename_i hjob
    unfold publishSave
    dsimp only
    split <;> simp only [mirrorPhoto] <;> omega
  · rename_i hjob
    simp only [mirrorPhoto, publishLoad, hjob, reduceCtorEq, if_false, Nat.add_zero]
  · rename_i hjob
    rw [hjob]
    unfold publishDelete
    dsimp only
    split
    · generalize hsh₁ : ({ sh with screen := _ } : Shared) = sh₁
      have h1 : sh₁.screen.photoSavedCount = sh.screen.photoSavedCount := by subst hsh₁; rfl
      have h2 : sh₁.screen.photoFailedCount = sh.screen.photoFailedCount := by subst hsh₁; rfl
      rcases queueGalleryLocked_cases .load .loading sh₁ with h | ⟨-, -, ha, -⟩
      · simp [queueGalleryLoadLocked, h, mirrorPhoto, h1, h2]
      · simp [queueGalleryLoadLocked, mirrorPhoto, ha.photoSavedCount, ha.photoFailedCount, h1, h2]
    · simp [mirrorPhoto]
  · rename_i hjob
    simp [mirrorPhoto, hjob]

theorem job_task (h : job.job ≠ .none) (buffer : Frame) : ∃ task, job.task buffer = some task := by
  unfold Job.task
  cases hj : job.job with
  | none => exact absurd hj h
  | save => exact ⟨_, rfl⟩
  | load => exact ⟨_, rfl⟩
  | delete => exact ⟨_, rfl⟩

/-- The store's call leaves the task as it is. -/
theorem callStore_task {work : Work} {buffer : Frame} {store : PhotoStore} {w : CardWorld}
    {r : JobResult × Frame × PhotoStore × CardWorld}
    (h : callStore job work buffer store w = some r) : job.task r.2.1 = job.task buffer := by
  unfold callStore at h
  unfold Job.task
  split at h
  · cases h
    rfl
  · rename_i hj
    rw [hj]
  · rename_i hj
    rw [hj]
  · cases h
    rfl
  · cases h

/-- The job that is posted is taken. -/
theorem Tally.take (h : Tally l s k b) (pc : s.photo.pc = .waiting)
    (pending : s.shared.slot.photoPending = true)
    (hh : Handoff { s with
      shared.slot.photoPending := false
      shared.slot.photoInUse := true
      photo.pc := .taken s.shared.slot.copy }) :
    Answered (l ++ []) { s with
      shared.slot.photoPending := false
      shared.slot.photoInUse := true
      photo.pc := .taken s.shared.slot.copy } k b := by
  obtain ⟨-, -, -, hjob⟩ := h.handoff.pending pending
  obtain ⟨task, htask⟩ : ∃ task, s.shared.slot.copy.task s.shared.photoFrame = some task :=
    job_task hjob _
  have hbox : boxOf s = { accepting := s.shared.slot.photoRunning, pending := some task } := by
    simp [boxOf, pending, htask, pc, PhotoLoop.job]
  refine h.next hh (run_step (e := .take) (o := [.taken task]) ?_) rfl ?_ ?_ ?_
  · rw [hbox]
    simp [Mailbox.box, boxOf, PhotoLoop.job, htask]
  · simp only [uncalled, pc, htask]
    rfl
  · simp only [unreturned, pc]
    rfl
  · simp only [unpublished, pc]
    rfl

/-- `savePhoto` is called with the photo of a job that saves. -/
theorem call_photos {v : PhotoView} (v' : PhotoView) (pc : v.photo.pc = .taken job) :
    queuedPhotos (PhotoEvent.call.acts v v') = [] ∧
      calledPhotos (PhotoEvent.call.acts v v') =
        photosOf (job.task v.shared.photoFrame).toList ∧
      returnedPhotos (PhotoEvent.call.acts v v') = [] := by
  simp only [PhotoEvent.acts, pc, Job.task]
  cases job.job <;> exact ⟨rfl, rfl, rfl⟩

theorem Tally.call (h : Tally l s k b) (v : PhotoView) (pc : s.photo.pc = .taken job)
    (hh : Handoff { s with photo.pc := .calling job }) :
    Answered (l ++ PhotoEvent.call.acts s.photoView v) { s with photo.pc := .calling job } k b := by
  have hphotos := call_photos v (v := s.photoView) pc
  generalize PhotoEvent.call.acts s.photoView v = o at hphotos ⊢
  obtain ⟨hqueued, hcalled, hreturned⟩ := hphotos
  refine h.work hh (boxOf_eq rfl rfl rfl rfl (by rw [pc]; rfl)) hqueued ?_ ?_ ?_
  · simp only [uncalled, pc, hcalled, List.append_nil]
    rfl
  · simp only [unreturned, pc, hcalled, hreturned, List.nil_append]
    rfl
  · simp only [unpublished, pc, hreturned]
    rfl

/-- What is entered as the store's call returns. -/
theorem finish_photos (work : Work) {v : PhotoView} (v' : PhotoView) (result : JobResult)
    (pc : v.photo.pc = .calling job) (pc' : v'.photo.pc = .returned job result) :
    queuedPhotos ((PhotoEvent.finish work).acts v v') = [] ∧
      calledPhotos ((PhotoEvent.finish work).acts v v') = [] ∧
      returnedPhotos ((PhotoEvent.finish work).acts v v') =
        photosOf (job.task v.shared.photoFrame).toList ∧
      (returnedPhotos ((PhotoEvent.finish work).acts v v')).length =
        if job.job = .save then 1 else 0 := by
  simp only [PhotoEvent.acts, pc, pc', Job.task]
  cases job.job <;> exact ⟨rfl, rfl, rfl, rfl⟩

theorem Tally.finish (h : Tally l s k b) {work : Work} {v : PhotoView}
    {r : JobResult × Frame × PhotoStore × CardWorld} (pc : s.photo.pc = .calling job)
    (call : callStore job work s.shared.photoFrame s.photo.store s.photo.world = some r)
    (eq : v = ⟨{ s.shared with photoFrame := r.2.1 }, ⟨.returned job r.1, r.2.2.1, r.2.2.2⟩⟩)
    (hh : Handoff { s with shared := v.shared, photo := v.photo }) :
    Answered (l ++ (PhotoEvent.finish work).acts s.photoView v)
      { s with shared := v.shared, photo := v.photo } k b := by
  have htask := callStore_task call
  have hphotos := finish_photos work (v := s.photoView) v r.1 pc (by rw [eq])
  generalize (PhotoEvent.finish work).acts s.photoView v = o at hphotos ⊢
  obtain ⟨hqueued, hcalled, hreturned, hlength⟩ := hphotos
  subst eq
  refine h.work hh ?_ hqueued ?_ ?_ ?_
  · simp [boxOf, PhotoLoop.job, pc, htask, h.handoff.not_pending (by rw [pc]; rfl)]
  · simp only [uncalled, pc, hcalled, List.append_nil]
  · simp only [unreturned, pc, hcalled, hreturned, List.append_nil]
    rfl
  · simp only [unpublished, pc, hlength, Nat.add_zero]

theorem Tally.handBack (h : Tally l s k b) {result : JobResult}
    (pc : s.photo.pc = .returned job result)
    (hh : Handoff { s with
      shared.slot.photoInUse := false
      shared.slot.photoJob := .none
      photo.pc := .handedBack job result }) :
    Answered (l ++ []) { s with
      shared.slot.photoInUse := false
      shared.slot.photoJob := .none
      photo.pc := .handedBack job result } k b := by
  obtain ⟨task, htask⟩ := job_task (h.handoff.known job (by rw [pc]; rfl)) s.shared.photoFrame
  refine h.next hh (run_step (e := .giveBack) (o := [.returned task]) ?_) rfl ?_ ?_ ?_
  · simp [Mailbox.box, boxOf, PhotoLoop.job, pc, htask, h.handoff.not_pending (by rw [pc]; rfl)]
  · simp only [uncalled, pc]
    rfl
  · simp only [unreturned, pc]
    rfl
  · simp only [unpublished, pc]
    rfl

/-- The result of a job is published; behind a deletion a load may be posted. -/
theorem Tally.publish (h : Tally l s k b) {result : JobResult} {now freeBytes : Int}
    (pc : s.photo.pc = .handedBack job result)
    (hh : Handoff { s with
      shared := Worker.publish job result now freeBytes s.photo.store s.shared
      photo.pc := .waiting }) :
    Answered (l ++ []) { s with
      shared := Worker.publish job result now freeBytes s.photo.store s.shared
      photo.pc := .waiting } k b := by
  obtain ⟨hslot, hb⟩ := publish_slot job result now freeBytes s.photo.store s.shared
  have hcounts := publish_counts job result now freeBytes s.photo.store s.shared
  generalize Worker.publish job result now freeBytes s.photo.store s.shared = sh
    at hslot hb hcounts hh ⊢
  have huncalled : uncalled s = [] ∧ unreturned s = [] ∧
      unpublished s = if job.job = .save then 1 else 0 := by
    simp only [uncalled, unreturned, unpublished, pc, and_self]
  obtain ⟨ds, k', hrun, hq, ht⟩ : ∃ ds k',
      Run Mailbox.box (boxOf s) ds k' (boxOf { s with shared := sh, photo.pc := .waiting }) ∧
        photosOf (posts k') = [] ∧ photosOf (takes k') = [] := by
    rcases hslot with hslot | ⟨hjob, hp⟩
    · have hbox : boxOf { s with shared := sh, photo.pc := .waiting } = boxOf s :=
        boxOf_eq (by rw [hslot]) (by rw [hslot]) (by rw [hslot]) hb (by rw [pc]; rfl)
      refine ⟨[], [], ?_, rfl, rfl⟩
      rw [hbox]
      exact .init
    · have htask : sh.slot.copy.task sh.photoFrame =
          some (.load sh.screen.gallery.galleryIndex) := by
        rw [hp.slot]
        rfl
      exact ⟨_, _, hp.run h.handoff htask (by rw [pc]; rfl), rfl, rfl⟩
  refine h.next hh hrun hq.symm ?_ ?_ ?_
  · rw [huncalled.1, ht]
    rfl
  · rw [huncalled.2.1]
    rfl
  · rw [huncalled.2.2]
    exact hcounts

/-- Every section of the photo thread is answered. -/
theorem Tally.photo (h : Tally l s k b) {e : PhotoEvent} {v : PhotoView}
    (hs : e.run s.photoView = some v) :
    Answered (l ++ e.acts s.photoView v) { s with shared := v.shared, photo := v.photo } k b := by
  have hh := h.handoff.photo hs
  have hrun : e.Step s.shared s.photo v := PhotoEvent.run_step hs
  cases hrun with
  | exit event pc running eq =>
    subst eq
    have hidle : s.photo.pc.idle = true := by rcases pc with pc | ⟨pc, -⟩ <;> rw [pc] <;> rfl
    have ho : e.acts s.photoView ⟨s.shared, { s.photo with pc := .exited }⟩ = [] := by
      rcases event with rfl | rfl <;> rfl
    rw [ho]
    exact h.idle hh ⟨rfl, rfl, rfl⟩ rfl rfl hidle rfl rfl rfl
  | configure event pc eq =>
    subst eq event
    exact h.idle hh ⟨rfl, rfl, rfl⟩ rfl rfl (by rw [pc]; rfl) rfl rfl rfl
  | opened plan readable status event pc eq =>
    subst eq event
    obtain ⟨state, settings, hopen⟩ := openStore_pc plan readable status s.photo
    refine h.idle hh ?_ rfl rfl (by rw [pc]; rfl) (by simp only [hopen]; rfl) rfl rfl
    simp only [PhotoEvent.acts, DisplayProbeWorker.photoView, pc, hopen]
    cases status <;> exact ⟨rfl, rfl, rfl⟩
  | install freeBytes state settings event pc eq =>
    subst eq event
    refine h.idle hh ⟨rfl, rfl, rfl⟩ rfl rfl (by rw [pc]; rfl) rfl ?_ ?_
    · cases settings <;> rfl
    · cases settings <;> rfl
  | take event pc pending eq =>
    subst eq event
    exact h.take pc pending hh
  | call job event pc eq =>
    subst eq event
    exact h.call _ pc hh
  | finish job work r event pc call eq =>
    subst event
    exact h.finish pc call eq hh
  | handBack job result event pc eq =>
    subst eq event
    exact h.handBack pc hh
  | publish job result now freeBytes event pc eq =>
    subst eq event
    exact h.publish pc hh

/-! ## The frame thread and the owner -/

theorem Tally.frame (h : Tally l s k b) {e : FrameEvent} {v : FrameView}
    (hs : e.run s.frameView = some v) :
    Answered (l ++ e.acts s.frameView) { s with shared.screen := v.screen, frame := v.frame } k b := by
  have ha := FrameEvent.run_aside hs
  refine h.quiet (h.handoff.frame hs) (boxOf_eq rfl rfl rfl rfl rfl) ?_ rfl rfl ha.photoSavedCount
    ha.photoFailedCount
  unfold FrameEvent.acts
  split <;> exact ⟨rfl, rfl, rfl⟩

/-- The owner opens and closes the mailbox. -/
theorem Tally.owner (h : Tally l s k b) {created : Bool} {plan : FilePlan}
    (hs : ownerStep created plan s = some s') : Answered (l ++ []) s' k b := by
  have hk := h.handoff.owner_keeps hs
  have hpc : s'.photo.pc.job = s.photo.pc.job ∧ uncalled s' = uncalled s ∧
      unreturned s' = unreturned s ∧ unpublished s' = unpublished s := by
    rcases hk.pc with hpc | ⟨hpc, hpc'⟩
    · exact ⟨by rw [hpc], still_congr hpc (.inr hk.buffer)⟩
    · simp only [uncalled, unreturned, unpublished, hpc, hpc', and_self]
      exact ⟨rfl, trivial⟩
  have hbox : boxOf s' = { boxOf s with accepting := s'.shared.slot.photoRunning } := by
    unfold boxOf
    rw [hpc.1, hk.buffer, hk.slot]
    rfl
  have hrun : Run Mailbox.box (boxOf s) [.open' s'.shared.slot.photoRunning] [] (boxOf s') := by
    rw [hbox]
    exact run_step rfl
  refine h.next (h.handoff.owner hs) hrun rfl ?_ ?_ ?_
  · rw [hpc.2.1]
    exact (List.append_nil _).symm
  · rw [hpc.2.2.1]
    exact (List.append_nil _).symm
  · rw [hpc.2.2.2, hk.photoSavedCount, hk.photoFailedCount]
    rfl

/-! ## Runs -/

theorem Tally.step (h : Tally l s k b) {e : Event} (hs : worker.step s e = some (s', o)) :
    Answered (l ++ o) s' k b := by
  cases e with
  | ui call =>
    cases hs
    exact h.ui call
  | frame e =>
    obtain ⟨v, hv, hs⟩ := Option.map_eq_some_iff.1 hs
    cases hs
    exact h.frame hv
  | photo e =>
    obtain ⟨v, hv, hs⟩ := Option.map_eq_some_iff.1 hs
    cases hs
    exact h.photo hv
  | owner created plan =>
    obtain ⟨v, hv, hs⟩ := Option.map_eq_some_iff.1 hs
    cases hs
    exact h.owner hv

theorem fresh_tally (h : Fresh s) : Tally [] s [] {} := by
  have hh := fresh_handoff h
  obtain ⟨now, root, model, version, status, memory, card, rfl⟩ := h
  exact ⟨hh, rfl, rfl, rfl, rfl, rfl⟩

variable {s₀ : DisplayProbeWorker} {es : List Event}

/-- **The worker refines the mailbox**: every run of the worker is answered by a run of the
mailbox, which says what becomes of the tasks. -/
theorem reach_tally (h0 : Fresh s₀) (h : Run worker s₀ es l s) :
    ∃ k, Counts k (boxOf s) ∧ Tally l s k (boxOf s) := by
  obtain ⟨ds, k, b, hrun, ht⟩ := h.simulate (R := Tally) (fresh_tally h0)
    fun _ _ _ _ _ _ _ ht _ hs => ht.step hs
  have hb := ht.box
  subst hb
  exact ⟨k, reach_counts hrun, ht⟩

/-- The photos whose call is still to come. -/
def outstanding (s : DisplayProbeWorker) : List Photo :=
  uncalled s ++ photosOf (boxOf s).pending.toList

theorem queued_eq (hc : Counts k (boxOf s)) (ht : Tally l s k (boxOf s)) :
    queuedPhotos l = calledPhotos l ++ outstanding s := by
  rw [ht.queued, hc.posts_eq, photosOf_append, ← ht.called, outstanding, List.append_assoc]

theorem photosOf_length (t : Option Task) : (photosOf t.toList).length ≤ 1 := by
  cases t with
  | none => exact Nat.zero_le _
  | some t => exact (List.length_filterMap_le ..).trans (Nat.le_refl 1)

theorem outstanding_length (hc : Counts k (boxOf s)) : (outstanding s).length ≤ 1 := by
  rw [outstanding, List.length_append]
  rcases hc.single with hp | hu
  · have : (uncalled s).length ≤ 1 := by
      unfold uncalled
      split
      · exact photosOf_length _
      · exact Nat.zero_le _
    rw [hp]
    exact this
  · have : uncalled s = [] := by
      unfold uncalled
      split
      · rename_i job hpc
        simp only [boxOf, hpc, PhotoLoop.job, Option.bind_some] at hu
        rw [hu]
        rfl
      · rfl
    rw [this]
    simpa using photosOf_length _

/-! ### Progress -/

/-- How many sections the photo thread is away from calling `savePhoto`. -/
def PhotoLoop.distance : PhotoLoop → Nat
  | handedBack .. => 3
  | waiting => 2
  | taken _ => 1
  | _ => 0

theorem distance_le (pc : PhotoLoop) : pc.distance ≤ 3 := by
  cases pc <;> simp [PhotoLoop.distance]

/-- Where the photo thread is while a photo waits for its call. -/
theorem outstanding_cases (hh : Handoff s) (h : outstanding s ≠ []) :
    (∃ job, s.photo.pc = .taken job) ∨ s.shared.slot.photoPending = true ∧
      (s.photo.pc = .waiting ∨ ∃ job result, s.photo.pc = .handedBack job result) := by
  by_cases hp : s.shared.slot.photoPending = true
  · refine .inr ⟨hp, ?_⟩
    obtain ⟨h1, h2, h3, -⟩ := hh.pending hp
    cases hpc : s.photo.pc <;> simp [hpc, PhotoLoop.job, PhotoLoop.opening] at h1 h2 h3 ⊢
  · refine .inl ?_
    have hpending : (boxOf s).pending = none := if_neg hp
    rw [outstanding, hpending] at h
    unfold uncalled at h
    split at h
    · exact ⟨_, by assumption⟩
    · exact absurd rfl h

/-- The photo thread is not blocked while a photo waits. -/
theorem outstanding_enabled (hh : Handoff s) (h : outstanding s ≠ []) :
    ∃ e, (worker.step s (.photo e)).isSome = true := by
  have henabled : ∀ e, (e.run s.photoView).isSome = true →
      (worker.step s (.photo e)).isSome = true := fun e he => by
    simpa [worker, DisplayProbeWorker.step] using he
  rcases outstanding_cases hh h with ⟨job, hpc⟩ | ⟨hp, hpc | ⟨job, result, hpc⟩⟩
  · exact ⟨.call, henabled _ (by simp [PhotoEvent.run, DisplayProbeWorker.photoView, hpc])⟩
  · exact ⟨.take, henabled _ (by simp [PhotoEvent.run, DisplayProbeWorker.photoView, hpc, hp])⟩
  · exact ⟨.publish 0 0,
      henabled _ (by simp [PhotoEvent.run, DisplayProbeWorker.photoView, hpc])⟩

def Event.isPhoto : Event → Bool
  | photo _ => true
  | _ => false

/-- The number of sections that the photo thread runs through. -/
def photoSteps (es : List Event) : Nat := es.countP Event.isPhoto

/-- Each section of the photo thread brings the call nearer. -/
theorem distance_step (hh : Handoff s) (h : outstanding s ≠ []) {e : Event}
    (hs : worker.step s e = some (s', o)) :
    s'.photo.pc.distance + (if e.isPhoto then 1 else 0) = s.photo.pc.distance := by
  cases e with
  | ui call =>
    cases hs
    rfl
  | frame e =>
    obtain ⟨v, hv, hs⟩ := Option.map_eq_some_iff.1 hs
    cases hs
    rfl
  | owner created plan =>
    obtain ⟨v, hv, hs⟩ := Option.map_eq_some_iff.1 hs
    cases hs
    rcases (hh.owner_keeps hv).pc with hpc | ⟨hpc, hpc'⟩
    · rw [hpc]
      rfl
    · rw [hpc, hpc']
      rfl
  | photo e =>
    obtain ⟨v, hv, hs⟩ := Option.map_eq_some_iff.1 hs
    cases hs
    have hrun : e.Step s.shared s.photo v := PhotoEvent.run_step hv
    rcases outstanding_cases hh h with ⟨job, hpc⟩ | ⟨hp, hpc | ⟨job, result, hpc⟩⟩
    · cases hrun <;> simp_all [PhotoLoop.distance, Event.isPhoto]
    · cases hrun <;> simp_all [PhotoLoop.distance, Event.isPhoto]
    · cases hrun <;> simp_all [PhotoLoop.distance, Event.isPhoto]

/-- While `stop` has nothing to wait for, nothing is outstanding. -/
theorem outstanding_over (hh : Handoff s)
    (hpc : s.photo.pc = .exited ∨ s.photo.pc = .notStarted) : outstanding s = [] := by
  by_contra h
  rcases outstanding_cases hh h with ⟨job, hpc'⟩ | ⟨-, hpc' | ⟨job, result, hpc'⟩⟩ <;>
    rcases hpc with hpc | hpc <;> rw [hpc] at hpc' <;> cases hpc'

/-- `stop` has returned, or has nothing to stop. -/
def Control.idle : Control → Bool
  | created | stopped => true
  | _ => false

theorem idle_over (hh : Handoff s) (hc : s.control.idle = true) :
    s.photo.pc = .exited ∨ s.photo.pc = .notStarted := by
  cases hs : s.control <;> rw [hs] at hc <;> try cases hc
  · exact .inr (hh.before (by rw [hs]; rfl))
  · exact hh.joined (by rw [hs]; rfl)

/-- With nothing outstanding the calls have caught up with the requests. -/
theorem caught_up {l' : List Act} (h0 : Fresh s₀) (h : Run worker s₀ es (l ++ l') s)
    (hout : outstanding s = []) : queuedPhotos l <+: calledPhotos (l ++ l') := by
  obtain ⟨k, hc, ht⟩ := reach_tally h0 h
  have hq := queued_eq hc ht
  rw [hout, List.append_nil, queuedPhotos_append] at hq
  exact ⟨_, hq⟩

/-- Three sections of the photo thread reach every photo that was queued before them. -/
theorem called_within {es' : List Event} {l' : List Act} (h0 : Fresh s₀)
    (h : Run worker s₀ es l s) (h' : Run worker s es' l' s') (hn : 3 ≤ photoSteps es') :
    queuedPhotos l <+: calledPhotos (l ++ l') := by
  -- either the calls have caught up, or every section so far was one nearer to it
  have key : queuedPhotos l <+: calledPhotos (l ++ l') ∨
      s'.photo.pc.distance + photoSteps es' ≤ 3 := by
    clear hn
    induction h' with
    | init => exact .inr (distance_le _)
    | @step es₁ l₁ s₁ e s₂ o h₁ hg hs ih =>
      have hrun := h.append h₁
      by_cases hout : outstanding s₁ = []
      · obtain ⟨r, hr⟩ := caught_up h0 hrun hout
        refine .inl ⟨r ++ calledPhotos o, ?_⟩
        rw [← List.append_assoc, hr, ← List.append_assoc, calledPhotos_append (l ++ l₁)]
      · rcases ih with ⟨r, hr⟩ | ih
        · refine .inl ⟨r ++ calledPhotos o, ?_⟩
          rw [← List.append_assoc, hr, ← List.append_assoc, calledPhotos_append (l ++ l₁)]
        · have hd := distance_step (reach_handoff h0 hrun) hout hs
          have hcount : photoSteps (es₁ ++ [e]) = photoSteps es₁ + if e.isPhoto then 1 else 0 := by
            simp [photoSteps, List.countP_append, List.countP_cons]
          exact .inr (by omega)
  rcases key with hk | hd
  · exact hk
  · have hrun := h.append h'
    refine caught_up h0 hrun ?_
    by_contra hout
    rcases outstanding_cases (reach_handoff h0 hrun) hout with ⟨job, hpc⟩ | ⟨-, hpc | ⟨j, r, hpc⟩⟩ <;>
      rw [hpc] at hd <;> simp only [PhotoLoop.distance] at hd <;> omega

/-- **Every queued photo is saved exactly once, as it was queued.** The calls of `savePhoto` are
the queued photos in order, but for at most one that the photo thread, never blocked, is at most
three sections away from; a call reads the photo it was called with to its end; and once `stop`
has returned every queued photo is counted as saved or failed. -/
theorem queued_saved (h0 : Fresh s₀) (h : Run worker s₀ es l s) :
    (∃ rest, queuedPhotos l = calledPhotos l ++ rest ∧ rest.length ≤ 1 ∧
      (rest ≠ [] → ∃ e, (worker.step s (.photo e)).isSome = true)) ∧
    (∀ es' l' s', Run worker s es' l' s' → 3 ≤ photoSteps es' →
      queuedPhotos l <+: calledPhotos (l ++ l')) ∧
    returnedPhotos l <+: calledPhotos l ∧
    (s.control.idle = true → queuedPhotos l = calledPhotos l ∧
      returnedPhotos l = calledPhotos l ∧
      s.shared.screen.photoSavedCount + s.shared.screen.photoFailedCount =
        (queuedPhotos l).length) := by
  obtain ⟨k, hc, ht⟩ := reach_tally h0 h
  have hq := queued_eq hc ht
  refine ⟨⟨outstanding s, hq, outstanding_length hc, outstanding_enabled ht.handoff⟩,
    fun es' l' s' h' hn => called_within h0 h h' hn, ⟨unreturned s, ht.returned⟩, fun hidle => ?_⟩
  have hpc := idle_over ht.handoff hidle
  have hout := outstanding_over ht.handoff hpc
  have hstill : unreturned s = [] ∧ unpublished s = 0 := by
    rcases hpc with hpc | hpc <;> simp only [unreturned, unpublished, hpc, and_self]
  have hr := ht.returned
  have hcount := ht.counted
  rw [hout, List.append_nil] at hq
  rw [hstill.1, List.append_nil] at hr
  rw [hstill.2, Nat.add_zero, hr, ← hq] at hcount
  exact ⟨hq, hr, hcount⟩

/-! ## A session with one photo -/

/-- A worker on an empty card. -/
def sampleWorker : DisplayProbeWorker :=
  .create 0 (some (ascii "/mnt/sdcard")) none none .ready blackFrame { card := fun _ => none }

theorem sample_fresh : Fresh sampleWorker := ⟨_, _, _, _, _, _, _, rfl⟩

namespace Event

/-- The owner goes on. -/
def go : Event := .owner true {}

/-- `start`, up to the two threads, and the opening of the store. -/
def startUp : List Event :=
  [go, go, go, go, .photo .start, .photo (.initializeStore {} true), .photo (.install 0)]

/-- A frame is submitted, decoded and filtered. -/
def newFrame (timestampMs : Int64) (raw : Frame) : List Event :=
  [.ui (.submitJpeg (some [0xff, 0xd8, 0xff, 0xd9]) timestampMs), .frame (.turn 0),
    .frame (.decoded true raw), .frame .filtered, .frame (.finish 0 0 0)]

def press (keyValue : PhotoUiKey) : Event := .ui (.key keyValue true 1)

def capture (timestampMs : Int64) : Event := .ui (.requestPhoto timestampMs)

/-- The photo thread takes a job and makes its call. -/
def work (work : Work) : List Event := [.photo .take, .photo .call, .photo (.finish work)]

/-- It hands the slot back and publishes the result. -/
def publish : List Event := [.photo .handBack, .photo (.publish 0 0)]

/-- `stop`, with the two threads ending. -/
def stopDown : List Event := [go, .frame (.turn 0), go, go, .photo .take, go, go]

end Event

/-- A photo is queued, saved, and the worker stopped. -/
def sampleSession : List Event :=
  List.flatten [Event.startUp, Event.newFrame 100 blackFrame, [Event.capture 61007],
    Event.work (.save samplePlan), Event.publish, Event.stopDown]

theorem queued_saved_session : ∃ l s, Run worker sampleWorker sampleSession l s ∧
    (queuedPhotos l).length = 1 ∧ queuedPhotos l = calledPhotos l ∧
    s.shared.screen.photoSavedCount + s.shared.screen.photoFailedCount = 1 := by
  obtain ⟨l, s, h, hp⟩ := run_of_exec (M := worker) (s := sampleWorker) sampleSession
    (p := fun x => x.1.control.idle && (queuedPhotos x.2).length == 1) (by decide +kernel)
  simp only [Bool.and_eq_true, beq_iff_eq] at hp
  obtain ⟨-, -, -, hstop⟩ := queued_saved sample_fresh h
  obtain ⟨hq, -, hn⟩ := hstop hp.1
  exact ⟨l, s, h, hp.2, hq, hn.trans hp.2⟩

end RetroLens.Worker
