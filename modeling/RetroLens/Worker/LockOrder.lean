import RetroLens.Lib.Locks

/-!
# The two mutexes of the worker

Each public method, `run` and `photoRun` by what they do with `mutex_` and
`photoMutex_`. Who needs both takes `mutex_` first: `requestPhoto`, and
`queueGalleryLoadLocked` and `queueGalleryDeleteLocked` where `key` and
`photoRun` call them. Any number of threads may run any of the methods, any
number of times, each branch either way: none waits for `mutex_` with
`photoMutex_` in hand, and no cycle of waiting threads forms
(`no_lock_order_deadlock`).
-/

namespace RetroLens.Worker

open Locks Runs

inductive Mutex where
  | mutex | photoMutex
  deriving DecidableEq, Repr

/-- `mutex_` is taken first. -/
def Mutex.rank : Mutex → Nat
  | mutex => 0
  | photoMutex => 1

namespace Skeleton

open Mutex Stmt

/-- Unlock and return. -/
def leave (m : Mutex) : Stmt Mutex := block [.unlock m, .ret]

/-- A method that is one section under `mutex_`. -/
def guarded : Stmt Mutex := block [.lock mutex, .work, .unlock mutex]

def start : Stmt Mutex :=
  block [.lock mutex, opt (leave mutex), .unlock mutex,
    -- `pthread_create` fails
    opt (block [.lock mutex, .unlock mutex, .ret]),
    .lock photoMutex, .unlock photoMutex,
    opt (block [.lock photoMutex, .unlock photoMutex, .lock mutex, .unlock mutex])]

def stop : Stmt Mutex :=
  block [opt .ret, .lock mutex, .unlock mutex, opt .join, .lock photoMutex, .unlock photoMutex,
    opt .join, .work]

/-- The destructor. -/
def destroy : Stmt Mutex := .call stop

def updateSurfaceInfo : Stmt Mutex := guarded

def updateSequenceMetrics : Stmt Mutex := guarded

def submitJpeg : Stmt Mutex :=
  block [opt .ret, .lock mutex, opt (leave mutex), opt (leave mutex), .work, .unlock mutex]

def changeStyle : Stmt Mutex := guarded

/-- What the two calls that post a job for the gallery do, inside `mutex_`. -/
def queueGalleryLocked : Stmt Mutex :=
  block [opt .ret, .lock photoMutex, opt (leave photoMutex), .work, .unlock photoMutex]

def queueGalleryLoadLocked : Stmt Mutex := queueGalleryLocked

def queueGalleryDeleteLocked : Stmt Mutex := queueGalleryLocked

def key : Stmt Mutex :=
  block [.lock mutex, opt (leave mutex), opt (leave mutex),
    -- a direction in the gallery, Confirm in the delete dialog, Gallery, any other key
    .either (opt (.call queueGalleryLoadLocked))
      (.either (.call queueGalleryDeleteLocked)
        (.either (opt (.call queueGalleryLoadLocked)) .work)),
    .unlock mutex]

def touch : Stmt Mutex := guarded

def requestPhoto : Stmt Mutex :=
  block [.lock mutex, opt (leave mutex), opt (leave mutex),
    .lock photoMutex, opt (block [.unlock photoMutex, leave mutex]), .work,
    .unlock photoMutex, .unlock mutex]

def setFocus : Stmt Mutex := guarded

def configureStorage : Stmt Mutex :=
  block [.lock photoMutex, .work, .unlock photoMutex, .lock mutex, .work, .unlock mutex]

def blitLatest : Stmt Mutex := guarded

/-- A wait with a deadline; `brk` is its passing. -/
def waitFor : Stmt Mutex :=
  block [.lock mutex, whileDo (block [.wait mutex, opt .brk]), .unlock mutex]

def waitForFrame : Stmt Mutex := waitFor

def waitForProcessedFrame : Stmt Mutex := waitFor

def waitForStorageInitialization : Stmt Mutex := waitFor

def waitForPhotoResult : Stmt Mutex := waitFor

def getStats : Stmt Mutex := guarded

def getFilterStats : Stmt Mutex := guarded

def photoRun : Stmt Mutex :=
  block [.lock photoMutex, whileDo (.wait photoMutex), opt (leave photoMutex), .unlock photoMutex,
    .work, .lock mutex, .work, .unlock mutex,
    .loop (block [
      .lock photoMutex, whileDo (.wait photoMutex), opt (block [.unlock photoMutex, .brk]),
      .unlock photoMutex,
      -- the store's call
      .work,
      .lock photoMutex, .work, .unlock photoMutex,
      .lock mutex, opt (.call queueGalleryLoadLocked), .work, .unlock mutex])]

def run : Stmt Mutex :=
  block [.lock mutex,
    whileDo (block [
      -- new input, or the style changed
      .either (block [.unlock mutex, .work, .lock mutex])
        (opt (block [.unlock mutex, .work, .lock mutex])),
      .work, .wait mutex]),
    .unlock mutex]

end Skeleton

inductive Method where
  | start | stop | destroy | updateSurfaceInfo | updateSequenceMetrics | submitJpeg | changeStyle
  | key | touch | requestPhoto | setFocus | configureStorage | blitLatest | waitForFrame
  | waitForProcessedFrame | waitForStorageInitialization | waitForPhotoResult | getStats
  | getFilterStats | photoRun | run
  deriving DecidableEq, Repr

def Method.body : Method → Stmt Mutex
  | start => Skeleton.start
  | stop => Skeleton.stop
  | destroy => Skeleton.destroy
  | updateSurfaceInfo => Skeleton.updateSurfaceInfo
  | updateSequenceMetrics => Skeleton.updateSequenceMetrics
  | submitJpeg => Skeleton.submitJpeg
  | changeStyle => Skeleton.changeStyle
  | key => Skeleton.key
  | touch => Skeleton.touch
  | requestPhoto => Skeleton.requestPhoto
  | setFocus => Skeleton.setFocus
  | configureStorage => Skeleton.configureStorage
  | blitLatest => Skeleton.blitLatest
  | waitForFrame => Skeleton.waitForFrame
  | waitForProcessedFrame => Skeleton.waitForProcessedFrame
  | waitForStorageInitialization => Skeleton.waitForStorageInitialization
  | waitForPhotoResult => Skeleton.waitForPhotoResult
  | getStats => Skeleton.getStats
  | getFilterStats => Skeleton.getFilterStats
  | photoRun => Skeleton.photoRun
  | run => Skeleton.run

/-- Each method takes the mutexes in order and returns with none. -/
theorem body_safe (m : Method) : m.body.Safe Mutex.rank := by
  cases m <;> decide

variable {τ : Type} [DecidableEq τ]

structure LocksInOrder (s : State τ Mutex) : Prop where
  /-- No thread waits for `mutex_` with `photoMutex_` in hand. -/
  inversion : ∀ t, s.Wants t .mutex → s.owner .photoMutex ≠ some t
  /-- A wait on a condition gives back all that its thread holds. -/
  waits : ∀ t m k m', s.code t = .exec (.wait m) :: k → (s.owner m' = some t ↔ m' = m)
  unlocks : ∀ t m k, s.code t = .exec (.unlock m) :: k → s.owner m = some t
  /-- A thread that has returned, that sleeps or that joins another holds nothing. -/
  released : ∀ t m, (s.code t = [] ∨ ∃ f k, s.code t = f :: k ∧ f.waits = true) →
    s.owner m ≠ some t
  acyclic : ∀ t, ¬ Relation.TransGen s.WaitsFor t t
  /-- With a mutex taken, some thread that holds one goes on by itself. -/
  moves : ∀ t m, s.owner m = some t → ∃ u m' f k, s.owner m' = some u ∧ s.code u = f :: k ∧
    f.waits = false ∧ ∀ left, (s.run u left).isSome = true

theorem inOrder_of_sound {s : State τ Mutex} (hs : Sound Mutex.rank s) : LocksInOrder s where
  inversion := fun t hw ho => by
    have := hs.above hw ho
    cases this
  waits := fun t m k m' hc => hs.wait_own hc
  unlocks := fun t m k hc => hs.unlock_own hc
  released := fun t m hc => hs.none_held hc
  acyclic := fun t => hs.acyclic
  moves := fun t m ho => hs.moves (n := 1) (fun m => by cases m <;> decide) ho

/-- **No deadlock over the lock order.** Any number of threads, in any interleaving. -/
theorem no_lock_order_deadlock {es : List (Locks.Event τ Method)} {l : List Empty}
    {s : State τ Mutex} (h : Run (machine Method.body) (.rest τ Mutex) es l s) : LocksInOrder s :=
  inOrder_of_sound (run_sound body_safe h)

/-- Two threads: one comes to the nested section of `requestPhoto`, the other wants `mutex_`. -/
def nestedSession : List (Locks.Event Bool Method) :=
  .enter true .requestPhoto :: .enter false .touch ::
    (List.replicate 15 (.run true false) ++ [.run false false])

theorem no_lock_order_deadlock_session : ∃ l s,
    Run (machine Method.body) (.rest Bool Mutex) nestedSession l s ∧
      s.owner .mutex = some true ∧ s.owner .photoMutex = some true ∧ LocksInOrder s := by
  obtain ⟨l, s, h, hp⟩ := run_of_exec (M := machine Method.body) (s := State.rest Bool Mutex)
    nestedSession (p := fun x => x.1.owner .mutex == some true &&
      x.1.owner .photoMutex == some true) (by decide)
  rw [Bool.and_eq_true, beq_iff_eq, beq_iff_eq] at hp
  exact ⟨l, s, h, hp.1, hp.2, no_lock_order_deadlock h⟩

end RetroLens.Worker
