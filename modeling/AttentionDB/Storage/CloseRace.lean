import AttentionDB.Storage.Close
import AttentionDB.Storage.WriteSections

/-!
# `close` against the flush thread

`close` stores `flush_running_` and notifies `flush_cv_` without `block_mu_`,
under which the flush thread evaluates its wait predicate and goes to sleep.
Here the sections of the two threads are taken apart into the single steps
whose order matters: one call of a lock, one evaluation of the predicate, one
store, one notification.
-/

namespace AttentionDB

open GuardedRuns BlobStore

set_option autoImplicit false

/-- Where `flush_thread_fn` is. The points `lock` and `check` serve the entry
into `flush_cv_.wait` and the return from its sleep alike. -/
inductive FlushPoint where
  | lock
  | check
  | sleep
  | asleep
  | take
  | write (b : Nat)
  | relock (b : Nat)
  | release (b : Nat)
  | drainLock
  | drainTake
  | drainWrite (b : Nat)
  | ended
  deriving DecidableEq, Repr

/-- Where `close` is, up to the end of the flush thread. -/
inductive ClosePoint where
  | lock
  | retire
  | notifyOne
  | storeFlag
  | notifyAll
  | notifyFree
  | join
  | joined
  deriving DecidableEq, Repr

def FlushPoint.locked : FlushPoint → Bool
  | .check | .sleep | .take | .release _ | .drainTake => true
  | _ => false

def ClosePoint.locked : ClosePoint → Bool
  | .retire | .notifyOne => true
  | _ => false

def FlushPoint.draining : FlushPoint → Bool
  | .drainLock | .drainTake | .drainWrite _ | .ended => true
  | _ => false

def ClosePoint.stopped : ClosePoint → Bool
  | .notifyAll | .notifyFree | .join | .joined => true
  | _ => false

def ClosePoint.notified : ClosePoint → Bool
  | .notifyFree | .join | .joined => true
  | _ => false

def FlushPoint.after : FlushPc → FlushPoint
  | .idle => .lock
  | .writing b => .write b
  | .written b => .relock b

/-- A notification of `flush_cv_` reaches the thread only in its sleep. -/
def FlushPoint.notified : FlushPoint → FlushPoint
  | .asleep => .lock
  | point => point

theorem notified_awake {point : FlushPoint} (awake : point ≠ .asleep) : point.notified = point := by
  cases point <;> first | rfl | contradiction

theorem notified_ne_asleep (point : FlushPoint) : point.notified ≠ .asleep := by
  cases point <;> simp [FlushPoint.notified]

structure CloseRace where
  store : BlobStore
  flush : FlushPoint
  closing : ClosePoint := .lock

inductive RaceLabel where
  | flush (result : IoResult)
  | wakeup
  | close
  deriving DecidableEq, Repr

namespace CloseRace

def mayProceed (s : BlobStore) : Bool := s.flushQueue ≠ [] || !s.flushRunning

def takeBlock (s : BlobStore) : FlushPoint × BlobStore :=
  match s.flushPop with
  | some (pc, s) => (.after pc, s)
  | none => (if s.flushRunning then .lock else .drainLock, s)

def drainBlock (s : BlobStore) : FlushPoint × BlobStore :=
  match s.flushQueue with
  | [] => (.ended, s)
  | b :: rest =>
      let s := { s with flushQueue := rest }
      if 0 < (s.blocks b).pos then (.drainWrite b, s) else (.drainLock, s)

/-- One step of the flush thread. The sleep ends by a notification or by a
wakeup of the system's own, so that `asleep` has no step here. -/
def flushStep (race : CloseRace) (result : IoResult) : Option CloseRace :=
  match race.flush with
  | .lock => if race.closing.locked then none else some { race with flush := .check }
  | .check => some { race with flush := if mayProceed race.store then .take else .sleep }
  | .sleep => some { race with flush := .asleep }
  | .asleep => none
  | .take =>
      let taken := takeBlock race.store
      some { race with flush := taken.1, store := taken.2 }
  | .write b => some { race with flush := .relock b, store := race.store.flushWrite b result }
  | .relock b => if race.closing.locked then none else some { race with flush := .release b }
  | .release b => some { race with flush := .lock, store := race.store.flushRelease b }
  | .drainLock => if race.closing.locked then none else some { race with flush := .drainTake }
  | .drainTake =>
      let taken := drainBlock race.store
      some { race with flush := taken.1, store := taken.2 }
  | .drainWrite b => some { race with flush := .drainLock, store := race.store.flushWrite b result }
  | .ended => none

/-- Whether the first section of `close` queues the active block. -/
def retires (s : BlobStore) : Bool :=
  match s.activeBlock with
  | none => false
  | some b => 0 < (s.blocks b).pos

def closeStep (race : CloseRace) : Option CloseRace :=
  match race.closing with
  | .lock => if race.flush.locked then none else some { race with closing := .retire }
  | .retire =>
      some { race with
        store := race.store.retireActive
        closing := if retires race.store then .notifyOne else .storeFlag }
  | .notifyOne => some { race with flush := race.flush.notified, closing := .storeFlag }
  | .storeFlag =>
      some { race with store := { race.store with flushRunning := false }, closing := .notifyAll }
  | .notifyAll => some { race with flush := race.flush.notified, closing := .notifyFree }
  -- nobody waits for `free_cv_`: a writer does, and no write runs beside `close`
  | .notifyFree => some { race with closing := .join }
  | .join => if race.flush = .ended then some { race with closing := .joined } else none
  | .joined => none

def exec (race : CloseRace) : RaceLabel → Option CloseRace
  | .flush result => race.flushStep result
  | .wakeup => if race.flush = .asleep then some { race with flush := .lock } else none
  | .close => race.closeStep

/-- The flush thread is anywhere in its main loop; between the evaluation of
the predicate and the sleep the predicate is false. -/
def Starts (race : CloseRace) : Prop :=
  race.closing = .lock ∧ race.store.flushRunning = true ∧
    (race.flush = .sleep → race.store.flushQueue = []) ∧ race.flush.draining = false

/-- The flush thread sleeps for good, and `close` waits for its end. -/
def Stuck (race : CloseRace) : Prop :=
  race.flush = .asleep ∧ race.store.flushRunning = false ∧ race.store.flushQueue = [] ∧
    race.closing = .join

instance (race : CloseRace) : Decidable race.Stuck := by unfold Stuck; infer_instance

/-- `close` does not call `flush_cv_.notify_all` while the flush thread is
between the evaluation of its predicate and its sleep. -/
def notifyOutsideGap (race : CloseRace) (label : RaceLabel) : Prop :=
  label = .close → race.closing = .notifyAll → race.flush ≠ .sleep

end CloseRace

def raceMachine : Machine CloseRace RaceLabel where
  start := CloseRace.Starts
  exec := CloseRace.exec

/-! ## What a step can do -/

namespace CloseRace

variable {race after : CloseRace} {result : IoResult}

/-- What a step of the flush thread leaves for the other thread to rely on. -/
structure FlushMoved (race after : CloseRace) : Prop where
  closing : after.closing = race.closing
  running : after.store.flushRunning = race.store.flushRunning
  queue : race.store.flushQueue = [] → after.store.flushQueue = []
  locked : after.flush.locked = true → race.flush.locked = true ∨ race.closing.locked = false
  sleep : after.flush = .sleep →
    after.store.flushQueue = [] ∧ after.store.flushRunning = true
  asleep : after.flush = .asleep → race.flush = .sleep
  draining : after.flush.draining = true → race.flush.draining = true ∨
    (race.store.flushQueue = [] ∧ race.store.flushRunning = false)
  drainWrite : ∀ b, after.flush = .drainWrite b → race.store.flushQueue ≠ []

/-- A step that leaves the queue and the flag alone, to a point of the main loop. -/
theorem FlushMoved.plain {point : FlushPoint} {store : BlobStore}
    (queue : store.flushQueue = race.store.flushQueue)
    (running : store.flushRunning = race.store.flushRunning)
    (locked : point.locked = true → race.flush.locked = true ∨ race.closing.locked = false)
    (sleep : point ≠ .sleep) (asleep : point ≠ .asleep) (looping : point.draining = false) :
    FlushMoved race { race with flush := point, store } where
  closing := rfl
  running := running
  queue := fun empty => queue.trans empty
  locked := locked
  sleep := fun at_sleep => absurd at_sleep sleep
  asleep := fun at_asleep => absurd at_asleep asleep
  draining := fun drained => by rw [looping] at drained; contradiction
  drainWrite := by
    intro b at_write
    change point = _ at at_write
    rw [at_write] at looping
    contradiction

theorem take_moved (locked : race.flush.locked = true) :
    FlushMoved race { race with flush := (takeBlock race.store).1, store := (takeBlock race.store).2 } := by
  unfold takeBlock flushPop
  cases queued : race.store.flushQueue with
  | nil =>
      cases running : race.store.flushRunning with
      | true => apply FlushMoved.plain <;> simp [locked, FlushPoint.draining]
      | false =>
          constructor <;> simp [FlushPoint.locked, queued, running]
  | cons b rest =>
      dsimp only
      split_ifs with unused <;> constructor <;>
        simp [queued, locked, FlushPoint.after, FlushPoint.draining]

theorem drain_moved (at_take : race.flush = .drainTake) :
    FlushMoved race { race with flush := (drainBlock race.store).1, store := (drainBlock race.store).2 } := by
  unfold drainBlock
  cases queued : race.store.flushQueue with
  | nil => constructor <;> simp [FlushPoint.locked, FlushPoint.draining, queued, at_take]
  | cons b rest =>
      dsimp only
      split_ifs with used <;> constructor <;> simp [queued, at_take, FlushPoint.locked, FlushPoint.draining]

theorem flush_step_moved (moved : race.flushStep result = some after) : FlushMoved race after := by
  unfold flushStep at moved
  cases point : race.flush with
  | lock | relock b | drainLock =>
      simp only [point] at moved
      split_ifs at moved with held
      cases moved
      constructor <;> simp [held, point, FlushPoint.draining]
  | check =>
      simp only [point] at moved
      cases moved
      cases proceed : mayProceed race.store with
      | true => apply FlushMoved.plain <;> simp [point, FlushPoint.locked, FlushPoint.draining]
      | false =>
          have idle : race.store.flushQueue = [] ∧ race.store.flushRunning = true := by
            simpa [mayProceed] using proceed
          constructor <;> simp [point, idle, FlushPoint.locked, FlushPoint.draining]
  | sleep =>
      simp only [point] at moved
      cases moved
      constructor <;> simp [point, FlushPoint.locked, FlushPoint.draining]
  | take =>
      simp only [point] at moved
      cases moved
      exact take_moved (by rw [point]; rfl)
  | write b | release b =>
      simp only [point] at moved
      cases moved
      apply FlushMoved.plain <;> simp [flushWrite, flushRelease, FlushPoint.locked, FlushPoint.draining]
  | drainTake =>
      simp only [point] at moved
      cases moved
      exact drain_moved point
  | drainWrite b =>
      simp only [point] at moved
      cases moved
      constructor <;> simp [point, flushWrite, FlushPoint.locked, FlushPoint.draining]
  | asleep | ended =>
      simp only [point] at moved
      contradiction

/-! ## What holds in every order of steps -/

structure RaceInv (race : CloseRace) : Prop where
  exclusive : race.flush.locked = true → race.closing.locked = false
  running : race.store.flushRunning = !race.closing.stopped
  sleep : race.flush = .sleep → race.store.flushQueue = []
  asleep : race.closing.notified = true → race.flush = .asleep → race.store.flushQueue = []
  drained : race.flush.draining = true →
    race.store.flushQueue = [] ∧ race.store.flushRunning = false
  drainWrite : ∀ b, race.flush ≠ .drainWrite b

theorem RaceInv.free (inv : race.RaceInv) (held : race.closing.locked = true) :
    race.flush.locked = false := by
  cases both : race.flush.locked with
  | false => rfl
  | true =>
      rw [inv.exclusive both] at held
      contradiction

theorem race_inv_start (starts : race.Starts) : race.RaceInv := by
  obtain ⟨closing, running, sleep, looping⟩ := starts
  constructor
  · simp [closing, ClosePoint.locked]
  · simp [closing, running, ClosePoint.stopped]
  · exact sleep
  · simp [closing, ClosePoint.notified]
  · simp [looping]
  · intro b at_write
    rw [at_write] at looping
    contradiction

theorem FlushMoved.keeps (moved : FlushMoved race after) (inv : race.RaceInv) : after.RaceInv := by
  have empty : after.flush.draining = true →
      race.store.flushQueue = [] ∧ race.store.flushRunning = false := by
    intro drained
    rcases moved.draining drained with earlier | idle
    · exact inv.drained earlier
    · exact idle
  constructor
  · intro locked
    rw [moved.closing]
    rcases moved.locked locked with earlier | free
    · exact inv.exclusive earlier
    · exact free
  · rw [moved.running, moved.closing]
    exact inv.running
  · intro at_sleep
    exact (moved.sleep at_sleep).1
  · intro _ at_asleep
    exact moved.queue (inv.sleep (moved.asleep at_asleep))
  · intro drained
    rw [moved.running]
    exact ⟨moved.queue (empty drained).1, (empty drained).2⟩
  · intro b at_write
    apply moved.drainWrite b at_write
    exact (empty (by rw [at_write]; rfl)).1

theorem wakeup_keeps (inv : race.RaceInv) : RaceInv { race with flush := .lock } where
  exclusive := by simp [FlushPoint.locked]
  running := inv.running
  sleep := by simp
  asleep := by simp
  drained := by simp [FlushPoint.draining]
  drainWrite := by simp

/-- A notification is a wakeup or nothing. -/
theorem notified_keeps (inv : race.RaceInv) :
    RaceInv { race with flush := race.flush.notified } := by
  by_cases asleep : race.flush = .asleep
  · rw [asleep]
    exact wakeup_keeps inv
  · rw [notified_awake asleep]
    exact inv

/-- The next point of `close`, once the step it is taken by has done its work. -/
theorem advance_keeps {point : ClosePoint} (inv : race.RaceInv)
    (stopped : point.stopped = race.closing.stopped)
    (locked : point.locked = true → race.flush.locked = false)
    (asleep : point.notified = true → race.flush = .asleep → race.store.flushQueue = []) :
    RaceInv { race with closing := point } where
  exclusive := by
    intro held
    cases both : point.locked with
    | false => rfl
    | true =>
        rw [locked both] at held
        contradiction
  running := by
    rw [inv.running, stopped]
  sleep := inv.sleep
  asleep := asleep
  drained := inv.drained
  drainWrite := inv.drainWrite

theorem retire_keeps (inv : race.RaceInv) (at_retire : race.closing = .retire) :
    RaceInv { race with store := race.store.retireActive } := by
  have free := inv.free (by rw [at_retire]; rfl)
  have runs : race.store.flushRunning = true := by
    rw [inv.running, at_retire]
    rfl
  have kept : race.store.retireActive.flushRunning = race.store.flushRunning := by
    unfold retireActive
    cases race.store.activeBlock with
    | none => rfl
    | some b =>
        dsimp only
        split_ifs <;> rfl
  constructor
  · exact inv.exclusive
  · exact kept.trans inv.running
  · intro at_sleep
    change race.flush = _ at at_sleep
    rw [at_sleep] at free
    contradiction
  · intro notified
    change race.closing.notified = true at notified
    rw [at_retire] at notified
    contradiction
  · intro drained
    have stopped := (inv.drained drained).2
    rw [runs] at stopped
    contradiction
  · exact inv.drainWrite

theorem stop_keeps (inv : race.RaceInv) :
    RaceInv { race with store := { race.store with flushRunning := false }, closing := .notifyAll } where
  exclusive := fun _ => rfl
  running := rfl
  sleep := inv.sleep
  asleep := by simp [ClosePoint.notified]
  drained := fun drained => ⟨(inv.drained drained).1, rfl⟩
  drainWrite := inv.drainWrite

theorem close_step_keeps (inv : race.RaceInv) (moved : race.closeStep = some after) :
    after.RaceInv := by
  unfold closeStep at moved
  cases point : race.closing with
  | lock =>
      simp only [point] at moved
      split_ifs at moved with held
      cases moved
      apply advance_keeps inv
      · simp [point, ClosePoint.stopped]
      · simp [held]
      · simp [ClosePoint.notified]
  | retire =>
      simp only [point] at moved
      cases moved
      have free := inv.free (by rw [point]; rfl)
      apply advance_keeps (retire_keeps inv point)
      · simp only [point]
        split_ifs <;> rfl
      · intro _
        exact free
      · split_ifs <;> simp [ClosePoint.notified]
  | notifyOne =>
      simp only [point] at moved
      cases moved
      apply advance_keeps (notified_keeps inv)
      · simp [point, ClosePoint.stopped]
      · simp [ClosePoint.locked]
      · simp [ClosePoint.notified]
  | storeFlag =>
      simp only [point] at moved
      cases moved
      exact stop_keeps inv
  | notifyAll =>
      simp only [point] at moved
      cases moved
      apply advance_keeps (notified_keeps inv)
      · simp [point, ClosePoint.stopped]
      · simp [ClosePoint.locked]
      · intro _ at_asleep
        exact absurd at_asleep (notified_ne_asleep race.flush)
  | notifyFree =>
      simp only [point] at moved
      cases moved
      apply advance_keeps inv
      · simp [point, ClosePoint.stopped]
      · simp [ClosePoint.locked]
      · intro _
        exact inv.asleep (by rw [point]; rfl)
  | join =>
      simp only [point] at moved
      split_ifs at moved with ended
      cases moved
      apply advance_keeps inv
      · simp [point, ClosePoint.stopped]
      · simp [ClosePoint.locked]
      · simp [ended]
  | joined =>
      simp only [point] at moved
      contradiction

theorem race_inv_step {label : RaceLabel} (inv : race.RaceInv)
    (moved : race.exec label = some after) : after.RaceInv := by
  cases label with
  | flush result => exact (flush_step_moved moved).keeps inv
  | wakeup =>
      simp only [exec] at moved
      split_ifs at moved
      cases moved
      exact wakeup_keeps inv
  | close => exact close_step_keeps inv moved

end CloseRace

theorem reach_race_inv {race : CloseRace} (reached : Reach raceMachine race) : race.RaceInv :=
  ReachWithin.invariant CloseRace.RaceInv (fun _ starts => CloseRace.race_inv_start starts)
    (fun _ _ _ inv _ moved => CloseRace.race_inv_step inv moved) reached

/-! ## Notifications outside the gap -/

namespace CloseRace

variable {race after : CloseRace} {label : RaceLabel}

/-- Once `close` has notified, the flush thread is awake. -/
def AwakeAfterNotify (race : CloseRace) : Prop :=
  race.closing.notified = true → race.flush ≠ .sleep ∧ race.flush ≠ .asleep

theorem awake_step (inv : race.RaceInv) (awake : race.AwakeAfterNotify)
    (outside : race.notifyOutsideGap label) (moved : race.exec label = some after) :
    after.AwakeAfterNotify := by
  intro notified
  cases label with
  | flush result =>
      have step := flush_step_moved moved
      rw [step.closing] at notified
      have stopped : after.store.flushRunning = false := by
        rw [step.running, inv.running]
        cases point : race.closing <;> simp [point, ClosePoint.notified, ClosePoint.stopped] at notified ⊢
      constructor
      · intro at_sleep
        rw [(step.sleep at_sleep).2] at stopped
        contradiction
      · intro at_asleep
        exact (awake notified).1 (step.asleep at_asleep)
  | wakeup =>
      simp only [exec] at moved
      split_ifs at moved
      cases moved
      simp
  | close =>
      simp only [exec, closeStep] at moved
      cases point : race.closing with
      | notifyAll =>
          simp only [point] at moved
          cases moved
          have at_gap := outside rfl point
          constructor
          · by_cases asleep : race.flush = .asleep
            · simp [asleep, FlushPoint.notified]
            · rw [notified_awake asleep]
              exact at_gap
          · exact notified_ne_asleep race.flush
      | notifyFree =>
          simp only [point] at moved
          cases moved
          exact awake (by rw [point]; rfl)
      | join =>
          simp only [point] at moved
          split_ifs at moved with ended
          cases moved
          simp [ended]
      | lock =>
          simp only [point] at moved
          split_ifs at moved
          cases moved
          contradiction
      | retire =>
          simp only [point] at moved
          cases moved
          split_ifs at notified <;> contradiction
      | notifyOne | storeFlag =>
          simp only [point] at moved
          cases moved
          contradiction
      | joined =>
          simp only [point] at moved
          contradiction

end CloseRace

theorem guarded_awake {race : CloseRace}
    (reached : ReachWithin raceMachine CloseRace.notifyOutsideGap race) :
    race.RaceInv ∧ race.AwakeAfterNotify := by
  apply ReachWithin.invariant (fun race => CloseRace.RaceInv race ∧ CloseRace.AwakeAfterNotify race)
    _ _ reached
  · intro race starts
    refine ⟨CloseRace.race_inv_start starts, ?_⟩
    intro notified
    rw [starts.1] at notified
    contradiction
  · intro race label after both outside moved
    exact ⟨CloseRace.race_inv_step both.1 moved, CloseRace.awake_step both.1 both.2 outside moved⟩

namespace CloseRace

variable {race : CloseRace}

def Deadlocked (race : CloseRace) : Prop :=
  race.closing ≠ .joined ∧ race.closeStep = none ∧ ∀ result, race.flushStep result = none

/-- The lost notification is the only deadlock. -/
theorem deadlocked_iff_stuck (inv : race.RaceInv) : race.Deadlocked ↔ race.Stuck := by
  constructor
  · rintro ⟨unfinished, noClose, noFlush⟩
    have noFlush := noFlush .complete
    have waits : race.closing.locked = false ∧ (race.closing = .join ∨ race.flush.locked = true) := by
      unfold closeStep at noClose
      cases point : race.closing with
      | lock =>
          simp only [point] at noClose
          split_ifs at noClose with held
          exact ⟨rfl, .inr held⟩
      | join => exact ⟨rfl, .inl rfl⟩
      | joined => exact absurd point unfinished
      | _ => simp [point] at noClose
    have asleep : race.flush = .asleep ∨ race.flush = .ended := by
      unfold flushStep at noFlush
      cases point : race.flush <;> simp [point, waits.1] at noFlush ⊢
    have atJoin : race.closing = .join := by
      rcases waits.2 with join | held
      · exact join
      · rcases asleep with point | point <;> rw [point] at held <;> contradiction
    have sleeps : race.flush = .asleep := by
      rcases asleep with point | ended
      · exact point
      · unfold closeStep at noClose
        simp [atJoin, ended] at noClose
    have running := inv.running
    rw [atJoin] at running
    exact ⟨sleeps, running, inv.asleep (by rw [atJoin]; rfl) sleeps, atJoin⟩
  · rintro ⟨sleeps, _, _, atJoin⟩
    unfold Deadlocked closeStep flushStep
    simp [sleeps, atJoin]

/-- A notification inside the gap is lost: the flush thread goes to sleep after
it, and `close` to its join. -/
theorem lost_notification (inv : race.RaceInv) (at_notify : race.closing = .notifyAll)
    (in_gap : race.flush = .sleep) :
    passes raceMachine (fun _ _ => true) race [.close, .flush .complete, .close] = true ∧
      (last raceMachine race [.close, .flush .complete, .close]).Stuck := by
  have empty := inv.sleep in_gap
  have stopped := inv.running
  rw [at_notify] at stopped
  obtain ⟨store, flush, closing⟩ := race
  subst at_notify in_gap
  exact ⟨rfl, rfl, stopped, empty, rfl⟩

end CloseRace

/-- `close` and the flush thread never end up in a deadlock in a run whose
`notify_all` is outside the gap, and every run with one inside the gap goes on
to the deadlock. -/
theorem close_meets_flush_thread (race : CloseRace) :
    (ReachWithin raceMachine CloseRace.notifyOutsideGap race → ¬race.Stuck ∧ ¬race.Deadlocked) ∧
    (Reach raceMachine race → ∀ label, ¬race.notifyOutsideGap label →
      label = .close ∧
        passes raceMachine (fun _ _ => true) race [.close, .flush .complete, .close] = true ∧
        (last raceMachine race [.close, .flush .complete, .close]).Stuck) := by
  constructor
  · intro reached
    obtain ⟨inv, awake⟩ := guarded_awake reached
    have safe : ¬race.Stuck := by
      rintro ⟨sleeps, _, _, atJoin⟩
      exact (awake (by rw [atJoin]; rfl)).2 sleeps
    exact ⟨safe, fun deadlocked => safe ((CloseRace.deadlocked_iff_stuck inv).1 deadlocked)⟩
  · intro reached label inside
    unfold CloseRace.notifyOutsideGap at inside
    push Not at inside
    obtain ⟨isClose, at_notify, in_gap⟩ := inside
    exact ⟨isClose, CloseRace.lost_notification (reach_race_inv reached) at_notify in_gap⟩

def openedRace : CloseRace := { store := singleBlockStore, flush := .lock }

theorem opened_race_starts : raceMachine.start openedRace := ⟨rfl, rfl, fun _ => rfl, rfl⟩

def wokenFlush : List RaceLabel :=
  [.flush .complete, .flush .complete, .flush .complete, .close, .close, .close, .close, .close]

theorem close_meets_woken_flush :
    (last raceMachine openedRace wokenFlush).closing = .join ∧
      ¬(last raceMachine openedRace wokenFlush).Deadlocked := by
  have reached : ReachWithin raceMachine CloseRace.notifyOutsideGap
      (last raceMachine openedRace wokenFlush) := by
    apply ReachWithin.to_last (fun _ => True)
      (fun race label => !(label = .close && race.closing = .notifyAll && race.flush = .sleep))
    · intro race label _ checked isClose at_notify in_gap
      simp [isClose, at_notify, in_gap] at checked
    · intros
      trivial
    · exact .start opened_race_starts
    · trivial
    · decide +kernel
  exact ⟨by decide +kernel, ((close_meets_flush_thread _).1 reached).2⟩

/-- The flush thread finds the queue empty and the flag set, `close` clears the
flag and notifies nobody, and the flush thread goes to sleep. -/
def lostNotification : List RaceLabel :=
  [.close, .close, .flush .complete, .flush .complete, .close, .close, .flush .complete, .close]

theorem close_waits_forever : Reach raceMachine (last raceMachine openedRace lostNotification) ∧
    (last raceMachine openedRace lostNotification).Stuck := by
  constructor
  · apply Reach.to_last (.start opened_race_starts)
    decide +kernel
  · decide +kernel

end AttentionDB
