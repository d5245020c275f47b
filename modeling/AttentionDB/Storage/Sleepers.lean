import AttentionDB.Lib.Progress
import AttentionDB.Storage.BlockOwnership

/-!
# Writers that sleep in `acquire_block`

The threads around one store, with the condition variables they sleep on. A
writer that finds no free block sleeps on `free_cv_`, the flush thread with
nothing to write on `flush_cv_`. A notification wakes one sleeper, whichever
the system picks, and a woken thread still has to run: a writer that comes by
first may take the block it was woken for. Sleepers may also wake up by
themselves.
-/

namespace AttentionDB

open GuardedRuns BlobStore

set_option autoImplicit false

/-- `freeCv` are the writers asleep in `free_cv_.wait`, `woken` those whose
sleep is over and that have not run again. -/
structure WakeSystem where
  system : StoreSystem
  freeCv : List Nat := []
  woken : List Nat := []
  flushAsleep : Bool := false

inductive WakeLabel where
  | writeBegin (t : Nat) (request : WriteRequest) (io : SegmentIo)
  | writeResume (t : Nat) (io : SegmentIo)
  | writeDirect (t : Nat) (io : SegmentIo) (result : IoResult)
  | flush (step : FlushStep) (picked : Nat)
  | flushWait
  | read (label : StoreLabel)
  | wakeWriter (t : Nat)
  | wakeFlush

namespace WakeSystem

/-- The rotation of `write` queues the active block and calls
`flush_cv_.notify_one`. -/
def queuesBlock (store : BlobStore) (request : WriteRequest) : Bool :=
  match store.activeBlock with
  | none => false
  | some b =>
      request.data.length ≤ 2 ^ 32 - 1 - kEntryHeaderSize &&
        entryDiskSize request.data.length ≤ (store.blocks b).capacity &&
        (store.blocks b).capacity < (store.blocks b).pos + entryDiskSize request.data.length &&
        0 < (store.blocks b).pos

/-- The sections of the flush thread that push a block to the free pool and
call `free_cv_.notify_one`. -/
def freesBlock (store : BlobStore) : FlushStep → Bool
  | .pop =>
      match store.flushQueue with
      | [] => false
      | b :: _ => (store.blocks b).pos = 0
  | .write _ => false
  | .release => true

def wake (s : WakeSystem) (t : Nat) : WakeSystem :=
  { s with freeCv := s.freeCv.erase t, woken := t :: s.woken }

def notifyFree (s : WakeSystem) (picked : Nat) : Option WakeSystem :=
  if s.freeCv = [] then some s
  else if picked ∈ s.freeCv then some (s.wake picked)
  else none

/-- A writer after a section: one that found no free block sleeps. -/
def afterSection (s : WakeSystem) (t : Nat) (system : StoreSystem) : WakeSystem :=
  match system.writers t with
  | .waiting _ => { s with system, freeCv := t :: s.freeCv }
  | _ => { s with system }

def exec (s : WakeSystem) : WakeLabel → Option WakeSystem
  | .writeBegin t request io =>
      (s.system.exec (.writeBegin t request io)).map fun system =>
        { s with flushAsleep := s.flushAsleep && !queuesBlock s.system.store request }.afterSection
          t system
  | .writeResume t io =>
      if t ∈ s.woken then
        (s.system.exec (.writeResume t io)).map fun system =>
          { s with woken := s.woken.erase t }.afterSection t system
      else none
  | .writeDirect t io result =>
      (s.system.exec (.writeDirect t io result)).map fun system => { s with system }
  | .flush step picked =>
      if s.flushAsleep then none
      else
        match s.system.exec (.flush step) with
        | none => none
        | some system =>
            if freesBlock s.system.store step then { s with system }.notifyFree picked
            else some { s with system }
  -- the predicate of `flush_cv_.wait` is false, and the thread sleeps at once under `block_mu_`
  | .flushWait =>
      if s.flushAsleep = false ∧ s.system.flush = .idle ∧ s.system.store.flushQueue = [] ∧
          s.system.store.flushRunning = true then
        some { s with flushAsleep := true }
      else none
  | .read label =>
      if label.reads then (s.system.exec label).map fun system => { s with system } else none
  | .wakeWriter t => if t ∈ s.freeCv then some (s.wake t) else none
  | .wakeFlush => if s.flushAsleep then some { s with flushAsleep := false } else none

end WakeSystem

/-- The machine starts with no thread asleep, from any store that `open`
returned `kOk` for. -/
def wakeMachine : Machine WakeSystem WakeLabel where
  start s := ∃ system, storeMachine.start system ∧ s = { system }
  exec := WakeSystem.exec

/-! ## What a section does to the places of a block -/

namespace BlobStore

variable {s after : BlobStore} {request : WriteRequest} {io : SegmentIo} {outcome : WriteOutcome}

@[simp] theorem segment_for_block_flush_running (b : Nat) :
    (s.segmentForBlock b io).flushRunning = s.flushRunning := by
  rcases segment_for_block_cases s b io with same | ⟨same, _⟩ <;> simp [same]

@[simp] theorem next_block_flush_running (b : Nat) (rest : List Nat) :
    (s.withNextBlock b rest io).flushRunning = s.flushRunning := by
  simp [withNextBlock]

/-- What a section of `write` leaves of the blocks that are not active. A
writer that goes to sleep found the pool empty; one that took a block made the
pool shorter. -/
structure Acquired (s after : BlobStore) (outcome : WriteOutcome) : Prop where
  running : after.flushRunning = true
  config : after.config = s.config
  queue : after.flushQueue = s.flushQueue
  asleep : outcome = .waiting → s.freePool = [] ∧ after.freePool = []
  served : outcome ≠ .waiting → s.freePool.length = after.freePool.length + 1

theorem acquire_places (running : s.flushRunning = true)
    (cases : AcquireCases s request io outcome after) : Acquired s after outcome := by
  have config := acquire_config cases
  cases cases with
  | sleeps empty _ =>
      exact { running, config, queue := rfl, asleep := fun _ => ⟨empty, empty⟩, served := nofun }
  | stopped _ halted =>
      rw [running] at halted
      contradiction
  | noSegment b rest free _ =>
      refine { running := ?_, config, queue := ?_, asleep := nofun, served := fun _ => ?_ }
      · rw [next_block_flush_running, running]
      · rw [next_block_flush_queue]
      · rw [next_block_free_pool, free, List.length_cons]
  | appends b rest seg active free _ _ _ =>
      refine { running := ?_, config, queue := ?_, asleep := nofun, served := fun _ => ?_ }
      · exact (next_block_flush_running b rest).trans running
      · simp
      · simp [free]

/-- The first section of `write`: nothing moved, or the active block was queued
and another one asked for. -/
inductive Entered (s : BlobStore) (request : WriteRequest) (outcome : WriteOutcome)
    (after : BlobStore) : Prop where
  | stayed (running : after.flushRunning = true) (config : after.config = s.config)
      (queue : after.flushQueue = s.flushQueue) (pool : after.freePool = s.freePool)
      (awake : outcome ≠ .waiting)
  | rotated (b : Nat) (notifies : WakeSystem.queuesBlock s request = true)
      (acquired : Acquired (s.queued b) after outcome)

theorem enter_places (running : s.flushRunning = true)
    (cases : EnterCases s request io outcome after) : Entered s request outcome after := by
  cases cases with
  | refused | goesDirect | appends => exact .stayed running rfl rfl rfl nofun
  | rotates b isActive fits full short rest =>
      have notifies : WakeSystem.queuesBlock s request = true := by
        simp only [WakeSystem.queuesBlock, isActive, Bool.and_eq_true, decide_eq_true_eq]
        omega
      exact .rotated b notifies (acquire_places (s := s.queued b) running rest)

theorem write_direct_running {result : IoResult}
    (run : s.writeDirect request io result = some (outcome, after)) :
    after.flushRunning = s.flushRunning := by
  rcases write_direct_cases run with ⟨active, seg, files, _, _, ⟨_, rfl⟩ | ⟨_, rfl⟩⟩ <;>
    rcases segment_for_entry_cases s io (entryDiskSize request.data.length) with same | ⟨same, _⟩ <;>
    simp [same]

inductive FlushCases (s : BlobStore) : FlushPc → FlushStep → FlushPc → BlobStore → Prop where
  | returns (b : Nat) (rest : List Nat) (queue : s.flushQueue = b :: rest)
      (empty : (s.blocks b).pos = 0) :
      FlushCases s .idle .pop .idle { s with flushQueue := rest, freePool := b :: s.freePool }
  | takes (b : Nat) (rest : List Nat) (queue : s.flushQueue = b :: rest)
      (used : (s.blocks b).pos ≠ 0) :
      FlushCases s .idle .pop (.writing b) { s with flushQueue := rest, flushingBlock := some b }
  | writes (b : Nat) (result : IoResult) :
      FlushCases s (.writing b) (.write result) (.written b) (s.flushWrite b result)
  | releases (b : Nat) : FlushCases s (.written b) .release .idle (s.flushRelease b)

theorem flush_places {flush pc : FlushPc} {step : FlushStep}
    (run : s.flushStep flush step = some (pc, after)) : FlushCases s flush step pc after := by
  unfold flushStep at run
  split at run
  · cases queue : s.flushQueue with
    | nil =>
        rw [flushPop, queue] at run
        contradiction
    | cons b rest =>
        rw [flushPop, queue] at run
        simp only at run
        split at run
        · rename_i empty
          cases run
          exact .returns b rest queue empty
        · rename_i used
          cases run
          exact .takes b rest queue used
  · cases run
    exact .writes _ _
  · cases run
    exact .releases _
  · contradiction

end BlobStore

/-! ## What a step of the threads does to the sleepers -/

def BlobStore.moving (store : BlobStore) (flush : FlushPc) : Nat :=
  store.flushQueue.length + flush.block.toList.length

/-- The flush thread moves blocks towards the pool and loses none. -/
theorem BlobStore.flush_conserves {s after : BlobStore} {flush pc : FlushPc} {step : FlushStep}
    (cases : FlushCases s flush step pc after) :
    after.flushRunning = s.flushRunning ∧ after.config = s.config ∧
      after.moving pc + after.freePool.length = s.moving flush + s.freePool.length ∧
        after.freePool.length =
          s.freePool.length + if WakeSystem.freesBlock s step then 1 else 0 := by
  cases cases with
  | returns b rest queue empty =>
      refine ⟨rfl, rfl, ?_, ?_⟩
      · simp only [moving, queue, List.length_cons]
        omega
      · simp [WakeSystem.freesBlock, queue, empty]
  | takes b rest queue used =>
      refine ⟨rfl, rfl, ?_, ?_⟩
      · simp only [moving, queue, List.length_cons, FlushPc.block, Option.toList_some,
          Option.toList_none, List.length_nil]
      · simp [WakeSystem.freesBlock, queue, used]
  | writes b result => exact ⟨rfl, rfl, rfl, rfl⟩
  | releases b =>
      refine ⟨rfl, rfl, ?_, rfl⟩
      simp only [moving, flushRelease, List.length_cons, FlushPc.block, Option.toList_some,
        Option.toList_none, List.length_nil]
      omega

namespace WakeSystem

variable {s after : WakeSystem} {t : Nat} {request : WriteRequest} {io : SegmentIo}

def sleepersAfter (freeCv : List Nat) (t : Nat) : WriteOutcome → List Nat
  | .waiting => t :: freeCv
  | _ => freeCv

theorem after_section_eq {before : WakeSystem} {system : StoreSystem} {outcome : WriteOutcome}
    {store : BlobStore} (ended : system = s.system.afterSection t request (outcome, store)) :
    before.afterSection t system =
      { before with system, freeCv := sleepersAfter before.freeCv t outcome } := by
  have pc : system.writers t = StoreSystem.pcAfter request outcome := by
    rw [ended, StoreSystem.after_section_writers, Function.update_self]
  unfold afterSection
  rw [pc]
  cases outcome <;> rfl

theorem write_begin_moved (moved : s.exec (.writeBegin t request io) = some after) :
    ∃ outcome store, s.system.writers t = .idle ∧
      s.system.store.writeEnter request io = some (outcome, store) ∧
        after = { s with
          system := s.system.afterSection t request (outcome, store)
          freeCv := sleepersAfter s.freeCv t outcome
          flushAsleep := s.flushAsleep && !queuesBlock s.system.store request } := by
  simp only [exec, Option.map_eq_some_iff] at moved
  obtain ⟨system, ran, rfl⟩ := moved
  obtain ⟨outcome, store, idle, entered, ended⟩ := StoreSystem.write_begin_step ran
  refine ⟨outcome, store, idle, entered, ?_⟩
  rw [after_section_eq ended, ended]

theorem write_resume_moved (moved : s.exec (.writeResume t io) = some after) :
    ∃ request outcome store, t ∈ s.woken ∧ s.system.writers t = .waiting request ∧
      s.system.store.acquireAndAppend request io = some (outcome, store) ∧
        after = { s with
          system := s.system.afterSection t request (outcome, store)
          freeCv := sleepersAfter s.freeCv t outcome
          woken := s.woken.erase t } := by
  simp only [exec] at moved
  split at moved
  · rename_i isWoken
    obtain ⟨system, ran, rfl⟩ := Option.map_eq_some_iff.1 moved
    obtain ⟨request, outcome, store, waiting, resumed, ended⟩ := StoreSystem.write_resume_step ran
    refine ⟨request, outcome, store, isWoken, waiting, resumed, ?_⟩
    rw [after_section_eq ended, ended]
  · contradiction

theorem write_direct_moved {result : IoResult}
    (moved : s.exec (.writeDirect t io result) = some after) :
    ∃ request outcome store, s.system.writers t = .direct request ∧
      s.system.store.writeDirect request io result = some (outcome, store) ∧
        after = { s with system := s.system.afterDirect t request (outcome, store) } := by
  simp only [exec, Option.map_eq_some_iff] at moved
  obtain ⟨system, ran, rfl⟩ := moved
  obtain ⟨request, outcome, store, direct, written, rfl⟩ := StoreSystem.write_direct_step ran
  exact ⟨request, outcome, store, direct, written, rfl⟩

/-- A section of the flush thread wakes a writer where it frees a block and
there is one to wake. -/
theorem flush_moved {step : FlushStep} {picked : Nat}
    (moved : s.exec (.flush step picked) = some after) :
    ∃ pc store, s.flushAsleep = false ∧ s.system.store.flushStep s.system.flush step = some (pc, store) ∧
      ∃ system : StoreSystem, system.store = store ∧ system.flush = pc ∧
        system.writers = s.system.writers ∧
          ((freesBlock s.system.store step = false ∨ s.freeCv = []) ∧ after = { s with system } ∨
            freesBlock s.system.store step = true ∧ picked ∈ s.freeCv ∧
              after = { s with system }.wake picked) := by
  simp only [exec] at moved
  split at moved
  · contradiction
  · rename_i awake
    cases ran : s.system.exec (.flush step) with
    | none =>
        rw [ran] at moved
        contradiction
    | some system =>
        obtain ⟨pc, store, flushed, ended⟩ := StoreSystem.flush_thread_step ran
        rw [ran] at moved
        simp only at moved
        refine ⟨pc, store, by simpa using awake, flushed, system, by rw [ended], by rw [ended],
          by rw [ended], ?_⟩
        cases frees : freesBlock s.system.store step with
        | false =>
            rw [frees] at moved
            cases moved
            exact .inl ⟨.inl rfl, rfl⟩
        | true =>
            rw [frees] at moved
            simp only [if_true, notifyFree] at moved
            split at moved
            · rename_i nobody
              cases moved
              exact .inl ⟨.inr nobody, rfl⟩
            · split at moved
              · rename_i sleeps
                cases moved
                exact .inr ⟨rfl, sleeps, rfl⟩
              · contradiction

end WakeSystem

/-! ## The sleepers of a reachable state -/

/-- Every writer that waits is asleep or woken. Each of them queued a block
before it first slept, so that the blocks that are not active are those of the
pool at the start and one for each waiting writer. -/
structure WaitersInv (s : WakeSystem) : Prop where
  running : s.system.store.flushRunning = true
  idle : s.flushAsleep = true → s.system.flush = .idle ∧ s.system.store.flushQueue = []
  waiting : ∀ t, (∃ request, s.system.writers t = .waiting request) ↔ t ∈ s.freeCv ∨ t ∈ s.woken
  once : (s.freeCv ++ s.woken).Nodup
  size : 0 < s.system.store.config.writeBlockPoolSize.toNat
  places : s.system.store.moving s.system.flush + s.system.store.freePool.length + 1 =
    s.system.store.config.writeBlockPoolSize.toNat + (s.freeCv.length + s.woken.length)

/-- While a writer sleeps, every free block is one that another writer was
woken for. -/
structure WakeInv (s : WakeSystem) : Prop extends WaitersInv s where
  spoken : s.freeCv ≠ [] → s.system.store.freePool.length ≤ s.woken.length

section Invariant

variable {s after : WakeSystem} {t : Nat} {request : WriteRequest} {io : SegmentIo}

/-- The waiting writers after a section of writer `t`, which was taken out of
the two lists. -/
theorem waiting_after_section {writers : Nat → WriterPc} {freeCv woken : List Nat}
    (request : WriteRequest) (outcome : WriteOutcome) (out : t ∉ freeCv ∧ t ∉ woken)
    (once : (freeCv ++ woken).Nodup)
    (others : ∀ u, u ≠ t → ((∃ request, writers u = .waiting request) ↔ u ∈ freeCv ∨ u ∈ woken)) :
    (∀ u, (∃ waits, Function.update writers t (StoreSystem.pcAfter request outcome) u =
        .waiting waits) ↔ u ∈ WakeSystem.sleepersAfter freeCv t outcome ∨ u ∈ woken) ∧
      (WakeSystem.sleepersAfter freeCv t outcome ++ woken).Nodup := by
  constructor
  · intro u
    by_cases same : u = t
    · subst same
      rw [Function.update_self]
      cases outcome <;> simp [StoreSystem.pcAfter, WakeSystem.sleepersAfter, out]
    · rw [Function.update_of_ne same, others u same]
      cases outcome <;> simp [WakeSystem.sleepersAfter, same]
  · cases outcome with
    | waiting =>
        simp only [WakeSystem.sleepersAfter, List.cons_append, List.nodup_cons, List.mem_append]
        exact ⟨by simp [out], once⟩
    | stored | failed | direct => exact once

/-- A writer that takes a block leaves one less in the pool, one that finds
none is one sleeper more. -/
theorem sleepers_balance {before store : BlobStore} {outcome : WriteOutcome}
    (acquired : Acquired before store outcome) (freeCv : List Nat) (t : Nat) :
    (WakeSystem.sleepersAfter freeCv t outcome).length + before.freePool.length =
        freeCv.length + store.freePool.length + 1 ∧
      (WakeSystem.sleepersAfter freeCv t outcome ≠ [] →
        store.freePool = [] ∨ freeCv ≠ [] ∧ store.freePool.length < before.freePool.length) := by
  cases outcome with
  | waiting =>
      obtain ⟨empty, emptyAfter⟩ := acquired.asleep rfl
      rw [empty, emptyAfter]
      exact ⟨rfl, fun _ => .inl rfl⟩
  | stored | failed | direct =>
      have served := acquired.served nofun
      exact ⟨by simp only [WakeSystem.sleepersAfter]; omega,
        fun asleep => .inr ⟨asleep, by omega⟩⟩

theorem WakeInv.write_begin (inv : WakeInv s)
    (moved : s.exec (.writeBegin t request io) = some after) : WakeInv after := by
  obtain ⟨outcome, store, idle, ran, rfl⟩ := WakeSystem.write_begin_moved moved
  have out : t ∉ s.freeCv ∧ t ∉ s.woken := by
    have notWaiting := (inv.waiting t).not.1 (by simp [idle])
    exact not_or.1 notWaiting
  obtain ⟨waiting, once⟩ := waiting_after_section request outcome out inv.once fun u _ => inv.waiting u
  have places := inv.places
  have spoken := inv.spoken
  cases enter_places inv.running (enter_cases ran) with
  | stayed running config queue pool awake =>
      have sleepers : WakeSystem.sleepersAfter s.freeCv t outcome = s.freeCv := by
        cases outcome <;> first | rfl | contradiction
      refine
        { running := by simpa, idle := ?_, waiting := by simpa, once
          size := by simpa [config] using inv.size
          places := ?_, spoken := ?_ }
      · intro asleep
        simp only [Bool.and_eq_true] at asleep
        simpa [queue] using inv.idle asleep.1
      · simpa [moving, queue, pool, config, sleepers] using places
      · simpa [pool, sleepers] using spoken
  | rotated b notifies acquired =>
      obtain ⟨balance, speaks⟩ := sleepers_balance acquired s.freeCv t
      have config : store.config = s.system.store.config := acquired.config
      rw [queued_free_pool] at balance speaks
      refine
        { running := by simpa using acquired.running
          idle := ?_, waiting := by simpa, once
          size := by simpa [config] using inv.size
          places := ?_, spoken := ?_ }
      · intro asleep
        simp [notifies] at asleep
      · simp only [StoreSystem.after_section_store, StoreSystem.after_section_flush, moving,
          acquired.queue, config, queued_flush_queue, List.length_append, List.length_cons,
          List.length_nil] at places ⊢
        omega
      · intro asleep
        simp only [StoreSystem.after_section_store]
        rcases speaks asleep with empty | ⟨others, fewer⟩
        · simp [empty]
        · exact Nat.le_of_lt (Nat.lt_of_lt_of_le fewer (spoken others))

theorem WakeInv.write_resume (inv : WakeInv s) (moved : s.exec (.writeResume t io) = some after) :
    WakeInv after := by
  obtain ⟨request, outcome, store, isWoken, pcWas, ran, rfl⟩ := WakeSystem.write_resume_moved moved
  have distinct := List.nodup_append.1 inv.once
  have apart : t ∉ s.freeCv := fun sleeps => distinct.2.2 t sleeps t isWoken rfl
  have out : t ∉ s.freeCv ∧ t ∉ s.woken.erase t :=
    ⟨apart, fun still => (distinct.2.1.mem_erase_iff.1 still).1 rfl⟩
  obtain ⟨waiting, once⟩ := waiting_after_section request outcome out
    (inv.once.sublist (List.Sublist.append_left List.erase_sublist _)) fun u other => by
      rw [inv.waiting u, distinct.2.1.mem_erase_iff]
      simp [other]
  have acquired := acquire_places inv.running (acquire_cases ran)
  obtain ⟨balance, speaks⟩ := sleepers_balance acquired s.freeCv t
  have places := inv.places
  have fewer : (s.woken.erase t).length + 1 = s.woken.length := by
    have positive := List.length_pos_of_mem isWoken
    rw [List.length_erase_of_mem isWoken]
    omega
  refine
    { running := by simpa using acquired.running
      idle := ?_, waiting := by simpa, once
      size := by simpa [acquired.config] using inv.size
      places := ?_, spoken := ?_ }
  · intro asleep
    simpa [acquired.queue] using inv.idle asleep
  · simp only [StoreSystem.after_section_store, StoreSystem.after_section_flush, moving,
      acquired.queue, acquired.config] at places ⊢
    omega
  · intro asleep
    simp only [StoreSystem.after_section_store]
    rcases speaks asleep with empty | ⟨others, taken⟩
    · simp [empty]
    · have spoken := inv.spoken others
      omega

theorem WakeInv.write_direct (inv : WakeInv s) {result : IoResult}
    (moved : s.exec (.writeDirect t io result) = some after) : WakeInv after := by
  obtain ⟨request, outcome, store, pcWas, ran, rfl⟩ := WakeSystem.write_direct_moved moved
  obtain ⟨_, _, queue, pool, _⟩ := write_direct_frame ran
  have config := (write_direct_monotone ran).2
  refine
    { running := by simpa [write_direct_running ran] using inv.running
      idle := ?_, waiting := ?_, once := inv.once
      size := by simpa [config] using inv.size
      places := ?_, spoken := ?_ }
  · simpa [queue] using inv.idle
  · intro u
    rw [StoreSystem.after_direct_writers, ← inv.waiting u]
    by_cases same : u = t
    · subst same
      simp [pcWas]
    · rw [Function.update_of_ne same]
  · simpa [moving, queue, pool, config] using inv.places
  · simpa [pool] using inv.spoken

/-- The end of a sleep, by a notification or by itself. -/
theorem WaitersInv.wake (inv : WaitersInv s) (sleeps : t ∈ s.freeCv) : WaitersInv (s.wake t) := by
  have distinct := (List.nodup_append.1 inv.once).1
  have moves : (s.freeCv.erase t ++ t :: s.woken).Perm (s.freeCv ++ s.woken) :=
    List.perm_middle.trans ((List.perm_cons_erase sleeps).symm.append_right s.woken)
  have places := inv.places
  have positive := List.length_pos_of_mem sleeps
  refine
    { running := inv.running, idle := inv.idle, waiting := ?_, once := moves.nodup_iff.2 inv.once
      size := inv.size, places := ?_ }
  · intro u
    have member := moves.mem_iff (a := u)
    simp only [List.mem_append] at member
    rw [WakeSystem.wake, member]
    exact inv.waiting u
  · simp only [WakeSystem.wake, List.length_erase_of_mem sleeps, List.length_cons]
    omega

theorem WakeInv.wake (inv : WakeInv s) (sleeps : t ∈ s.freeCv) : WakeInv (s.wake t) where
  toWaitersInv := inv.toWaitersInv.wake sleeps
  spoken _ := Nat.le_succ_of_le (inv.spoken (List.ne_nil_of_mem sleeps))

theorem WakeInv.flush (inv : WakeInv s) {step : FlushStep} {picked : Nat}
    (moved : s.exec (.flush step picked) = some after) : WakeInv after := by
  obtain ⟨pc, store, awake, ran, system, rfl, rfl, writers, woke⟩ := WakeSystem.flush_moved moved
  obtain ⟨running, config, total, pool⟩ := flush_conserves (flush_places ran)
  have waiters : WaitersInv { s with system } := by
    refine
      { running := running.trans inv.running, idle := ?_, waiting := ?_, once := inv.once
        size := by simpa [config] using inv.size
        places := ?_ }
    · intro asleep
      rw [awake] at asleep
      contradiction
    · intro u
      simp only [writers]
      exact inv.waiting u
    · have places := inv.places
      simp only [config, total]
      exact places
  rcases woke with ⟨nobody, rfl⟩ | ⟨frees, sleeps, rfl⟩
  · refine { toWaitersInv := waiters, spoken := fun asleep => ?_ }
    rcases nobody with none | empty
    · simp only [pool, none]
      exact inv.spoken asleep
    · exact absurd empty asleep
  · refine { toWaitersInv := waiters.wake sleeps, spoken := fun _ => ?_ }
    have spoken := inv.spoken (List.ne_nil_of_mem sleeps)
    simp only [WakeSystem.wake, pool, frees, if_true, List.length_cons]
    omega

theorem WakeInv.step (inv : WakeInv s) {label : WakeLabel}
    (moved : wakeMachine.exec s label = some after) : WakeInv after := by
  cases label with
  | writeBegin t request io => exact inv.write_begin moved
  | writeResume t io => exact inv.write_resume moved
  | writeDirect t io result => exact inv.write_direct moved
  | flush step picked => exact inv.flush moved
  | flushWait =>
      simp only [wakeMachine, WakeSystem.exec] at moved
      split at moved
      · rename_i idle
        cases moved
        exact { inv with idle := fun _ => ⟨idle.2.1, idle.2.2.1⟩ }
      · contradiction
  | read label =>
      simp only [wakeMachine, WakeSystem.exec] at moved
      split at moved
      · rename_i reads
        obtain ⟨system, ran, rfl⟩ := Option.map_eq_some_iff.1 moved
        obtain ⟨r, pc, rfl⟩ := StoreSystem.reader_step reads ran
        exact { inv with }
      · contradiction
  | wakeWriter t =>
      simp only [wakeMachine, WakeSystem.exec] at moved
      split at moved
      · rename_i sleeps
        cases moved
        exact inv.wake sleeps
      · contradiction
  | wakeFlush =>
      simp only [wakeMachine, WakeSystem.exec] at moved
      split at moved
      · cases moved
        exact { inv with idle := nofun }
      · contradiction

end Invariant

theorem WakeInv.opened {config : NvmeStoreConfig} {files : Files} {io : OpenIo}
    (ok : (openStore config files io).1 = .kOk) :
    WakeInv { system := { store := (openStore config files io).2 } } := by
  have configIs := open_store_config ok
  obtain ⟨listing, seg, b, rest, _, _, pool, opened⟩ := open_store_cases ok
  obtain ⟨_, _, _, queue, _⟩ := scan_frame listing (constructed config files)
  have size : config.writeBlockPoolSize.toNat = rest.length + 1 := by
    have lengths := congrArg List.length pool
    simpa using lengths
  have noQueue : (openStore config files io).2.flushQueue = [] := by
    rw [opened]
    exact (create_flush_queue _ _).trans queue
  have left : (openStore config files io).2.freePool = rest := by rw [opened]
  refine
    { running := by rw [opened]
      idle := nofun
      waiting := by simp
      once := by simp
      size := by simp [configIs, size]
      places := ?_
      spoken := by simp }
  rw [moving, noQueue, left, configIs, size]
  simp [FlushPc.block]

theorem reach_wake {s : WakeSystem} (reached : Reach wakeMachine s) : WakeInv s := by
  apply ReachWithin.invariant WakeInv _ _ reached
  · intro start initial
    obtain ⟨system, ⟨config, files, io, ok, rfl⟩, rfl⟩ := initial
    exact WakeInv.opened ok
  · intro before label after inv _ moved
    exact inv.step moved

/-- A step is one of the store's threads, or a thread falls asleep or wakes up. -/
theorem wake_step_projects {s after : WakeSystem} {label : WakeLabel}
    (moved : wakeMachine.exec s label = some after) :
    after.system = s.system ∨ ∃ step, storeMachine.exec s.system step = some after.system := by
  have section_system : ∀ (before : WakeSystem) (t : Nat) (system : StoreSystem),
      (before.afterSection t system).system = system := by
    intro before t system
    unfold WakeSystem.afterSection
    split <;> rfl
  cases label with
  | writeBegin t request io =>
      obtain ⟨system, ran, rfl⟩ := Option.map_eq_some_iff.1 moved
      rw [section_system]
      exact .inr ⟨.writeBegin t request io, ran⟩
  | writeResume t io =>
      simp only [wakeMachine, WakeSystem.exec] at moved
      split at moved
      · obtain ⟨system, ran, rfl⟩ := Option.map_eq_some_iff.1 moved
        rw [section_system]
        exact .inr ⟨.writeResume t io, ran⟩
      · contradiction
  | writeDirect t io result =>
      obtain ⟨system, ran, rfl⟩ := Option.map_eq_some_iff.1 moved
      exact .inr ⟨.writeDirect t io result, ran⟩
  | flush step picked =>
      simp only [wakeMachine, WakeSystem.exec] at moved
      split at moved
      · contradiction
      · cases ran : s.system.exec (.flush step) with
        | none =>
            rw [ran] at moved
            contradiction
        | some system =>
            refine .inr ⟨.flush step, ?_⟩
            rw [ran] at moved
            simp only [WakeSystem.notifyFree] at moved
            split at moved
            · split at moved
              · cases moved
                exact ran
              · split at moved
                · cases moved
                  exact ran
                · contradiction
            · cases moved
              exact ran
  | flushWait | wakeWriter | wakeFlush =>
      simp only [wakeMachine, WakeSystem.exec] at moved
      split at moved
      · cases moved
        exact .inl rfl
      · contradiction
  | read label =>
      simp only [wakeMachine, WakeSystem.exec] at moved
      split at moved
      · obtain ⟨system, ran, rfl⟩ := Option.map_eq_some_iff.1 moved
        exact .inr ⟨label, ran⟩
      · contradiction

/-- What holds of every state of the threads around a store holds here. -/
theorem wake_reaches_store {s : WakeSystem} (reached : Reach wakeMachine s) :
    Reach storeMachine s.system := by
  apply ReachWithin.invariant (fun s => Reach storeMachine s.system) _ _ reached
  · intro start initial
    obtain ⟨system, started, rfl⟩ := initial
    exact .start started
  · intro before label after earlier _ moved
    rcases wake_step_projects moved with same | ⟨step, ran⟩
    · rw [same]
      exact earlier
    · exact .next earlier trivial ran

/-- No wakeup is lost and no thread waits for another that sleeps. In every
interleaving of any number of writers, the readers and the flush thread, each
waiting writer added one block to those that are not active; while writers
sleep, there are at least as many blocks on their way to the free pool as
sleepers, every free block has a woken writer, and the flush thread is awake. -/
theorem sleepers_have_blocks_coming {s : WakeSystem} (reached : Reach wakeMachine s) :
    Reach storeMachine s.system ∧
      (∀ t request, s.system.writers t = .waiting request → t ∈ s.freeCv ∨ t ∈ s.woken) ∧
      s.system.store.moving s.system.flush + s.system.store.freePool.length + 1 =
        s.system.store.config.writeBlockPoolSize.toNat + (s.freeCv.length + s.woken.length) ∧
      (s.freeCv ≠ [] → s.freeCv.length ≤ s.system.store.moving s.system.flush ∧
        s.system.store.freePool.length ≤ s.woken.length ∧ s.flushAsleep = false) := by
  have inv := reach_wake reached
  have places := inv.places
  refine ⟨wake_reaches_store reached, ?_, places, ?_⟩
  · intro t request waits
    exact (inv.waiting t).1 ⟨request, waits⟩
  · intro asleep
    have spoken := inv.spoken asleep
    have coming : s.freeCv.length ≤ s.system.store.moving s.system.flush := by
      have size := inv.size
      omega
    refine ⟨coming, spoken, ?_⟩
    by_contra sleeps
    obtain ⟨idle, empty⟩ := inv.idle (by simpa using sleeps)
    have someone := List.length_pos_iff.2 asleep
    rw [moving, idle, empty] at coming
    simp only [FlushPc.block, List.length_nil, Option.toList_none] at coming
    omega

/-! ## One block and two writers -/

def sleepingSystem : StoreSystem :=
  oneEntrySystem.afterSection 1 blockRequest (.waiting, oneEntrySystem.store.queued 0)

def sleepingState : WakeSystem := { system := sleepingSystem, freeCv := [1] }

theorem block_request_sleeps : oneEntrySystem.store.writeEnter blockRequest {} =
    some (.waiting, oneEntrySystem.store.queued 0) := by
  have size := block_request_disk_size
  have capacity : (oneEntrySystem.store.blocks 0).capacity = 2 ^ 20 := by decide
  have pos : (oneEntrySystem.store.blocks 0).pos = 4096 := by decide
  apply write_enter_sleeps rfl _ _ _ rfl rfl
  · rw [block_request_length]
    decide
  · omega
  · omega

theorem sleeping_state_reached : Reach wakeMachine sleepingState := by
  have begun : Reach wakeMachine { system := { store := singleBlockStore } } :=
    .start ⟨_, single_block_store_started, rfl⟩
  have first : Reach wakeMachine { system := oneEntrySystem } := by
    refine ReachWithin.by_label (.writeBegin 0 emptyRequest {}) begun trivial ?_
    have ran : StoreSystem.exec { store := singleBlockStore } (.writeBegin 0 emptyRequest {}) =
      some oneEntrySystem := one_entry_moved
    simp only [wakeMachine, WakeSystem.exec, ran, Option.map_some, Bool.false_and]
    rfl
  refine ReachWithin.by_label (.writeBegin 1 blockRequest {}) first trivial ?_
  have ran : oneEntrySystem.exec (.writeBegin 1 blockRequest {}) = some sleepingSystem := by
    have idle : oneEntrySystem.writers 1 = .idle := rfl
    simp only [StoreSystem.exec, idle, block_request_sleeps, Option.map_some]
    rfl
  simp only [wakeMachine, WakeSystem.exec, ran, Option.map_some, Bool.false_and]
  rfl

/-- The second writer sleeps, and the one block it waits for is in the queue. -/
theorem sleepers_have_blocks_coming_queued :
    sleepingState.system.writers 1 = .waiting blockRequest ∧
      sleepingState.system.store.moving sleepingState.system.flush = 1 ∧
        sleepingState.freeCv.length ≤ sleepingState.system.store.moving sleepingState.system.flush ∧
          sleepingState.flushAsleep = false :=
  have coming := (sleepers_have_blocks_coming sleeping_state_reached).2.2.2 (by decide)
  ⟨rfl, by decide, coming.1, coming.2.2⟩

end AttentionDB
