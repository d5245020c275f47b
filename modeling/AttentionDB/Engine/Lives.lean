import AttentionDB.Engine.BlobStoreCalls
import AttentionDB.Storage.Shutdown

/-!
# Calls on a store with earlier lives

A call of `write`, `read` or `mark_dead` keeps what is known of the present and
of the earlier lives of a store, and so does a write that never gets past its
sleep. A read of an entry of an earlier life goes to the disk: it returns the
bytes of that entry or no `kOk`.
-/

namespace AttentionDB

open ByteMap BlobStore

set_option autoImplicit false

namespace T2

/-- The store in its present life; nobody sleeps between two calls. -/
def Alive (content : File → Ack → Prop) (old : List Ack) (asleep : Bool) (t2 : T2) : Prop :=
  Lifetime content t2.store t2.flush asleep t2.acked old

/-- The sleep of a writer that is not over when the process ends. -/
def sleepCut (request : WriteRequest) (last : List FlushStep) :
    List (List FlushStep × SegmentIo) → T2 → Option T2
  | [], t2 => t2.flushRun last
  | (steps, io) :: naps, t2 =>
      match t2.flushRun steps with
      | none => none
      | some t2 =>
          match t2.store.acquireAndAppend request io with
          | some (.waiting, store) => sleepCut request last naps { t2 with store }
          | _ => none

/-- A `write` that is asleep in `acquire_block` when the process ends. -/
def writeCut (t2 : T2) (request : WriteRequest) (io : T2WriteIo) (last : List FlushStep) :
    Option T2 :=
  let t2 := { t2 with handed := request.data.length :: t2.handed }
  match t2.flushRun io.before with
  | none => none
  | some t2 =>
      match t2.store.writeEnter request io.segment with
      | some (.waiting, store) => sleepCut request last io.naps { t2 with store }
      | _ => none

variable {content : File → Ack → Prop} {old : List Ack} {asleep : Bool} {t2 after : T2}
  {steps : List FlushStep} {request : WriteRequest} {status : Status} {loc : BlobLocation}

theorem Alive.valid (alive : Alive content old asleep t2) : Valid asleep t2 := alive.store

/-! ## Flush steps -/

theorem lifetime_kept (content : File → Ack → Prop) (old : List Ack) :
    KeptBySections fun s flush asleep acked => Lifetime content s flush asleep acked old where
  valid life := life.store
  flushStep life succeeds moved := life.flush_step succeeds moved
  acquire life opened short fits bound cases := life.acquire opened short fits bound cases
  enter life opened bound cases := life.enter opened bound cases

theorem flush_run_alive (alive : Alive content old asleep t2) (succeeds : FlushSucceeds steps)
    (ran : t2.flushRun steps = some after) : Alive content old asleep after :=
  (lifetime_kept content old).flush_run alive succeeds ran

/-! ## Writes -/

theorem write_alive {io : T2WriteIo} (alive : Alive content old false t2) (succeeds : io.Succeeds)
    (ran : t2.write request io = some ((status, loc), after)) (bound : Buffered after) :
    Alive content old false after :=
  (lifetime_kept content old).write alive succeeds ran bound

theorem sleep_cut_frame {naps : List (List FlushStep × SegmentIo)} {last : List FlushStep}
    (ran : sleepCut request last naps t2 = some after) : Later t2 after ∧ after.acked = t2.acked := by
  induction naps generalizing t2 with
  | nil => exact ⟨flush_run_later ran, (flush_run_frame ran).1⟩
  | cons nap naps ih =>
      simp only [sleepCut] at ran
      split at ran
      · contradiction
      · rename_i middle flushed
        split at ran
        · rename_i store acquired
          have cases := acquire_cases acquired
          have moved : Later middle { middle with store } :=
            later_store (acquire_config cases) (acquire_next cases)
          rcases ih ran with ⟨later, acked⟩
          exact ⟨((flush_run_later flushed).trans moved).trans later,
            acked.trans (flush_run_frame flushed).1⟩
        · contradiction

theorem sleep_cut_alive {naps : List (List FlushStep × SegmentIo)} {last : List FlushStep}
    (alive : Alive content old true t2)
    (succeeds : ∀ nap ∈ naps, FlushSucceeds nap.1 ∧ nap.2.opened = true)
    (lastSucceeds : FlushSucceeds last)
    (short : request.data.length ≤ 2 ^ 32 - 1 - kEntryHeaderSize)
    (fits : entryDiskSize request.data.length ≤ blockCapacity t2.store.config)
    (ran : sleepCut request last naps t2 = some after) (bound : Buffered after) :
    Alive content old true after := by
  induction naps generalizing t2 with
  | nil => exact flush_run_alive alive lastSucceeds ran
  | cons nap naps ih =>
      simp only [sleepCut] at ran
      split at ran
      · contradiction
      · rename_i middle flushed
        rcases succeeds nap (by simp) with ⟨flushes, opened⟩
        have still := flush_run_alive alive flushes flushed
        have config := (flush_run_later flushed).config
        split at ran
        · rename_i store acquired
          have cases := acquire_cases acquired
          have before : Later { middle with store } after := (sleep_cut_frame ran).1
          apply ih _ (fun nap member => succeeds nap (by simp [member])) _ ran
          · exact Lifetime.acquire still opened short (by rw [config]; exact fits)
              (bound.earlier before).segments cases
          · rw [acquire_config cases, config]
            exact fits
        · contradiction

/-- A write that never returned has acknowledged nothing. -/
theorem write_cut_alive {io : T2WriteIo} {last : List FlushStep} (alive : Alive content old false t2)
    (succeeds : io.Succeeds) (lastSucceeds : FlushSucceeds last)
    (ran : t2.writeCut request io last = some after) (bound : Buffered after) :
    Alive content old true after ∧ after.acked = t2.acked := by
  have handed : Alive content old false { t2 with handed := request.data.length :: t2.handed } := alive
  simp only [writeCut] at ran
  split at ran
  · contradiction
  · rename_i middle flushed
    have still : Alive content old false middle := flush_run_alive handed succeeds.before flushed
    have config : middle.store.config = t2.store.config := (flush_run_later flushed).config
    split at ran
    · rename_i store entered
      have cases := enter_cases entered
      rcases sleep_cut_frame ran with ⟨before, acked⟩
      have asleep := Lifetime.enter still succeeds.segment (bound.earlier before).segments cases
      rcases enter_monotone cases with ⟨_, sameConfig⟩
      have short : request.data.length ≤ 2 ^ 32 - 1 - kEntryHeaderSize := by
        cases cases with
        | rotates b isActive fits full short rest => exact short
      have fits : entryDiskSize request.data.length ≤ blockCapacity store.config := by
        have kept : request.data.length ∈ after.handed := by
          apply before.handed
          rw [(flush_run_frame flushed).2.1]
          exact List.mem_cons_self
        have here := bound.fits _ kept
        rw [before.config] at here
        exact here
      exact ⟨sleep_cut_alive asleep succeeds.naps lastSucceeds short fits ran bound,
        acked.trans (flush_run_frame flushed).1⟩
    · contradiction

theorem mark_dead_alive (alive : Alive content old asleep t2) (loc : BlobLocation) :
    Alive content old asleep (t2.markDead loc) :=
  Lifetime.mark_dead alive loc

/-! ## Reads -/

section Reads

variable {bufLen attempt : Nat} {ack : Ack}

theorem read_attempt_alive {io : T2ReadIo} {reply : Option ReadReply}
    (alive : Alive content old asleep t2) (succeeds : io.Succeeds)
    (ran : t2.readAttempt loc bufLen attempt io = some (reply, after)) :
    Alive content old asleep after := by
  obtain ⟨steps, flushes, flushed⟩ := read_attempt_flushes ran
  exact flush_run_alive alive (flushes succeeds) flushed

theorem read_alive {first second : T2ReadIo} {reply : ReadReply} (alive : Alive content old asleep t2)
    (succeedsFirst : first.Succeeds) (succeedsSecond : second.Succeeds)
    (ran : t2.read loc bufLen first second = some (reply, after)) :
    Alive content old asleep after := by
  obtain ⟨steps, flushes, flushed⟩ := read_flushes ran
  exact flush_run_alive alive (flushes succeedsFirst succeedsSecond) flushed

/-- An attempt to read an entry of an earlier life is a read of its file. -/
theorem read_attempt_old {io : T2ReadIo} {reply : Option ReadReply}
    (alive : Alive content old asleep t2) (member : ack ∈ old) (succeeds : io.Succeeds)
    (ran : t2.readAttempt ack.loc bufLen attempt io = some (reply, after)) :
    reply = after.store.readDisk (.canonical ack.loc.segmentId) ack.loc bufLen attempt io.readOk := by
  simp only [readAttempt] at ran
  split at ran
  · contradiction
  · rename_i looking flushed
    have first := flush_run_alive alive succeeds.beforePending flushed
    have missed : looking.store.readPending ack.loc bufLen = none := by
      rw [readPending, (first.old ack member).not_pending]
    rw [missed] at ran
    dsimp only at ran
    split at ran
    · contradiction
    · rename_i seeking flushedAgain
      have second := flush_run_alive first succeeds.beforeLookup flushedAgain
      have known := segment_fd_named second.named (second.old ack member).listed
      rw [known] at ran
      dsimp only at ran
      split at ran
      · contradiction
      · rename_i reading flushedLast
        cases ran
        rfl

/-- A read that returns `kOk` has the bytes of the entry. -/
theorem read_old {first second : T2ReadIo} {reply : ReadReply}
    (alive : Alive WrittenOrBlank old asleep t2) (member : ack ∈ old) (succeedsFirst : first.Succeeds)
    (succeedsSecond : second.Succeeds)
    (ran : t2.read ack.loc bufLen first second = some (reply, after)) (ok : reply.status = .kOk) :
    reply.bytes = ack.data := by
  have truthful : ∀ {t2 after : T2} {attempt : Nat} {io : T2ReadIo} {answer : ReadReply},
      Alive WrittenOrBlank old asleep t2 → io.Succeeds →
      t2.readAttempt ack.loc bufLen attempt io = some (some answer, after) →
      answer.status = .kOk → answer.bytes = ack.data := by
    intro t2 after attempt io answer alive succeeds tried answered
    have disk := read_attempt_old alive member succeeds tried
    have settled := (read_attempt_alive alive succeeds tried).old ack member
    rcases settled.shape with ⟨config, shape⟩
    rcases settled.content with written | blank
    · have onDisk := settled.on_disk (read_attempt_alive alive succeeds tried).named written
      exact onDisk.read_disk_sound shape disk.symm answered
    · exact absurd answered (read_disk_blank blank disk.symm)
  simp only [read] at ran
  split at ran
  · contradiction
  · rename_i tried
    cases ran
    exact truthful alive succeedsFirst tried ok
  · rename_i middle tried
    have between := read_attempt_alive alive succeedsFirst tried
    split at ran
    · contradiction
    · rename_i again
      cases ran
      exact truthful between succeedsSecond again ok
    · cases ran
      contradiction

/-- With the whole entry in its file the first attempt answers. -/
theorem read_old_answers {first second : T2ReadIo} {reply : ReadReply}
    (alive : Alive BlobStore.Written old asleep t2) (member : ack ∈ old) (nonempty : ack.data ≠ [])
    (succeeds : first.Succeeds) (readOk : first.readOk = true)
    (ran : t2.read ack.loc bufLen first second = some (reply, after)) :
    reply = replyFor ack.data bufLen := by
  have answered : ∀ {tried : Option ReadReply} {middle : T2},
      t2.readAttempt ack.loc bufLen 0 first = some (tried, middle) →
      tried = some (replyFor ack.data bufLen) := by
    intro tried middle attempt
    have disk := read_attempt_old alive member succeeds attempt
    have still := read_attempt_alive alive succeeds attempt
    have settled := still.old ack member
    rcases settled.shape with ⟨config, shape⟩
    have onDisk := settled.on_disk still.named settled.content
    rw [disk, readOk, onDisk.read_disk shape nonempty]
  simp only [read] at ran
  split at ran
  · contradiction
  · rename_i tried
    cases ran
    exact Option.some.inj (answered tried)
  · rename_i tried
    cases answered tried

end Reads

end T2

end AttentionDB
