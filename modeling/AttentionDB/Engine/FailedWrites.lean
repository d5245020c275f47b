import AttentionDB.Engine.ContainsGet
import AttentionDB.Storage.QuietSegments

/-!
# Writes that fail

A write of the blob store can fail after it has rotated the block: the old block
is in the queue, and the next one is active with the range it had before. A
reader sees of that what it saw before, an entry that was right then is right
now, and a segment that no block is in was not touched.
-/

namespace AttentionDB

open ByteMap BlobStore

set_option autoImplicit false

structure T2WriteIo.FlushesSucceed (io : T2WriteIo) : Prop where
  before : FlushSucceeds io.before
  naps : ∀ nap ∈ io.naps, FlushSucceeds nap.1
  directBefore : FlushSucceeds io.directBefore

namespace T2

variable {t2 middle after : T2} {steps : List FlushStep} {request : WriteRequest} {status : Status}
  {loc : BlobLocation} {asleep : Bool} {segmentId : Nat}

/-! ## The flush thread -/

/-- The store is valid, and a block that is taken unchanged does no harm. -/
structure Ready (asleep : Bool) (t2 : T2) : Prop where
  valid : Valid asleep t2
  spares : Spares t2.store t2.acked
  used : Used t2.store t2.flush

theorem ready_kept : KeptBySections fun s flush asleep acked =>
    StoreInv s flush asleep acked ∧ Spares s acked ∧ Used s flush where
  valid holds := holds.1
  flushStep := by
    intro s after flush pc asleep acked step ⟨inv, spares, used⟩ succeeds moved
    exact ⟨inv.flush_step succeeds moved, inv.flush_spares spares moved, flush_step_used used moved⟩
  acquire := by
    intro s after flush acked request io outcome ⟨inv, spares, used⟩ opened short fits bound cases
    have short32 : request.data.length < 2 ^ 32 := by
      unfold kEntryHeaderSize at short
      omega
    exact ⟨inv.acquire opened short fits bound cases, inv.acquire_spares spares opened bound cases,
      acquire_used used short32 cases⟩
  enter := by
    intro s after flush acked request io outcome ⟨inv, spares, used⟩ opened bound cases
    exact ⟨inv.enter opened bound cases, inv.enter_spares spares opened bound cases,
      enter_used used cases⟩

theorem flush_run_ready (ready : Ready asleep t2) (succeeds : FlushSucceeds steps)
    (ran : t2.flushRun steps = some after) : Ready asleep after := by
  obtain ⟨valid, spares, used⟩ :=
    ready_kept.flush_run ⟨ready.valid, ready.spares, ready.used⟩ succeeds ran
  exact { valid, spares, used }

/-- The flush thread changes no block, and neither of the cursors. -/
theorem flush_run_blocks (ran : t2.flushRun steps = some after) :
    after.store.blocks = t2.store.blocks ∧ after.store.activeBlock = t2.store.activeBlock ∧
      after.store.currentSegment = t2.store.currentSegment := by
  apply flush_run_invariant (fun other => other.store.blocks = t2.store.blocks ∧
    other.store.activeBlock = t2.store.activeBlock ∧
    other.store.currentSegment = t2.store.currentSegment) _ ran ⟨rfl, rfl, rfl⟩
  intro other step flush store _ moved ⟨sameBlocks, sameActive, sameSegment⟩
  obtain ⟨blocks, _, segments, active, activeBlock⟩ := flush_step_frame moved
  refine ⟨blocks.trans sameBlocks, activeBlock.trans sameActive, ?_⟩
  rw [← sameSegment, currentSegment, currentSegment, active, segments]

theorem untouched_later (ran : t2.flushRun steps = some after)
    (untouched : Untouched t2.store segmentId) : Untouched after.store segmentId := by
  unfold Untouched
  rw [(flush_run_blocks ran).1]
  exact untouched

theorem flush_run_undisturbed (valid : Valid asleep t2) (used : Used t2.store t2.flush)
    (untouched : Untouched t2.store segmentId) (succeeds : FlushSucceeds steps)
    (ran : t2.flushRun steps = some after) :
    Used after.store after.flush ∧ Undisturbed t2.store after.store segmentId := by
  have whole := flush_run_invariant
    (fun other => Valid asleep other ∧ Used other.store other.flush ∧
      Untouched other.store segmentId ∧ Undisturbed t2.store other.store segmentId) ?_ ran
    ⟨valid, used, untouched, Undisturbed.refl _ _⟩
  · exact ⟨whole.2.1, whole.2.2.2⟩
  · intro other step flush store isStep moved ⟨valid, used, untouched, same⟩
    have complete : ∀ result, step = .write result → result = .complete :=
      fun result isWrite => succeeds result (isWrite ▸ isStep)
    have one : other.flushRun [step] = some { other with flush, store } := by
      simp only [flushRun, moved]
    have next := StoreInv.flush_undisturbed valid used untouched moved
    exact ⟨StoreInv.flush_step valid complete moved, flush_step_used used moved,
      untouched_later one untouched, same.trans next⟩

/-! ## Reads of a store with its cursors put aside -/

def aside (t2 : T2) (segment : Option Nat) (next : Nat) (block : Option Nat) : T2 :=
  { t2 with store := t2.store.aside segment next block }

section Aside

variable {segment : Option Nat} {next : Nat} {block : Option Nat} {bufLen attempt : Nat}

theorem aside_flush_run (t2 : T2) (steps : List FlushStep) :
    (t2.aside segment next block).flushRun steps =
      (t2.flushRun steps).map (·.aside segment next block) := by
  induction steps generalizing t2 with
  | nil => rfl
  | cons step steps ih =>
      have first : (t2.aside segment next block).store.flushStep (t2.aside segment next block).flush step =
          (t2.store.flushStep t2.flush step).map fun result =>
            (result.1, result.2.aside segment next block) := aside_flush_step step
      simp only [flushRun, first]
      cases t2.store.flushStep t2.flush step with
      | none => rfl
      | some result => exact ih { t2 with flush := result.1, store := result.2 }

theorem alike_later (ran : t2.flushRun steps = some after) (alike : t2.store.LooksAlike block) :
    after.store.LooksAlike block := by
  obtain ⟨blocks, activeBlock, _⟩ := flush_run_blocks ran
  exact alike.same blocks activeBlock

theorem aside_read_attempt (alike : t2.store.LooksAlike block) (loc : BlobLocation)
    (bufLen attempt : Nat) (io : T2ReadIo) :
    (t2.aside segment next block).readAttempt loc bufLen attempt io =
      (t2.readAttempt loc bufLen attempt io).map fun result =>
        (result.1, result.2.aside segment next block) := by
  unfold readAttempt
  rw [aside_flush_run]
  cases flushed : t2.flushRun io.beforePending with
  | none => rfl
  | some looking =>
      have pending : (looking.aside segment next block).store.readPending loc bufLen =
          looking.store.readPending loc bufLen := (alike_later flushed alike).read_pending loc bufLen
      simp only [Option.map_some, pending]
      cases looking.store.readPending loc bufLen with
      | some reply => rfl
      | none =>
          simp only [aside_flush_run]
          cases looking.flushRun io.beforeLookup with
          | none => rfl
          | some seeking =>
              have lookup : (seeking.aside segment next block).store.segmentFd loc.segmentId =
                  seeking.store.segmentFd loc.segmentId := rfl
              simp only [Option.map_some, lookup]
              cases seeking.store.segmentFd loc.segmentId with
              | none => rfl
              | some path =>
                  simp only [aside_flush_run]
                  cases seeking.flushRun io.beforeDisk with
                  | none => rfl
                  | some reading => rfl

theorem aside_read (alike : t2.store.LooksAlike block) (loc : BlobLocation) (bufLen : Nat)
    (first second : T2ReadIo) :
    (t2.aside segment next block).read loc bufLen first second =
      (t2.read loc bufLen first second).map fun result =>
        (result.1, result.2.aside segment next block) := by
  unfold read
  rw [aside_read_attempt alike]
  cases tried : t2.readAttempt loc bufLen 0 first with
  | none => rfl
  | some result =>
      obtain ⟨reply, between⟩ := result
      cases reply with
      | some reply => rfl
      | none =>
          obtain ⟨steps, _, flushed⟩ := read_attempt_flushes tried
          simp only [Option.map_some, aside_read_attempt (alike_later flushed alike)]
          cases between.readAttempt loc bufLen 1 second with
          | none => rfl
          | some last =>
              obtain ⟨answer, after⟩ := last
              cases answer with
              | some answer => rfl
              | none => rfl

end Aside

/-! ## Calls that succeed -/

theorem write_ready {io : T2WriteIo} (ready : Ready false t2) (succeeds : io.Succeeds)
    (ran : t2.write request io = some ((status, loc), after)) (bound : Buffered after) :
    Ready false after := by
  obtain ⟨valid, spares, used⟩ :=
    ready_kept.write ⟨ready.valid, ready.spares, ready.used⟩ succeeds ran bound
  exact { valid, spares, used }

theorem read_ready {bufLen : Nat} {first second : T2ReadIo} {reply : ReadReply}
    (ready : Ready asleep t2) (succeeds : first.Succeeds ∧ second.Succeeds)
    (ran : t2.read loc bufLen first second = some (reply, after)) : Ready asleep after := by
  obtain ⟨steps, flushes, flushed⟩ := read_flushes ran
  exact flush_run_ready ready (flushes succeeds.1 succeeds.2) flushed

theorem mark_dead_ready (ready : Ready asleep t2) (loc : BlobLocation) :
    Ready asleep (t2.markDead loc) where
  valid := StoreInv.mark_dead ready.valid loc
  spares := mark_dead_spares ready.spares loc
  used := by
    intro b isWriting
    have held := ready.used b isWriting
    have blocks : (t2.store.markDead loc).blocks = t2.store.blocks := by
      rcases mark_dead_cases t2.store loc with same | ⟨i, change, marked, _⟩
      · rw [same]
      · rw [marked]
    rw [markDead, blocks]
    exact held

/-! ## Writes that fail -/

/-- What a write that failed leaves of the store that reads and the flush thread
work on. With its cursors put aside it is a valid store. -/
structure Left (t2 after : T2) : Prop where
  view : ∃ asleep segment next block, Valid asleep (after.aside segment next block) ∧
    after.store.LooksAlike block
  used : Used after.store after.flush
  acked : after.acked = t2.acked
  blocks : after.store.blocks = t2.store.blocks
  undisturbed : ∀ segmentId, Untouched t2.store segmentId → OffCourse t2.store segmentId →
    Undisturbed t2.store after.store segmentId

/-- Steps of the flush thread before the failure. -/
theorem Left.after_flush (left : Left middle after) (ready : Ready asleep t2)
    (succeeds : FlushSucceeds steps) (ran : t2.flushRun steps = some middle) : Left t2 after where
  view := left.view
  used := left.used
  acked := left.acked.trans (flush_run_frame ran).1
  blocks := left.blocks.trans (flush_run_blocks ran).1
  undisturbed := by
    intro segmentId untouched off
    have offCourse : OffCourse middle.store segmentId := by
      unfold OffCourse
      rw [(flush_run_blocks ran).2.2, (flush_run_frame ran).2.2.2.2]
      exact off
    have first := (flush_run_undisturbed ready.valid ready.used untouched succeeds ran).2
    exact first.trans (left.undisturbed segmentId (untouched_later ran untouched) offCourse)

/-- A write that failed before it changed anything. -/
theorem left_same (ready : Ready asleep t2) (handed : List Nat) (refused : Nat) :
    Left t2 { t2 with handed, refused } where
  view := ⟨asleep, t2.store.activeSegment, t2.store.nextSegmentId, t2.store.activeBlock, ready.valid,
    fun _ => rfl⟩
  used := ready.used
  acked := rfl
  blocks := rfl
  undisturbed _ _ _ := Undisturbed.refl _ _

/-- A writer that took a block and found no segment for it. -/
theorem left_acquired (ready : Ready true t2) {io : SegmentIo} {store : BlobStore} (refused : Nat)
    (cases : AcquireCases t2.store request io (.failed status) store) :
    Left t2 { t2 with store, refused } := by
  cases cases with
  | stopped empty halted =>
      have running := StoreInv.running ready.valid
      rw [halted] at running
      contradiction
  | noSegment b rest free missing =>
      obtain ⟨segment, next, block, valid, alike⟩ :=
        StoreInv.no_segment ready.valid free ready.spares missing
      exact
        { view := ⟨true, segment, next, block, valid, alike⟩
          used := no_segment_used ready.used b rest
          acked := rfl
          blocks := next_block_blocks _ _ _ _
          undisturbed := fun segmentId _ _ =>
            StoreInv.no_segment_undisturbed ready.valid missing segmentId }

theorem sleep_left {naps : List (List FlushStep × SegmentIo)} (ready : Ready true t2)
    (succeeds : ∀ nap ∈ naps, FlushSucceeds nap.1)
    (ran : sleep request naps t2 = some ((status, loc), after)) (bad : status ≠ .kOk) :
    Left t2 after := by
  induction naps generalizing t2 with
  | nil => contradiction
  | cons nap naps ih =>
      simp only [sleep] at ran
      split at ran
      · contradiction
      · rename_i middle flushed
        have flushes := succeeds nap (by simp)
        have still := flush_run_ready ready flushes flushed
        apply Left.after_flush _ ready flushes flushed
        split at ran
        · contradiction
        · contradiction
        · rename_i store acquired
          cases acquire_cases acquired with
          | sleeps empty running => exact ih still (fun nap member => succeeds nap (by simp [member])) ran
        · rename_i status store acquired
          cases ran
          exact left_acquired still _ (acquire_cases acquired)
        · cases ran
          exact absurd rfl bad

/-- The old block of a rotation is in the queue. -/
theorem queued_ready (ready : Ready false t2) {b : Nat} (isActive : t2.store.activeBlock = some b) :
    Ready true { t2 with store := t2.store.queued b } where
  valid := StoreInv.queued ready.valid isActive
  spares c free := (ready.spares c free).same rfl (fun _ => rfl) rfl
  used := ready.used

theorem Left.after_queue {b : Nat} (left : Left { t2 with store := t2.store.queued b } after) :
    Left t2 after where
  view := left.view
  used := left.used
  acked := left.acked
  blocks := left.blocks
  undisturbed segmentId untouched off :=
    have same : Undisturbed t2.store (t2.store.queued b) segmentId := ⟨rfl, fun _ _ => rfl⟩
    same.trans (left.undisturbed segmentId untouched off)

theorem write_left {io : T2WriteIo} (ready : Ready false t2) (flushes : io.FlushesSucceed)
    (ran : t2.write request io = some ((status, loc), after)) (bad : status ≠ .kOk)
    (bound : after.store.nextSegmentId < 2 ^ 32) : Left t2 after := by
  have handed : Ready false { t2 with handed := request.data.length :: t2.handed } :=
    { valid := ready.valid, spares := ready.spares, used := ready.used }
  have left : Left { t2 with handed := request.data.length :: t2.handed } after := by
    simp only [write] at ran
    split at ran
    · contradiction
    · rename_i middle flushed
      have still : Ready false middle := flush_run_ready handed flushes.before flushed
      apply Left.after_flush _ handed flushes.before flushed
      split at ran
      · contradiction
      · rename_i store entered
        cases enter_cases entered with
        | rotates b isActive fits full short rest =>
            cases rest with
            | sleeps empty running =>
                exact Left.after_queue (sleep_left (queued_ready still isActive) flushes.naps ran bad)
      · rename_i status store entered
        cases ran
        cases enter_cases entered with
        | refused => exact left_same still _ _
        | rotates b isActive fits full short rest =>
            exact Left.after_queue (left_acquired (queued_ready still isActive) _ rest)
      · cases ran
        exact absurd rfl bad
      · rename_i store entered
        have same : store = middle.store := by
          cases enter_cases entered with
          | goesDirect => rfl
          | rotates b isActive fits full short rest => cases rest
        subst same
        split at ran
        · contradiction
        · rename_i awake flushedAgain
          have ready : Ready false awake := flush_run_ready still flushes.directBefore flushedAgain
          apply Left.after_flush _ still flushes.directBefore flushedAgain
          split at ran
          · cases ran
            exact absurd rfl bad
          · rename_i status store placed
            cases ran
            have blocks := (write_direct_frame placed).1
            exact
              { view := ⟨false, awake.store.activeSegment, store.nextSegmentId, store.activeBlock,
                  StoreInv.direct_failed ready.valid placed bound, fun _ => rfl⟩
                used := by
                  intro b isWriting
                  rw [blocks]
                  exact ready.used b isWriting
                acked := rfl
                blocks
                undisturbed := fun segmentId _ off =>
                  StoreInv.direct_undisturbed ready.valid placed bound off }
          · contradiction
  exact
    { view := left.view
      used := left.used
      acked := left.acked
      blocks := left.blocks
      undisturbed := left.undisturbed }

/-! ## Reads before and after -/

/-- What a read finds at the location does not depend on which blocks are looked
at: an entry with bytes in it or one that no block covers, or a segment that
nothing is written to. -/
def Settled (t2 : T2) (loc : BlobLocation) : Prop :=
  (∃ ack ∈ t2.acked, ack.loc = loc ∧ (ack.data ≠ [] ∨ ∀ b, t2.store.covers loc b = false)) ∨
    (Untouched t2.store loc.segmentId ∧ OffCourse t2.store loc.segmentId)

section Reads

variable {bufLen attempt : Nat} {reply : ReadReply} {first second : T2ReadIo}

theorem uncovered_not_pending (uncovered : ∀ b, t2.store.covers loc b = false) :
    t2.pendingAfter loc steps = false := by
  unfold pendingAfter
  split
  · rfl
  · rename_i looking flushed
    have covers : looking.store.covers loc = t2.store.covers loc := by
      funext b
      rw [covers, covers, (flush_run_blocks flushed).1]
    have missed : looking.store.findInPendingBlocks loc = none := by
      unfold findInPendingBlocks
      rw [List.find?_eq_none, covers]
      intro b _
      rw [uncovered b]
      exact Bool.false_ne_true
    rw [missed]
    rfl

/-- For an entry with bytes in it, or one that no block covers, it does not matter
which blocks are looked at. -/
theorem settled_answer {ack : Ack} (settled : ack.data ≠ [] ∨ ∀ b, t2.store.covers ack.loc b = false) :
    (ack.data ≠ [] ∨ t2.pendingAfter ack.loc steps = true) ↔ ack.data ≠ [] := by
  constructor
  · intro either
    rcases settled with nonempty | uncovered
    · exact nonempty
    · rw [uncovered_not_pending uncovered] at either
      exact either.resolve_right Bool.false_ne_true
  · exact .inl

/-- An attempt to read where no block is goes to the file. -/
theorem read_attempt_quiet {io : T2ReadIo} {result : Option ReadReply} (valid : Valid asleep t2)
    (used : Used t2.store t2.flush) (untouched : Untouched t2.store loc.segmentId)
    (succeeds : io.Succeeds) (readOk : io.readOk = true)
    (ran : t2.readAttempt loc bufLen attempt io = some (result, after)) :
    result = t2.store.diskAttempt loc bufLen attempt := by
  simp only [readAttempt] at ran
  split at ran
  · contradiction
  · rename_i looking flushed
    have validLooking := flush_run_inv valid succeeds.beforePending flushed
    have untouchedLooking := untouched_later flushed untouched
    obtain ⟨usedLooking, sameLooking⟩ :=
      flush_run_undisturbed valid used untouched succeeds.beforePending flushed
    have missed : looking.store.readPending loc bufLen = none := by
      rw [readPending, untouchedLooking.not_pending]
    rw [missed] at ran
    dsimp only at ran
    split at ran
    · contradiction
    · rename_i seeking flushedAgain
      have validSeeking := flush_run_inv validLooking succeeds.beforeLookup flushedAgain
      have untouchedSeeking := untouched_later flushedAgain untouchedLooking
      obtain ⟨usedSeeking, sameSeeking⟩ :=
        flush_run_undisturbed validLooking usedLooking untouchedLooking succeeds.beforeLookup flushedAgain
      have same := sameLooking.trans sameSeeking
      rw [same.fd] at ran
      unfold diskAttempt
      cases found : t2.store.segmentFd loc.segmentId with
      | none =>
          rw [found] at ran
          cases ran
          rfl
      | some path =>
          rw [found] at ran
          dsimp only at ran ⊢
          split at ran
          · contradiction
          · rename_i reading flushedLast
            have sameReading := (flush_run_undisturbed validSeeking usedSeeking untouchedSeeking
              succeeds.beforeDisk flushedLast).2
            have file := (same.trans sameReading).file path found
            cases ran
            rw [readOk, readDisk, file]
            rfl

theorem read_quiet (valid : Valid asleep t2) (used : Used t2.store t2.flush)
    (untouched : Untouched t2.store loc.segmentId) (succeeds : first.Succeeds ∧ second.Succeeds)
    (readOk : first.readOk = true ∧ second.readOk = true)
    (ran : t2.read loc bufLen first second = some (reply, after)) :
    reply = t2.store.diskReply loc bufLen := by
  unfold diskReply
  simp only [read] at ran
  split at ran
  · contradiction
  · rename_i tried
    cases ran
    rw [← read_attempt_quiet valid used untouched succeeds.1 readOk.1 tried]
    rfl
  · rename_i middle tried
    rw [← read_attempt_quiet valid used untouched succeeds.1 readOk.1 tried]
    obtain ⟨steps, flushes, flushed⟩ := read_attempt_flushes tried
    have validMiddle := flush_run_inv valid (flushes succeeds.1) flushed
    have untouchedMiddle := untouched_later flushed untouched
    obtain ⟨usedMiddle, same⟩ := flush_run_undisturbed valid used untouched (flushes succeeds.1) flushed
    have again : ∀ {result : Option ReadReply} {last : T2},
        middle.readAttempt loc bufLen 1 second = some (result, last) →
        result = t2.store.diskAttempt loc bufLen 1 := by
      intro result last tried
      rw [← same.disk_attempt]
      exact read_attempt_quiet validMiddle usedMiddle untouchedMiddle succeeds.2 readOk.2 tried
    split at ran
    · contradiction
    · rename_i triedAgain
      cases ran
      rw [← again triedAgain]
      rfl
    · rename_i triedAgain
      cases ran
      rw [← again triedAgain]
      rfl

theorem aside_pending_after {segment : Option Nat} {next : Nat} {block : Option Nat}
    (alike : t2.store.LooksAlike block) (loc : BlobLocation) (steps : List FlushStep) :
    (t2.aside segment next block).pendingAfter loc steps = t2.pendingAfter loc steps := by
  unfold pendingAfter
  rw [aside_flush_run]
  cases flushed : t2.flushRun steps with
  | none => rfl
  | some looking =>
      have found : (looking.aside segment next block).store.findInPendingBlocks loc =
          looking.store.findInPendingBlocks loc := (alike_later flushed alike).find loc
      simp only [Option.map_some, found]

/-- After a write that failed, a read answers for an entry as it does in a valid
store. -/
theorem Left.answers {ack : Ack} (left : Left t2 after) (member : ack ∈ t2.acked)
    {afterAfter : T2} (succeeds : first.Succeeds ∧ second.Succeeds)
    (readOk : first.readOk = true ∧ second.readOk = true)
    (ran : after.read ack.loc bufLen first second = some (reply, afterAfter)) :
    reply = if ack.data ≠ [] ∨ after.pendingAfter ack.loc first.beforePending = true then
      replyFor ack.data bufLen else { status := .kNotFound } := by
  obtain ⟨asleep, segment, next, block, valid, alike⟩ := left.view
  have viewed : (after.aside segment next block).read ack.loc bufLen first second =
      some (reply, afterAfter.aside segment next block) := by
    rw [aside_read alike, ran]
    rfl
  have memberAfter : ack ∈ (after.aside segment next block).acked := by
    change ack ∈ after.acked
    rw [left.acked]
    exact member
  have answer := read_answers valid succeeds.1 succeeds.2 readOk.1 readOk.2 memberAfter viewed
  rw [aside_pending_after alike] at answer
  exact answer

/-- A settled location reads the same before and after a write that failed. -/
theorem Left.read_same (left : Left t2 after) (ready : Ready false t2) (settled : t2.Settled loc)
    {t2After afterAfter : T2} {firstAfter secondAfter : T2ReadIo} {replyAfter : ReadReply}
    (succeeds : first.Succeeds ∧ second.Succeeds)
    (readOk : first.readOk = true ∧ second.readOk = true)
    (ran : t2.read loc bufLen first second = some (reply, t2After))
    (succeedsAfter : firstAfter.Succeeds ∧ secondAfter.Succeeds)
    (readOkAfter : firstAfter.readOk = true ∧ secondAfter.readOk = true)
    (ranAfter : after.read loc bufLen firstAfter secondAfter = some (replyAfter, afterAfter)) :
    replyAfter = reply := by
  rcases settled with ⟨ack, member, rfl, right⟩ | ⟨untouched, off⟩
  · have rightAfter : ack.data ≠ [] ∨ ∀ b, after.store.covers ack.loc b = false := by
      apply right.imp_right
      intro uncovered b
      rw [covers, left.blocks]
      exact uncovered b
    have answer := read_answers ready.valid succeeds.1 succeeds.2 readOk.1 readOk.2 member ran
    have answerAfter := left.answers member succeedsAfter readOkAfter ranAfter
    simp only [settled_answer right] at answer
    simp only [settled_answer rightAfter] at answerAfter
    rw [answer, answerAfter]
  · obtain ⟨asleep, segment, next, block, valid, alike⟩ := left.view
    have viewed : (after.aside segment next block).read loc bufLen firstAfter secondAfter =
        some (replyAfter, afterAfter.aside segment next block) := by
      rw [aside_read alike, ranAfter]
      rfl
    have untouchedAfter : Untouched (after.aside segment next block).store loc.segmentId := by
      change Untouched after.store loc.segmentId
      unfold Untouched
      rw [left.blocks]
      exact untouched
    have usedAfter : Used (after.aside segment next block).store (after.aside segment next block).flush :=
      left.used
    have same := left.undisturbed _ untouched off
    have answer := read_quiet valid usedAfter untouchedAfter succeedsAfter readOkAfter viewed
    rw [read_quiet ready.valid ready.used untouched succeeds readOk ran, ← same.disk_reply]
    exact answer

end Reads

/-! ## Writes that take no block -/

/-- The blob is longer than an entry can be, or than a write block. -/
def Oversized (t2 : T2) (blob : List UInt8) : Prop :=
  2 ^ 32 - 1 - kEntryHeaderSize < blob.length ∨ blockCapacity t2.store.config < entryDiskSize blob.length

structure SameFlush (t2 after : T2) : Prop where
  flush : after.flush = t2.flush
  store : SameBlocks t2.store after.store

theorem SameFlush.flush_run {t2After afterAfter : T2} (same : SameFlush t2 after)
    (ran : t2.flushRun steps = some t2After) (ranAfter : after.flushRun steps = some afterAfter) :
    SameFlush t2After afterAfter := by
  induction steps generalizing t2 after with
  | nil =>
      cases ran
      cases ranAfter
      exact same
  | cons step steps ih =>
      simp only [flushRun] at ran ranAfter
      split at ran
      · contradiction
      · rename_i pc store moved
        split at ranAfter
        · contradiction
        · rename_i pcAfter storeAfter movedAfter
          rw [same.flush] at movedAfter
          obtain ⟨samePc, sameStore⟩ := same.store.flush_step moved movedAfter
          exact ih { flush := samePc, store := sameStore } ran ranAfter

/-- A write that fails without a block and without a step of the flush thread. -/
theorem write_oversized {io : T2WriteIo} (valid : Valid false t2) (oversized : t2.Oversized request.data)
    (quiet : io.before = [] ∧ io.directBefore = [])
    (ran : t2.write request io = some ((status, loc), after)) (bad : status ≠ .kOk) :
    SameFlush t2 after := by
  have fits : ∀ b, request.data.length ≤ 2 ^ 32 - 1 - kEntryHeaderSize →
      ¬entryDiskSize request.data.length ≤ (t2.store.blocks b).capacity := by
    intro b short small
    rw [StoreInv.capacity valid b] at small
    rcases oversized with long | large <;> omega
  simp only [write, quiet.1, quiet.2, flushRun] at ran
  split at ran
  · contradiction
  · rename_i store entered
    cases enter_cases entered with
    | rotates b isActive small full short rest => exact absurd small (fits b short)
  · rename_i status store entered
    cases ran
    cases enter_cases entered with
    | refused => exact { flush := rfl, store := ⟨rfl, rfl, rfl, rfl, rfl⟩ }
    | rotates b isActive small full short rest => exact absurd small (fits b short)
  · cases ran
    exact absurd rfl bad
  · rename_i store entered
    have same : store = t2.store := by
      cases enter_cases entered with
      | goesDirect => rfl
      | rotates b isActive small full short rest => exact absurd small (fits b short)
    subst same
    split at ran
    · cases ran
      exact absurd rfl bad
    · rename_i status store placed
      cases ran
      obtain ⟨blocks, activeBlock, flushQueue, freePool, flushingBlock⟩ := write_direct_frame placed
      exact { flush := rfl, store := { blocks, activeBlock, flushQueue, freePool, flushingBlock } }
    · contradiction

/-- An entry that the store returned, or a place in a segment that nothing is
written to. -/
def Known (t2 : T2) (loc : BlobLocation) : Prop :=
  (∃ ack ∈ t2.acked, ack.loc = loc) ∨
    (Untouched t2.store loc.segmentId ∧ OffCourse t2.store loc.segmentId)

theorem read_attempt_flushed {bufLen attempt : Nat} {io : T2ReadIo} {result : Option ReadReply}
    (ran : t2.readAttempt loc bufLen attempt io = some (result, after)) :
    ∃ looking, t2.flushRun io.beforePending = some looking := by
  simp only [readAttempt] at ran
  split at ran
  · contradiction
  · exact ⟨_, ‹_›⟩

theorem read_flushed {bufLen : Nat} {first second : T2ReadIo} {reply : ReadReply}
    (ran : t2.read loc bufLen first second = some (reply, after)) :
    ∃ looking, t2.flushRun first.beforePending = some looking := by
  simp only [read] at ran
  split at ran
  · contradiction
  · exact read_attempt_flushed ‹_›
  · exact read_attempt_flushed ‹_›

/-- On the same schedule a known location reads the same, empty blobs included. -/
theorem Left.read_alike {bufLen : Nat} {first second : T2ReadIo} {reply replyAfter : ReadReply}
    {t2After afterAfter : T2} (left : Left t2 after) (same : SameFlush t2 after)
    (ready : Ready false t2) (known : t2.Known loc) (succeeds : first.Succeeds ∧ second.Succeeds)
    (readOk : first.readOk = true ∧ second.readOk = true)
    (ran : t2.read loc bufLen first second = some (reply, t2After))
    (ranAfter : after.read loc bufLen first second = some (replyAfter, afterAfter)) :
    replyAfter = reply := by
  rcases known with ⟨ack, member, rfl⟩ | quiet
  · have pending : after.pendingAfter ack.loc first.beforePending =
        t2.pendingAfter ack.loc first.beforePending := by
      obtain ⟨looking, flushed⟩ := read_flushed ran
      obtain ⟨lookingAfter, flushedAfter⟩ := read_flushed ranAfter
      have found := (same.flush_run flushed flushedAfter).store.find ack.loc
      simp only [pendingAfter, flushed, flushedAfter, found]
    rw [left.answers member succeeds readOk ranAfter, pending,
      ← read_answers ready.valid succeeds.1 succeeds.2 readOk.1 readOk.2 member ran]
  · exact left.read_same ready (.inr quiet) succeeds readOk ran succeeds readOk ranAfter

end T2

end AttentionDB
