import AttentionDB.Engine.Engine
import AttentionDB.Storage.VisibleEntries

/-!
# Whole calls of the blob store

What one call of `write`, `read` or `mark_dead` does when the steps of the
flush thread fall between its sections. The invariant of the store holds before
and after each call, a write that returns `kOk` has recorded its blob under the
location it returns, and a read of a recorded location returns no other bytes.
-/

namespace AttentionDB

open ByteMap BlobStore

set_option autoImplicit false

def FlushSucceeds (steps : List FlushStep) : Prop :=
  ∀ result, FlushStep.write result ∈ steps → result = .complete

/-- No write of the flush thread fails, and every segment that is needed opens. -/
structure T2WriteIo.Succeeds (io : T2WriteIo) : Prop where
  before : FlushSucceeds io.before
  segment : io.segment.opened = true
  naps : ∀ nap ∈ io.naps, FlushSucceeds nap.1 ∧ nap.2.opened = true

structure T2ReadIo.Succeeds (io : T2ReadIo) : Prop where
  beforePending : FlushSucceeds io.beforePending
  beforeLookup : FlushSucceeds io.beforeLookup
  beforeDisk : FlushSucceeds io.beforeDisk

theorem flush_succeeds_append {steps more : List FlushStep} (first : FlushSucceeds steps)
    (second : FlushSucceeds more) : FlushSucceeds (steps ++ more) := by
  intro result member
  rcases List.mem_append.1 member with earlier | later
  · exact first result earlier
  · exact second result later

/-! A call without steps of the flush thread inside it. -/

theorem no_flush_succeeds : FlushSucceeds [] := by
  intro result member
  cases member

theorem quiet_write_succeeds : T2WriteIo.Succeeds {} where
  before := no_flush_succeeds
  segment := rfl
  naps nap member := by cases member

theorem quiet_read_succeeds : T2ReadIo.Succeeds {} where
  beforePending := no_flush_succeeds
  beforeLookup := no_flush_succeeds
  beforeDisk := no_flush_succeeds

namespace T2

structure Later (t2 after : T2) : Prop where
  config : after.store.config = t2.store.config
  segments : t2.store.nextSegmentId ≤ after.store.nextSegmentId
  acked : ∀ ack ∈ t2.acked, ack ∈ after.acked
  handed : ∀ length ∈ t2.handed, length ∈ after.handed
  refused : t2.refused ≤ after.refused

theorem Later.refl (t2 : T2) : Later t2 t2 where
  config := rfl
  segments := Nat.le_refl _
  acked _ member := member
  handed _ member := member
  refused := Nat.le_refl _

theorem Later.trans {t2 middle after : T2} (first : Later t2 middle) (second : Later middle after) :
    Later t2 after where
  config := second.config.trans first.config
  segments := Nat.le_trans first.segments second.segments
  acked ack member := second.acked ack (first.acked ack member)
  handed length member := second.handed length (first.handed length member)
  refused := Nat.le_trans first.refused second.refused

structure Buffered (t2 : T2) : Prop where
  segments : t2.store.nextSegmentId < 2 ^ 32
  small : blockCapacity t2.store.config < 2 ^ 31
  fits : ∀ length ∈ t2.handed, entryDiskSize length ≤ blockCapacity t2.store.config

theorem Buffered.earlier {t2 after : T2} (bound : Buffered after) (later : Later t2 after) :
    Buffered t2 where
  segments := Nat.lt_of_le_of_lt later.segments bound.segments
  small := later.config ▸ bound.small
  fits length member := later.config ▸ bound.fits length (later.handed length member)

def Valid (asleep : Bool) (t2 : T2) : Prop := StoreInv t2.store t2.flush asleep t2.acked

/-- Between two calls nobody sleeps. -/
abbrev Sound (t2 : T2) : Prop := Valid false t2

variable {t2 after : T2} {steps : List FlushStep} {request : WriteRequest} {status : Status}
  {loc : BlobLocation}

/-! ## Flush steps in a row -/

/-- What every step of a row keeps, the row keeps. -/
theorem flush_run_invariant (holds : T2 → Prop)
    (keep : ∀ t2 step flush store, step ∈ steps →
      t2.store.flushStep t2.flush step = some (flush, store) → holds t2 → holds { t2 with flush, store })
    (ran : t2.flushRun steps = some after) (start : holds t2) : holds after := by
  induction steps generalizing t2 with
  | nil =>
      cases ran
      exact start
  | cons step steps ih =>
      simp only [flushRun] at ran
      split at ran
      · contradiction
      · rename_i flush store moved
        have next := keep _ _ _ _ List.mem_cons_self moved start
        apply ih _ ran next
        intro t2 other flush store member
        exact keep t2 other flush store (List.mem_cons_of_mem _ member)

theorem flush_run_frame (ran : t2.flushRun steps = some after) :
    after.acked = t2.acked ∧ after.handed = t2.handed ∧ after.refused = t2.refused ∧
      after.store.config = t2.store.config ∧
      after.store.nextSegmentId = t2.store.nextSegmentId := by
  apply flush_run_invariant (fun other => other.acked = t2.acked ∧ other.handed = t2.handed ∧
    other.refused = t2.refused ∧ other.store.config = t2.store.config ∧
    other.store.nextSegmentId = t2.store.nextSegmentId) _ ran ⟨rfl, rfl, rfl, rfl, rfl⟩
  intro other step flush store _ moved ⟨acked, handed, refused, config, next⟩
  have sameConfig := (flush_step_frame moved).2.1
  exact ⟨acked, handed, refused, sameConfig.trans config, (flush_step_next moved).trans next⟩

theorem flush_run_later (ran : t2.flushRun steps = some after) : Later t2 after := by
  rcases flush_run_frame ran with ⟨acked, handed, refused, config, next⟩
  exact
    { config
      segments := Nat.le_of_eq next.symm
      acked := fun ack member => acked ▸ member
      handed := fun length member => handed ▸ member
      refused := Nat.le_of_eq refused.symm }

theorem flush_run_append {middle : T2} {more : List FlushStep} (first : t2.flushRun steps = some middle)
    (second : middle.flushRun more = some after) : t2.flushRun (steps ++ more) = some after := by
  induction steps generalizing t2 with
  | nil =>
      cases first
      exact second
  | cons step steps ih =>
      simp only [List.cons_append, flushRun] at first ⊢
      split at first
      · contradiction
      · exact ih first

/-- An invariant of the store, its flush thread and its history that every section
of a call keeps as long as the I/O succeeds. -/
structure KeptBySections (inv : BlobStore → FlushPc → Bool → List Ack → Prop) : Prop where
  valid : ∀ {s flush asleep acked}, inv s flush asleep acked → StoreInv s flush asleep acked
  flushStep : ∀ {s after flush pc asleep acked step}, inv s flush asleep acked →
    (∀ result, step = FlushStep.write result → result = .complete) →
    s.flushStep flush step = some (pc, after) → inv after pc asleep acked
  acquire : ∀ {s after flush acked request io outcome}, inv s flush true acked →
    io.opened = true → request.data.length ≤ 2 ^ 32 - 1 - kEntryHeaderSize →
    entryDiskSize request.data.length ≤ blockCapacity s.config → after.nextSegmentId < 2 ^ 32 →
    AcquireCases s request io outcome after →
    inv after flush (outcome = .waiting) (StoreSystem.recorded acked request outcome after)
  enter : ∀ {s after flush acked request io outcome}, inv s flush false acked →
    io.opened = true → after.nextSegmentId < 2 ^ 32 → EnterCases s request io outcome after →
    inv after flush (outcome = .waiting) (StoreSystem.recorded acked request outcome after)

theorem store_inv_kept : KeptBySections StoreInv where
  valid inv := inv
  flushStep inv succeeds moved := inv.flush_step succeeds moved
  acquire inv opened short fits bound cases := inv.acquire opened short fits bound cases
  enter inv opened bound cases := inv.enter opened bound cases

theorem KeptBySections.flush_run {inv : BlobStore → FlushPc → Bool → List Ack → Prop} {asleep : Bool}
    (kept : KeptBySections inv) (start : inv t2.store t2.flush asleep t2.acked)
    (succeeds : FlushSucceeds steps) (ran : t2.flushRun steps = some after) :
    inv after.store after.flush asleep after.acked := by
  apply flush_run_invariant (fun other => inv other.store other.flush asleep other.acked) _ ran start
  intro other step flush store member moved holds
  exact kept.flushStep holds (fun result same => succeeds result (same ▸ member)) moved

theorem flush_run_inv {asleep : Bool} (inv : Valid asleep t2) (succeeds : FlushSucceeds steps)
    (ran : t2.flushRun steps = some after) : Valid asleep after :=
  store_inv_kept.flush_run inv succeeds ran

/-- An entry on disk stays there while the flush thread runs. -/
theorem flush_run_keeps {asleep : Bool} {ack : Ack} {path : SegmentPath}
    (inv : Valid asleep t2) (member : ack ∈ t2.acked)
    (succeeds : FlushSucceeds steps) (ran : t2.flushRun steps = some after)
    (disk : OnDisk t2.store ack path) : OnDisk after.store ack path := by
  have whole := flush_run_invariant
    (fun other => Valid asleep other ∧ ack ∈ other.acked ∧ OnDisk other.store ack path) ?_ ran
    ⟨inv, member, disk⟩
  · exact whole.2.2
  · intro other step flush store isStep moved ⟨valid, listed, onDisk⟩
    have complete : ∀ result, step = .write result → result = .complete :=
      fun result same => succeeds result (same ▸ isStep)
    exact ⟨StoreInv.flush_step valid complete moved, listed,
      StoreInv.flush_step_keeps valid listed complete moved onDisk⟩

/-! ## A write -/

/-- What every returned write leaves, whatever the I/O did. -/
structure Written (t2 : T2) (request : WriteRequest) (status : Status) (loc : BlobLocation)
    (after : T2) : Prop where
  later : Later t2 after
  refused : status ≠ .kOk → t2.refused < after.refused
  stored : status = .kOk → ∃ ack ∈ after.acked, ack.loc = loc ∧ ack.data = request.data

theorem Written.after_later {middle : T2} (later : Later t2 middle)
    (written : Written middle request status loc after) : Written t2 request status loc after where
  later := later.trans written.later
  refused bad := Nat.lt_of_le_of_lt later.refused (written.refused bad)
  stored := written.stored

/-- The store moved on, and the histories are as they were. -/
theorem later_store {store : BlobStore} (config : store.config = t2.store.config)
    (segments : t2.store.nextSegmentId ≤ store.nextSegmentId) : Later t2 { t2 with store } where
  config := config
  segments := segments
  acked _ member := member
  handed _ member := member
  refused := Nat.le_refl _

theorem written_failed {store : BlobStore} (bad : status ≠ .kOk)
    (config : store.config = t2.store.config)
    (segments : t2.store.nextSegmentId ≤ store.nextSegmentId) :
    Written t2 request status loc { t2 with store, refused := t2.refused + 1 } where
  later :=
    { config, segments
      acked := fun _ member => member
      handed := fun _ member => member
      refused := Nat.le_succ _ }
  refused _ := Nat.lt_succ_self _
  stored ok := absurd ok bad

theorem written_stored {store : BlobStore} (block : Option Nat)
    (config : store.config = t2.store.config)
    (segments : t2.store.nextSegmentId ≤ store.nextSegmentId) :
    Written t2 request .kOk loc ({ t2 with store }.stored request loc block) where
  later :=
    { config, segments
      acked := fun _ member => List.mem_cons_of_mem _ member
      handed := fun _ member => member
      refused := Nat.le_refl _ }
  refused bad := absurd rfl bad
  stored _ := ⟨_, List.mem_cons_self, rfl, rfl⟩

theorem sleep_written {naps : List (List FlushStep × SegmentIo)}
    (ran : sleep request naps t2 = some ((status, loc), after)) :
    Written t2 request status loc after := by
  induction naps generalizing t2 with
  | nil => contradiction
  | cons nap naps ih =>
      simp only [sleep] at ran
      split at ran
      · contradiction
      · rename_i middle flushed
        apply Written.after_later (flush_run_later flushed)
        split at ran
        · contradiction
        · contradiction
        · rename_i store acquired
          have cases := acquire_cases acquired
          exact (ih ran).after_later (later_store (acquire_config cases) (acquire_next cases))
        · rename_i status store acquired
          have cases := acquire_cases acquired
          cases ran
          apply written_failed _ (acquire_config cases) (acquire_next cases)
          cases cases <;> decide
        · rename_i loc store acquired
          have cases := acquire_cases acquired
          cases ran
          exact written_stored _ (acquire_config cases) (acquire_next cases)

theorem write_written {io : T2WriteIo} (ran : t2.write request io = some ((status, loc), after)) :
    Written t2 request status loc after ∧ request.data.length ∈ after.handed := by
  have handing : Later t2 { t2 with handed := request.data.length :: t2.handed } :=
    { config := rfl
      segments := Nat.le_refl _
      acked := fun _ member => member
      handed := fun _ member => List.mem_cons_of_mem _ member
      refused := Nat.le_refl _ }
  have returned : Written { t2 with handed := request.data.length :: t2.handed } request status loc
      after := by
    simp only [write] at ran
    split at ran
    · contradiction
    · rename_i middle flushed
      apply Written.after_later (flush_run_later flushed)
      split at ran
      · contradiction
      · rename_i store entered
        rcases enter_monotone (enter_cases entered) with ⟨segments, config⟩
        exact (sleep_written ran).after_later (later_store config segments)
      · rename_i status store entered
        have cases := enter_cases entered
        rcases enter_monotone cases with ⟨segments, config⟩
        cases ran
        apply written_failed _ config segments
        cases cases with
        | refused _ bad => exact bad
        | rotates b isActive fits full short rest => cases rest <;> decide
      · rename_i loc store entered
        rcases enter_monotone (enter_cases entered) with ⟨segments, config⟩
        cases ran
        exact written_stored _ config segments
      · rename_i store entered
        rcases enter_monotone (enter_cases entered) with ⟨segments, config⟩
        apply Written.after_later (later_store config segments)
        split at ran
        · contradiction
        · rename_i awake flushedAgain
          apply Written.after_later (flush_run_later flushedAgain)
          split at ran
          · rename_i loc store placed
            rcases write_direct_monotone placed with ⟨more, same⟩
            cases ran
            exact written_stored none same more
          · rename_i status store placed
            rcases write_direct_monotone placed with ⟨more, same⟩
            cases ran
            apply written_failed _ same more
            rcases write_direct_cases placed with ⟨_, _, _, _, _, ⟨failed, _⟩ | ⟨stored, _⟩⟩
            · cases failed
              decide
            · cases stored
          · contradiction
  exact ⟨returned.after_later handing, returned.later.handed _ List.mem_cons_self⟩

section Kept

variable {inv : BlobStore → FlushPc → Bool → List Ack → Prop}

theorem KeptBySections.sleep {naps : List (List FlushStep × SegmentIo)} (kept : KeptBySections inv)
    (start : inv t2.store t2.flush true t2.acked)
    (succeeds : ∀ nap ∈ naps, FlushSucceeds nap.1 ∧ nap.2.opened = true)
    (short : request.data.length ≤ 2 ^ 32 - 1 - kEntryHeaderSize)
    (fits : entryDiskSize request.data.length ≤ blockCapacity t2.store.config)
    (ran : sleep request naps t2 = some ((status, loc), after)) (bound : Buffered after) :
    inv after.store after.flush false after.acked := by
  induction naps generalizing t2 with
  | nil => contradiction
  | cons nap naps ih =>
      simp only [T2.sleep] at ran
      split at ran
      · contradiction
      · rename_i middle flushed
        rcases succeeds nap (by simp) with ⟨flushes, opened⟩
        have still := kept.flush_run start flushes flushed
        have config := (flush_run_later flushed).config
        split at ran
        · contradiction
        · contradiction
        · rename_i store acquired
          have cases := acquire_cases acquired
          have before : Later { middle with store } after := (sleep_written ran).later
          apply ih _ (fun nap member => succeeds nap (by simp [member])) _ ran
          · exact kept.acquire still opened short (by rw [config]; exact fits)
              (bound.earlier before).segments cases
          · rw [acquire_config cases, config]
            exact fits
        · rename_i status store acquired
          have cases := acquire_cases acquired
          cases ran
          exact kept.acquire still opened short (by rw [config]; exact fits) bound.segments cases
        · rename_i loc store acquired
          have cases := acquire_cases acquired
          cases ran
          exact kept.acquire still opened short (by rw [config]; exact fits) bound.segments cases

/-- The rule for a whole write that takes the buffered branch. -/
theorem KeptBySections.write {io : T2WriteIo} (kept : KeptBySections inv)
    (start : inv t2.store t2.flush false t2.acked) (succeeds : io.Succeeds)
    (ran : t2.write request io = some ((status, loc), after)) (bound : Buffered after) :
    inv after.store after.flush false after.acked := by
  have fitsAfter := bound.fits _ (write_written ran).2
  rw [(write_written ran).1.later.config] at fitsAfter
  simp only [T2.write] at ran
  split at ran
  · contradiction
  · rename_i middle flushed
    have still : inv middle.store middle.flush false middle.acked := by
      apply kept.flush_run _ succeeds.before flushed
      exact start
    have config : middle.store.config = t2.store.config := (flush_run_later flushed).config
    split at ran
    · contradiction
    · rename_i store entered
      have cases := enter_cases entered
      have before : Later { middle with store } after := (sleep_written ran).later
      have asleep := kept.enter still succeeds.segment (bound.earlier before).segments cases
      rcases enter_monotone cases with ⟨_, sameConfig⟩
      have short : request.data.length ≤ 2 ^ 32 - 1 - kEntryHeaderSize := by
        cases cases with
        | rotates b isActive fits full short rest => exact short
      apply kept.sleep asleep succeeds.naps short _ ran bound
      rw [sameConfig, config]
      exact fitsAfter
    · rename_i status store entered
      have cases := enter_cases entered
      cases ran
      exact kept.enter still succeeds.segment bound.segments cases
    · rename_i loc store entered
      have cases := enter_cases entered
      cases ran
      exact kept.enter still succeeds.segment bound.segments cases
    · rename_i store entered
      -- an entry that fits a block is never sent to the direct path
      have cases := enter_cases entered
      cases cases with
      | goesDirect b isActive long short =>
          rw [(kept.valid still).capacity b, config] at long
          omega
      | rotates b isActive fits full short rest => cases rest

end Kept

theorem write_sound {io : T2WriteIo} (inv : Sound t2) (succeeds : io.Succeeds)
    (ran : t2.write request io = some ((status, loc), after)) (bound : Buffered after) :
    Sound after :=
  store_inv_kept.write inv succeeds ran bound

/-! ## A read -/

section Reads

variable {bufLen attempt : Nat}

/-- An attempt to read changes the store by steps of the flush thread only. -/
theorem read_attempt_flushes {io : T2ReadIo} {reply : Option ReadReply}
    (ran : t2.readAttempt loc bufLen attempt io = some (reply, after)) :
    ∃ steps, (io.Succeeds → FlushSucceeds steps) ∧ t2.flushRun steps = some after := by
  simp only [readAttempt] at ran
  split at ran
  · contradiction
  · rename_i looking flushed
    split at ran
    · cases ran
      exact ⟨_, fun succeeds => succeeds.beforePending, flushed⟩
    · split at ran
      · contradiction
      · rename_i seeking flushedAgain
        have both := flush_run_append flushed flushedAgain
        have bothSucceed : io.Succeeds → FlushSucceeds (io.beforePending ++ io.beforeLookup) :=
          fun succeeds => flush_succeeds_append succeeds.beforePending succeeds.beforeLookup
        split at ran
        · cases ran
          exact ⟨_, bothSucceed, both⟩
        · split at ran
          · contradiction
          · rename_i reading flushedLast
            cases ran
            refine ⟨_, ?_, flush_run_append both flushedLast⟩
            intro succeeds
            exact flush_succeeds_append (bothSucceed succeeds) succeeds.beforeDisk

theorem read_attempt_later {io : T2ReadIo} {reply : Option ReadReply}
    (ran : t2.readAttempt loc bufLen attempt io = some (reply, after)) :
    Later t2 after ∧ after.acked = t2.acked := by
  obtain ⟨steps, _, flushed⟩ := read_attempt_flushes ran
  exact ⟨flush_run_later flushed, (flush_run_frame flushed).1⟩

def Truthful (t2 : T2) (loc : BlobLocation) (reply : ReadReply) : Prop :=
  reply.status = .kOk → ∀ ack ∈ t2.acked, ack.loc = loc → reply.bytes = ack.data

theorem truthful_reply {ack : Ack} {reply : ReadReply} (right : reply = replyFor ack.data bufLen)
    (ok : reply.status = .kOk) : reply.bytes = ack.data := by
  rw [right] at ok ⊢
  unfold replyFor at ok ⊢
  split
  · rename_i short
    rw [if_pos short] at ok
    contradiction
  · rfl

/-- The entry is in a pending block, or it is on disk and stays there. -/
theorem read_attempt_sound {asleep : Bool} {io : T2ReadIo} {reply : Option ReadReply}
    (inv : Valid asleep t2) (succeeds : io.Succeeds)
    (ran : t2.readAttempt loc bufLen attempt io = some (reply, after)) :
    Valid asleep after ∧ ∀ answer, reply = some answer → Truthful t2 loc answer := by
  simp only [readAttempt] at ran
  split at ran
  · contradiction
  · rename_i looking flushed
    have invLooking := flush_run_inv inv succeeds.beforePending flushed
    have lookingAcked := (flush_run_frame flushed).1
    split at ran
    · rename_i answer found
      cases ran
      refine ⟨invLooking, ?_⟩
      intro _ same ok ack member here
      cases same
      rw [← lookingAcked] at member
      rcases StoreInv.read_pending invLooking member bufLen with right | ⟨missed, _⟩
      · rw [here, found] at right
        exact truthful_reply (Option.some.inj right) ok
      · rw [here, found] at missed
        contradiction
    · rename_i missed
      have onDisk : ∀ ack ∈ looking.acked, ack.loc = loc → ∃ path, OnDisk looking.store ack path := by
        intro ack member here
        rcases StoreInv.read_pending invLooking member bufLen with right | ⟨_, disk⟩
        · rw [here, missed] at right
          contradiction
        · exact disk
      split at ran
      · contradiction
      · rename_i seeking flushedAgain
        have invSeeking := flush_run_inv invLooking succeeds.beforeLookup flushedAgain
        have seekingAcked := (flush_run_frame flushedAgain).1
        split at ran
        · cases ran
          refine ⟨invSeeking, ?_⟩
          intro answer same ok
          cases same
          contradiction
        · rename_i path found
          split at ran
          · contradiction
          · rename_i reading flushedLast
            have invReading := flush_run_inv invSeeking succeeds.beforeDisk flushedLast
            simp only [Option.some.injEq, Prod.mk.injEq] at ran
            rcases ran with ⟨rfl, rfl⟩
            refine ⟨invReading, ?_⟩
            intro answer same ok ack member here
            rw [← lookingAcked] at member
            rcases onDisk ack member here with ⟨other, disk⟩
            have sought := flush_run_keeps invLooking member succeeds.beforeLookup flushedAgain disk
            have samePath : other = path := by
              have fd := sought.fd
              rw [here, found] at fd
              exact (Option.some.inj fd).symm
            subst samePath
            rw [← seekingAcked] at member
            have read := flush_run_keeps invSeeking member succeeds.beforeDisk flushedLast sought
            have memberLast := member
            rw [← (flush_run_frame flushedLast).1] at memberLast
            rw [← here] at same
            exact read.read_disk_sound (StoreInv.shapes invReading ack memberLast) same ok

variable {reply : ReadReply} {first second : T2ReadIo}

theorem read_flushes (ran : t2.read loc bufLen first second = some (reply, after)) :
    ∃ steps, (first.Succeeds → second.Succeeds → FlushSucceeds steps) ∧
      t2.flushRun steps = some after := by
  simp only [read] at ran
  split at ran
  · contradiction
  · rename_i tried
    cases ran
    obtain ⟨steps, succeeds, flushed⟩ := read_attempt_flushes tried
    exact ⟨steps, fun first _ => succeeds first, flushed⟩
  · rename_i middle tried
    obtain ⟨steps, succeeds, flushed⟩ := read_attempt_flushes tried
    have twice : ∀ {answer : Option ReadReply} {last : T2},
        middle.readAttempt loc bufLen 1 second = some (answer, last) →
        ∃ steps, (first.Succeeds → second.Succeeds → FlushSucceeds steps) ∧
          t2.flushRun steps = some last := by
      intro answer last again
      obtain ⟨more, succeedsAgain, flushedAgain⟩ := read_attempt_flushes again
      refine ⟨_, ?_, flush_run_append flushed flushedAgain⟩
      intro first second
      exact flush_succeeds_append (succeeds first) (succeedsAgain second)
    split at ran
    · contradiction
    · rename_i again
      cases ran
      exact twice again
    · rename_i again
      cases ran
      exact twice again

theorem read_later (ran : t2.read loc bufLen first second = some (reply, after)) : Later t2 after := by
  obtain ⟨steps, _, flushed⟩ := read_flushes ran
  exact flush_run_later flushed

theorem read_acked (ran : t2.read loc bufLen first second = some (reply, after)) :
    after.acked = t2.acked := by
  obtain ⟨steps, _, flushed⟩ := read_flushes ran
  exact (flush_run_frame flushed).1

theorem read_sound (inv : Sound t2) (succeedsFirst : first.Succeeds)
    (succeedsSecond : second.Succeeds)
    (ran : t2.read loc bufLen first second = some (reply, after)) :
    Sound after ∧ Truthful t2 loc reply := by
  simp only [read] at ran
  split at ran
  · contradiction
  · rename_i tried
    cases ran
    rcases read_attempt_sound inv succeedsFirst tried with ⟨sound, truthful⟩
    exact ⟨sound, truthful _ rfl⟩
  · rename_i middle tried
    have between := (read_attempt_sound inv succeedsFirst tried).1
    have sameAcked := (read_attempt_later tried).2
    split at ran
    · contradiction
    · rename_i again
      cases ran
      rcases read_attempt_sound between succeedsSecond again with ⟨sound, truthful⟩
      refine ⟨sound, ?_⟩
      have answered := truthful _ rfl
      unfold Truthful at answered ⊢
      rwa [sameAcked] at answered
    · rename_i again
      cases ran
      refine ⟨(read_attempt_sound between succeedsSecond again).1, ?_⟩
      intro ok
      contradiction

end Reads

theorem mark_dead_later (t2 : T2) (loc : BlobLocation) : Later t2 (t2.markDead loc) := by
  rcases mark_dead_cases t2.store loc with same | ⟨i, change, marked, _⟩
  · unfold markDead
    rw [same]
    exact Later.refl t2
  · unfold markDead
    rw [marked]
    exact later_store rfl (Nat.le_refl _)

theorem mark_dead_sound (inv : Sound t2) (loc : BlobLocation) : Sound (t2.markDead loc) :=
  StoreInv.mark_dead inv loc

end T2

end AttentionDB
