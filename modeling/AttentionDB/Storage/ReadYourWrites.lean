import AttentionDB.Storage.BlockOwnership
import AttentionDB.Storage.VisibleEntries

/-!
# Read your writes while the flush thread runs

One writer, the flush thread and any number of readers. A reader that looks at
the pending blocks and then at the file finds an acknowledged entry in one of
the two, because a block only stops being pending once its bytes are on disk
and the bytes on disk are never written over by others.
-/

namespace AttentionDB

open GuardedRuns BlobStore

set_option autoImplicit false

/-- One writer on the buffered path with entries that are not empty, and no
I/O failure. -/
def bufferedGuard (system : StoreSystem) : StoreLabel → Prop
  | .writeBegin t request io => t = 0 ∧ io.opened = true ∧ io.header = .complete ∧
      request.data ≠ [] ∧ entryDiskSize request.data.length ≤ blockCapacity system.store.config
  | .writeResume t io => t = 0 ∧ io.opened = true ∧ io.header = .complete
  | .writeDirect t io result => t = 0 ∧ io.opened = true ∧ result = .complete
  | .flush (.write result) => result = .complete
  | .readDisk _ readOk => readOk = true
  | _ => True

/-- Every returned read of an entry that was acknowledged before the read began
has the reply of that entry. -/
def ReadsOwnWrites (system : StoreSystem) : Prop :=
  ∀ r call reply, system.readers r = .returned call reply →
    ∀ ack ∈ call.acked, ack.loc = call.loc → reply = replyFor ack.data call.bufLen

/-- A reader that is inside a call can always move, and its moves end. -/
def readerRank : ReaderPc → Nat
  | .pending _ attempt => 3 * (2 - attempt) + 3
  | .lookup _ attempt => 3 * (2 - attempt) + 2
  | .disk _ attempt _ => 3 * (2 - attempt) + 1
  | _ => 0

def ReadersProgress (system : StoreSystem) : Prop :=
  ∀ r, 0 < readerRank (system.readers r) →
    ∃ label after, (label = .readPending r ∨ label = .readLookup r ∨ label = .readDisk r true) ∧
      storeMachine.exec system label = some after ∧
      readerRank (after.readers r) < readerRank (system.readers r)

def ReaderOk (store : BlobStore) (acked : List Ack) : ReaderPc → Prop
  | .idle => True
  | .pending call _ => ∀ ack ∈ call.acked, ack ∈ acked
  | .lookup call _ => (∀ ack ∈ call.acked, ack ∈ acked) ∧
      ∀ ack ∈ call.acked, ack.loc = call.loc → ∃ path, OnDisk store ack path
  | .disk call _ path => (∀ ack ∈ call.acked, ack ∈ acked) ∧
      ∀ ack ∈ call.acked, ack.loc = call.loc → OnDisk store ack path
  | .returned call reply =>
      ∀ ack ∈ call.acked, ack.loc = call.loc → reply = replyFor ack.data call.bufLen

def WriterOk (store : BlobStore) : WriterPc → Prop
  | .idle => True
  | .waiting request => request.data ≠ [] ∧
      request.data.length ≤ 2 ^ 32 - 1 - kEntryHeaderSize ∧
      entryDiskSize request.data.length ≤ blockCapacity store.config
  | .direct _ => False

def asleep : WriterPc → Bool
  | .waiting _ => true
  | _ => false

structure VisibleInv (system : StoreSystem) : Prop where
  writer : WriterOk system.store (system.writers 0)
  store : StoreInv system.store system.flush (asleep (system.writers 0)) system.acked
  nonempty : ∀ ack ∈ system.acked, ack.data ≠ []
  readers : ∀ r, ReaderOk system.store system.acked (system.readers r)

section Runs

variable {system after : StoreSystem} {label : StoreLabel}

theorem ReaderOk.later {store storeAfter : BlobStore} {acked ackedAfter : List Ack} {pc : ReaderPc}
    (ok : ReaderOk store acked pc) (grows : ∀ ack ∈ acked, ack ∈ ackedAfter)
    (keeps : ∀ ack ∈ acked, ∀ path, OnDisk store ack path → OnDisk storeAfter ack path) :
    ReaderOk storeAfter ackedAfter pc := by
  cases pc with
  | idle => trivial
  | pending call attempt => exact fun ack member => grows ack (ok ack member)
  | lookup call attempt =>
      refine ⟨fun ack member => grows ack (ok.1 ack member), ?_⟩
      intro ack member same
      rcases ok.2 ack member same with ⟨path, disk⟩
      exact ⟨path, keeps ack (ok.1 ack member) path disk⟩
  | disk call attempt path =>
      refine ⟨fun ack member => grows ack (ok.1 ack member), ?_⟩
      intro ack member same
      exact keeps ack (ok.1 ack member) path (ok.2 ack member same)
  | returned call reply => exact ok

theorem pc_asleep (request : WriteRequest) (outcome : WriteOutcome) :
    asleep (StoreSystem.pcAfter request outcome) = decide (outcome = .waiting) := by
  cases outcome <;> simp [StoreSystem.pcAfter, asleep]

theorem recorded_grows {acked : List Ack} {request : WriteRequest} {outcome : WriteOutcome}
    {store : BlobStore} : ∀ ack ∈ acked, ack ∈ StoreSystem.recorded acked request outcome store := by
  intro ack member
  cases outcome <;> simp [StoreSystem.recorded, member]

theorem recorded_nonempty {acked : List Ack} {request : WriteRequest} {outcome : WriteOutcome}
    {store : BlobStore} (old : ∀ ack ∈ acked, ack.data ≠ []) (new : request.data ≠ []) :
    ∀ ack ∈ StoreSystem.recorded acked request outcome store, ack.data ≠ [] := by
  intro ack member
  cases outcome with
  | stored loc =>
      rcases List.mem_cons.1 member with rfl | before
      · exact new
      · exact old ack before
  | failed | waiting | direct => exact old ack member

/-- The invariant after a section of the writer, from what the section does to
the store. -/
theorem VisibleInv.after_section (inv : VisibleInv system) {request : WriteRequest}
    {outcome : WriteOutcome} {store : BlobStore} (nonempty : request.data ≠ [])
    (writer : WriterOk store (StoreSystem.pcAfter request outcome))
    (done : StoreInv store system.flush (outcome = .waiting)
      (StoreSystem.recorded system.acked request outcome store))
    (keeps : ∀ ack ∈ system.acked, ∀ path, OnDisk system.store ack path → OnDisk store ack path) :
    VisibleInv (system.afterSection 0 request (outcome, store)) := by
  constructor
  · rw [StoreSystem.after_section_store, StoreSystem.after_section_writers, Function.update_self]
    exact writer
  · rw [StoreSystem.after_section_store, StoreSystem.after_section_flush,
      StoreSystem.after_section_writers, StoreSystem.after_section_acked, Function.update_self,
      pc_asleep]
    exact done
  · rw [StoreSystem.after_section_acked]
    exact recorded_nonempty inv.nonempty nonempty
  · intro r
    rw [StoreSystem.after_section_store, StoreSystem.after_section_acked]
    have same : (system.afterSection 0 request (outcome, store)).readers = system.readers := by
      cases outcome <;> rfl
    rw [same]
    exact (inv.readers r).later recorded_grows keeps

theorem VisibleInv.set_reader (inv : VisibleInv system) (r : Nat) (pc : ReaderPc)
    (ok : ReaderOk system.store system.acked pc) : VisibleInv (system.setReader r pc) := by
  refine { writer := inv.writer, store := inv.store, nonempty := inv.nonempty, readers := ?_ }
  intro other
  by_cases same : other = r
  · subst same
    simpa [StoreSystem.setReader] using ok
  · simpa [StoreSystem.setReader, same] using inv.readers other

theorem VisibleInv.write_begin (inv : VisibleInv system) {t : Nat} {request : WriteRequest}
    {io : SegmentIo} (allowed : bufferedGuard system (.writeBegin t request io))
    (bound : after.store.nextSegmentId < 2 ^ 32)
    (moved : storeMachine.exec system (.writeBegin t request io) = some after) : VisibleInv after := by
  rcases allowed with ⟨rfl, opened, _, nonempty, fits⟩
  rcases StoreSystem.write_begin_step moved with ⟨outcome, store, idle, entered, rfl⟩
  rw [StoreSystem.after_section_store] at bound
  have awake : StoreInv system.store system.flush false system.acked := by
    have stored := inv.store
    rw [idle] at stored
    exact stored
  have cases := enter_cases entered
  apply inv.after_section nonempty _ (awake.enter opened bound cases)
    fun ack _ path disk => awake.enter_keeps opened bound cases disk
  cases cases with
  | refused | appends => trivial
  | goesDirect b isActive long short =>
      rw [awake.capacity b] at long
      omega
  | rotates b isActive fitsBlock full short rest =>
      have config := acquire_config (s := system.store.queued b) rest
      cases outcome with
      | waiting => exact ⟨nonempty, short, by rw [config]; exact fits⟩
      | direct => cases rest
      | stored | failed => trivial

theorem VisibleInv.write_resume (inv : VisibleInv system) {t : Nat} {io : SegmentIo}
    (allowed : bufferedGuard system (.writeResume t io))
    (bound : after.store.nextSegmentId < 2 ^ 32)
    (moved : storeMachine.exec system (.writeResume t io) = some after) : VisibleInv after := by
  rcases allowed with ⟨rfl, opened, _⟩
  rcases StoreSystem.write_resume_step moved with ⟨request, outcome, store, waiting, resumed, rfl⟩
  rw [StoreSystem.after_section_store] at bound
  have sleeping : StoreInv system.store system.flush true system.acked := by
    have stored := inv.store
    rw [waiting] at stored
    exact stored
  have writer := inv.writer
  rw [waiting] at writer
  rcases writer with ⟨nonempty, short, fits⟩
  have cases := acquire_cases resumed
  apply inv.after_section nonempty _ (sleeping.acquire opened short fits bound cases)
    fun ack _ path disk => sleeping.acquire_keeps opened bound cases disk
  have config := acquire_config cases
  cases outcome with
  | waiting => exact ⟨nonempty, short, by rw [config]; exact fits⟩
  | direct => cases cases
  | stored | failed => trivial

theorem VisibleInv.flush_thread (inv : VisibleInv system) {step : FlushStep}
    (allowed : bufferedGuard system (.flush step))
    (moved : storeMachine.exec system (.flush step) = some after) : VisibleInv after := by
  rcases StoreSystem.flush_thread_step moved with ⟨pc, store, ran, rfl⟩
  have succeeds : ∀ result, step = .write result → result = .complete := by
    intro result isWrite
    subst isWrite
    exact allowed
  rcases flush_step_frame ran with ⟨_, config, _, _, _⟩
  refine
    { writer := ?_
      store := inv.store.flush_step succeeds ran
      nonempty := inv.nonempty
      readers := ?_ }
  · have writer := inv.writer
    unfold WriterOk at writer ⊢
    rw [config]
    exact writer
  · intro r
    exact (inv.readers r).later (fun _ member => member)
      fun ack member path disk => inv.store.flush_step_keeps member succeeds ran disk

/-- A reader that misses the pending blocks knows that its entries are on disk. -/
theorem VisibleInv.read_pending (inv : VisibleInv system) {r : Nat}
    (moved : storeMachine.exec system (.readPending r) = some after) : VisibleInv after := by
  simp only [storeMachine, StoreSystem.exec] at moved
  split at moved
  · rename_i call attempt pc
    have known := inv.readers r
    rw [pc] at known
    split at moved
    · rename_i reply found
      cases moved
      apply inv.set_reader
      intro ack member same
      rcases inv.store.read_pending (known ack member) call.bufLen with right | ⟨missed, _⟩
      · rw [same, found] at right
        exact Option.some.inj right
      · rw [same, found] at missed
        contradiction
    · rename_i missed
      cases moved
      apply inv.set_reader
      refine ⟨known, ?_⟩
      intro ack member same
      rcases inv.store.read_pending (known ack member) call.bufLen with right | ⟨_, disk⟩
      · rw [same, missed] at right
        contradiction
      · exact disk
  · contradiction

/-- The lookup finds the file that holds the known entries. -/
theorem VisibleInv.read_lookup (inv : VisibleInv system) {r : Nat}
    (moved : storeMachine.exec system (.readLookup r) = some after) : VisibleInv after := by
  simp only [storeMachine, StoreSystem.exec] at moved
  split at moved
  · rename_i call attempt pc
    have known := inv.readers r
    rw [pc] at known
    split at moved
    · rename_i path found
      cases moved
      apply inv.set_reader
      refine ⟨known.1, ?_⟩
      intro ack member same
      rcases known.2 ack member same with ⟨other, disk⟩
      have samePath : other = path := by
        have fd := disk.fd
        rw [same, found] at fd
        exact (Option.some.inj fd).symm
      exact samePath ▸ disk
    · rename_i missing
      cases moved
      apply inv.set_reader
      intro ack member same
      rcases known.2 ack member same with ⟨other, disk⟩
      have fd := disk.fd
      rw [same, missing] at fd
      contradiction
  · contradiction

theorem VisibleInv.read_disk (inv : VisibleInv system) {r : Nat}
    (moved : storeMachine.exec system (.readDisk r true) = some after) : VisibleInv after := by
  simp only [storeMachine, StoreSystem.exec] at moved
  split at moved
  · rename_i call attempt path pc
    have known := inv.readers r
    rw [pc] at known
    -- a known entry is on disk, so the read of its location has its reply
    have answers : ∀ ack ∈ call.acked, ack.loc = call.loc →
        system.store.readDisk path call.loc call.bufLen attempt true =
          some (replyFor ack.data call.bufLen) := by
      intro ack member same
      rw [← same]
      have inHistory := known.1 ack member
      exact (known.2 ack member same).read_disk (inv.store.shapes ack inHistory)
        (inv.nonempty ack inHistory) call.bufLen attempt
    split at moved
    · rename_i reply read
      cases moved
      apply inv.set_reader
      intro ack member same
      have right := answers ack member same
      rw [read] at right
      exact Option.some.inj right
    · rename_i again
      cases moved
      apply inv.set_reader
      have noKnown : ∀ ack ∈ call.acked, ack.loc ≠ call.loc := by
        intro ack member same
        have right := answers ack member same
        rw [again] at right
        contradiction
      unfold StoreSystem.retry
      split
      · exact known.1
      · intro ack member same
        exact absurd same (noKnown ack member)
  · contradiction

theorem VisibleInv.step (inv : VisibleInv system) (allowed : bufferedGuard system label)
    (bound : after.store.nextSegmentId < 2 ^ 32)
    (moved : storeMachine.exec system label = some after) : VisibleInv after := by
  cases label with
  | writeBegin t request io => exact inv.write_begin allowed bound moved
  | writeResume t io => exact inv.write_resume allowed bound moved
  | writeDirect t io result =>
      rcases allowed with ⟨rfl, _, _⟩
      rcases StoreSystem.write_direct_step moved with ⟨request, _, _, direct, _, _⟩
      have writer := inv.writer
      rw [direct] at writer
      exact absurd writer id
  | flush step => exact inv.flush_thread allowed moved
  | readBegin r loc bufLen =>
      simp only [storeMachine, StoreSystem.exec] at moved
      split at moved
      · cases moved
        exact inv.set_reader r _ fun ack member => member
      · cases moved
        exact inv.set_reader r _ fun ack member => member
      · contradiction
  | readPending r => exact inv.read_pending moved
  | readLookup r => exact inv.read_lookup moved
  | readDisk r readOk =>
      have success : readOk = true := allowed
      subst success
      exact inv.read_disk moved

/-- Steps never lower the segment counter and never change the configuration. -/
theorem store_step_monotone (moved : storeMachine.exec system label = some after) :
    system.store.nextSegmentId ≤ after.store.nextSegmentId ∧
      after.store.config = system.store.config := by
  cases label with
  | writeBegin t request io =>
      rcases StoreSystem.write_begin_step moved with ⟨outcome, store, _, entered, rfl⟩
      rw [StoreSystem.after_section_store]
      exact enter_monotone (enter_cases entered)
  | writeResume t io =>
      rcases StoreSystem.write_resume_step moved with ⟨_, outcome, store, _, resumed, rfl⟩
      rw [StoreSystem.after_section_store]
      exact ⟨acquire_next (acquire_cases resumed), acquire_config (acquire_cases resumed)⟩
  | writeDirect t io result =>
      rcases StoreSystem.write_direct_step moved with ⟨_, outcome, store, _, written, rfl⟩
      rw [StoreSystem.after_direct_store]
      exact write_direct_monotone written
  | flush step =>
      rcases StoreSystem.flush_thread_step moved with ⟨pc, store, ran, rfl⟩
      rcases flush_step_frame ran with ⟨_, config, _, _, _⟩
      exact ⟨Nat.le_of_eq (flush_step_next ran).symm, config⟩
  | readBegin r loc bufLen | readPending r | readLookup r | readDisk r readOk =>
      simp only [storeMachine] at moved
      rcases StoreSystem.reader_step rfl moved with ⟨reader, pc, rfl⟩
      exact ⟨Nat.le_refl _, rfl⟩

end Runs

/-- The invariant of every run of one writer, the flush thread and readers. -/
theorem visible_inv {system : StoreSystem} (reached : ReachWithin storeMachine bufferedGuard system)
    (segments : system.store.nextSegmentId < 2 ^ 32)
    (small : blockCapacity system.store.config < 2 ^ 31) : VisibleInv system := by
  have bounded := reached.invariant_under
    (fun system => system.store.nextSegmentId < 2 ^ 32 ∧
      blockCapacity system.store.config < 2 ^ 31)
    (fun system => (system.store.nextSegmentId < 2 ^ 32 ∧
      blockCapacity system.store.config < 2 ^ 31) → VisibleInv system)
  apply bounded _ _ _ ⟨segments, small⟩ ⟨segments, small⟩
  · intro before label after moved bound
    rcases store_step_monotone moved with ⟨grows, config⟩
    rw [config] at bound
    exact ⟨by omega, bound.2⟩
  · intro start initial bound
    rcases initial with ⟨config, files, io, ok, rfl⟩
    rcases bound with ⟨segments, small⟩
    have configIs := open_store_config ok
    rw [configIs] at small
    have opened := StoreInv.opened ok small segments
    exact { writer := trivial, store := opened, nonempty := by simp, readers := fun _ => trivial }
  · intro before label after bound inv allowed moved _
    rcases store_step_monotone moved with ⟨grows, config⟩
    rw [config] at bound
    exact (inv ⟨by omega, bound.2⟩).step allowed bound.1 moved

/-- A reader inside a call has a next step, and only finitely many of them. -/
theorem readers_progress (system : StoreSystem) : ReadersProgress system := by
  intro r inCall
  cases pc : system.readers r with
  | idle =>
      rw [pc] at inCall
      exact absurd inCall (by simp [readerRank])
  | returned call reply =>
      rw [pc] at inCall
      exact absurd inCall (by simp [readerRank])
  | pending call attempt =>
      cases found : system.store.readPending call.loc call.bufLen with
      | some reply =>
          refine ⟨.readPending r, system.setReader r (.returned call reply), .inl rfl, ?_, ?_⟩
          · simp [storeMachine, StoreSystem.exec, pc, found]
          · simp [StoreSystem.setReader, readerRank]
      | none =>
          refine ⟨.readPending r, system.setReader r (.lookup call attempt), .inl rfl, ?_, ?_⟩
          · simp [storeMachine, StoreSystem.exec, pc, found]
          · simp [StoreSystem.setReader, readerRank]
  | lookup call attempt =>
      cases found : system.store.segmentFd call.loc.segmentId with
      | some path =>
          refine ⟨.readLookup r, system.setReader r (.disk call attempt path), .inr (.inl rfl), ?_, ?_⟩
          · simp [storeMachine, StoreSystem.exec, pc, found]
          · simp [StoreSystem.setReader, readerRank]
      | none =>
          refine ⟨.readLookup r, system.setReader r (.returned call { status := .kNotFound }),
            .inr (.inl rfl), ?_, ?_⟩
          · simp [storeMachine, StoreSystem.exec, pc, found]
          · simp [StoreSystem.setReader, readerRank]
  | disk call attempt path =>
      cases read : system.store.readDisk path call.loc call.bufLen attempt true with
      | some reply =>
          refine ⟨.readDisk r true, system.setReader r (.returned call reply), .inr (.inr rfl), ?_, ?_⟩
          · simp [storeMachine, StoreSystem.exec, pc, read]
          · simp [StoreSystem.setReader, readerRank]
      | none =>
          refine ⟨.readDisk r true, system.setReader r (StoreSystem.retry call attempt),
            .inr (.inr rfl), ?_, ?_⟩
          · simp [storeMachine, StoreSystem.exec, pc, read]
          · simp only [StoreSystem.setReader, Function.update_self, StoreSystem.retry]
            split <;> simp only [readerRank] <;> omega

/-- In every run of one writer, the flush thread and readers, every read of an
acknowledged entry returns, and what it returns is that entry. -/
theorem reads_own_writes {system : StoreSystem}
    (reached : ReachWithin storeMachine bufferedGuard system)
    (segments : system.store.nextSegmentId < 2 ^ 32)
    (small : blockCapacity system.store.config < 2 ^ 31) :
    ReadsOwnWrites system ∧ ReadersProgress system := by
  refine ⟨?_, readers_progress system⟩
  intro r call reply pc ack member same
  have known := (visible_inv reached segments small).readers r
  rw [pc] at known
  exact known ack member same

/-! ## Two readers of a block that is written out -/

instance (system : StoreSystem) : DecidablePred (bufferedGuard system)
  | .writeBegin t request io => inferInstanceAs (Decidable (t = 0 ∧ io.opened = true ∧
      io.header = .complete ∧ request.data ≠ [] ∧
        entryDiskSize request.data.length ≤ blockCapacity system.store.config))
  | .writeResume t io => inferInstanceAs (Decidable (t = 0 ∧ io.opened = true ∧ io.header = .complete))
  | .writeDirect t io result => inferInstanceAs (Decidable (t = 0 ∧ io.opened = true ∧ result = .complete))
  | .flush (.write result) => inferInstanceAs (Decidable (result = .complete))
  | .readDisk _ readOk => inferInstanceAs (Decidable (readOk = true))
  | .flush .pop | .flush .release => isTrue trivial
  | .readBegin _ _ _ | .readPending _ | .readLookup _ => isTrue trivial

def ReaderPc.reply : ReaderPc → Option ReadReply
  | .returned _ reply => some reply
  | _ => none

def rotatingStore : BlobStore :=
  (openStore { writeBlockSizeMb := 1, writeBlockPoolSize := 2 } (fun _ => File.empty) {}).2

def byteRequest : WriteRequest := { key := probeKey, data := [7], checksum := 0 }

def byteLocation : BlobLocation := { segmentId := 0, offset := 4096, length := 1, diskSize := 4096 }

def byteSystem : StoreSystem := next storeMachine { store := rotatingStore } (.writeBegin 0 byteRequest {})

def byteSegment : SegmentInfo :=
  { id := 0, fd := some (.canonical 0), writeOffset := 8192, entryCount := 1, liveCount := 1 }

def rotatedSystem : StoreSystem :=
  byteSystem.afterSection 0 blockRequest
    (.stored (blockLocation ((byteSystem.store.blocks 0).reset 0 8192 (some (.canonical 0)))
        blockRequest.data.length),
      ((byteSystem.store.turnedTo 1 0 []).resetBlock 0 byteSegment).appended 0 0 blockRequest)

/-- Reader 3 finds the block in the hands of the flush thread, reader 4 its bytes
in the file. -/
def readBackLabels : List StoreLabel :=
  [.readBegin 3 byteLocation 0, .readBegin 4 byteLocation 16, .flush .pop, .readPending 3,
    .flush (.write .complete), .flush .release, .readPending 4, .readLookup 4, .readDisk 4 true]

def readBackSystem : StoreSystem := last storeMachine rotatedSystem readBackLabels

theorem byte_rotates : storeMachine.exec byteSystem (.writeBegin 0 blockRequest {}) =
    some rotatedSystem := by
  have size := block_request_disk_size
  have length := block_request_length
  have isActive : byteSystem.store.activeBlock = some 1 := by decide +kernel
  have block : (byteSystem.store.blocks 1).pos = 4096 ∧
      (byteSystem.store.blocks 1).capacity = 2 ^ 20 := by decide +kernel
  have short : blockRequest.data.length ≤ 2 ^ 32 - 1 - kEntryHeaderSize := by
    rw [length]
    decide
  have free : byteSystem.store.freePool = [0] := by decide +kernel
  have current : byteSystem.store.activeSegment = some 0 := by decide +kernel
  have found : byteSystem.store.segments[0]? = some byteSegment := by decide +kernel
  have room : byteSegment.writeOffset + (byteSystem.store.blocks 0).capacity ≤
      byteSystem.store.config.segmentSize.toNat := by decide +kernel
  have entered : byteSystem.store.writeEnter blockRequest {} = some (_, _) :=
    write_enter_rotates isActive short (by omega) (by omega) free current found (by decide) room
  have idle : byteSystem.writers 0 = .idle := rfl
  simp only [storeMachine, StoreSystem.exec, idle, entered, Option.map_some]
  rfl

theorem reads_own_writes_read_back :
    (readBackSystem.readers 3).reply = some { status := .kBufferTooSmall } ∧
      (readBackSystem.readers 4).reply = some { status := .kOk, bytes := [7] } ∧
        ReadsOwnWrites readBackSystem ∧ ReadersProgress readBackSystem := by
  -- one evaluation of the run for all facts
  have run : passes storeMachine (fun system label => decide (bufferedGuard system label))
      rotatedSystem readBackLabels = true ∧
      (readBackSystem.readers 3).reply = some { status := .kBufferTooSmall } ∧
        (readBackSystem.readers 4).reply = some { status := .kOk, bytes := [7] } ∧
          readBackSystem.store.nextSegmentId < 2 ^ 32 ∧
            blockCapacity readBackSystem.store.config < 2 ^ 31 := by
    decide +kernel
  rcases run with ⟨passing, short, whole, segments, small⟩
  have started : storeMachine.start { store := rotatingStore } :=
    ⟨_, fun _ => File.empty, {}, by decide, rfl⟩
  have wrote : ReachWithin storeMachine bufferedGuard byteSystem :=
    ReachWithin.to_next (.writeBegin 0 byteRequest {}) (.start started) (by decide +kernel)
      (by decide +kernel)
  have nonempty : blockRequest.data ≠ [] := List.ne_nil_of_length_pos (by
    rw [block_request_length]
    decide)
  have rotated : ReachWithin storeMachine bufferedGuard rotatedSystem :=
    .by_label (.writeBegin 0 blockRequest {}) wrote
      ⟨rfl, rfl, rfl, nonempty, by rw [block_request_disk_size]; decide +kernel⟩ byte_rotates
  have reached := rotated.to_last (fun _ => True)
    (fun system label => decide (bufferedGuard system label))
    (fun _ _ _ allowed => of_decide_eq_true allowed) (fun _ _ _ _ _ _ => trivial) trivial
    readBackLabels passing
  exact ⟨short, whole, reads_own_writes reached segments small⟩
end AttentionDB
