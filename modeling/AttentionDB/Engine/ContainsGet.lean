import AttentionDB.Engine.Coherence
import AttentionDB.Storage.BlockOwnership

/-!
# What a get of a contained key returns

The three places of a blob answer a read alike, with one exception. A header
with `blob_size` zero in the file is taken for an entry that is not written
yet, so an empty blob is found in a slot and in a pending block, and is not
found any more once its block is on disk.
-/

namespace AttentionDB

open GuardedRuns ByteMap BlobStore

set_option autoImplicit false

namespace BlobStore

variable {s : BlobStore} {ack : Ack}

/-- An empty entry is not found in the file. -/
theorem OnDisk.read_disk_empty {path : SegmentPath} (disk : OnDisk s ack path)
    {config : NvmeStoreConfig} (shape : AckShape config ack) (empty : ack.data = [])
    (bufLen attempt : Nat) :
    s.readDisk path ack.loc bufLen attempt true =
      if attempt = 0 then none else some { status := .kNotFound } := by
  rcases disk.read_back shape with ⟨length, copied⟩
  have size := copied.size
  rw [empty, List.length_nil] at size
  unfold readDisk
  simp only [length, if_true]
  rw [if_neg (Int.lt_irrefl _)]
  simp only [size, true_or, if_true, true_and, Nat.not_lt_zero, if_false]

theorem read_pending_found (s : BlobStore) (loc : BlobLocation) (bufLen : Nat) :
    (s.readPending loc bufLen).isSome = (s.findInPendingBlocks loc).isSome := by
  unfold readPending
  cases s.findInPendingBlocks loc with
  | none => rfl
  | some b =>
      dsimp only
      split_ifs <;> rfl

end BlobStore

namespace T2

variable {t2 after : T2} {loc : BlobLocation} {bufLen attempt : Nat} {ack : Ack}

/-- The location is in a pending block after some steps of the flush thread. -/
def pendingAfter (t2 : T2) (loc : BlobLocation) (steps : List FlushStep) : Bool :=
  match t2.flushRun steps with
  | none => false
  | some t2 => (t2.store.findInPendingBlocks loc).isSome

/-- What is in no pending block is in none later either. -/
theorem flush_run_pending {steps : List FlushStep} (ran : t2.flushRun steps = some after)
    (missed : t2.store.findInPendingBlocks loc = none) :
    after.store.findInPendingBlocks loc = none := by
  apply flush_run_invariant (fun other => other.store.findInPendingBlocks loc = none) _ ran missed
  intro other step flush store _ moved missed
  have blocks := (flush_step_frame moved).1
  unfold findInPendingBlocks at missed ⊢
  rw [List.find?_eq_none] at missed ⊢
  intro b member
  have before := missed b (flush_step_pending moved b member)
  unfold covers at before ⊢
  rw [blocks]
  exact before

/-- What one attempt answers for a recorded entry: the whole truth, unless the
entry is empty and not pending. -/
theorem read_attempt_answers {asleep : Bool} {io : T2ReadIo} {result : Option ReadReply}
    (inv : Valid asleep t2) (succeeds : io.Succeeds) (readOk : io.readOk = true) (member : ack ∈ t2.acked)
    (ran : t2.readAttempt ack.loc bufLen attempt io = some (result, after)) :
    (t2.pendingAfter ack.loc io.beforePending = true → result = some (replyFor ack.data bufLen)) ∧
    (t2.pendingAfter ack.loc io.beforePending = false →
      after.store.findInPendingBlocks ack.loc = none ∧
      result = if ack.data ≠ [] then some (replyFor ack.data bufLen)
        else if attempt = 0 then none else some { status := .kNotFound }) := by
  unfold pendingAfter
  simp only [readAttempt] at ran
  cases flushed : t2.flushRun io.beforePending with
  | none =>
    rw [flushed] at ran
    contradiction
  | some looking =>
    rw [flushed] at ran
    dsimp only at ran ⊢
    have invLooking := flush_run_inv inv succeeds.beforePending flushed
    have lookingAcked := (flush_run_frame flushed).1
    have memberLooking := member
    rw [← lookingAcked] at memberLooking
    have pending := StoreInv.read_pending invLooking memberLooking bufLen
    have seen := read_pending_found looking.store ack.loc bufLen
    split at ran
    · rename_i answer found
      cases ran
      rw [found] at pending seen
      rcases pending with right | ⟨missed, _⟩
      · refine ⟨fun _ => right, fun none => ?_⟩
        rw [← seen] at none
        cases none
      · cases missed
    · rename_i missed
      rw [missed] at pending seen
      have absent : (looking.store.findInPendingBlocks ack.loc).isSome ≠ true := by
        rw [← seen]
        simp
      refine ⟨fun found => absurd found absent, fun _ => ?_⟩
      have notPending : looking.store.findInPendingBlocks ack.loc = none :=
        Option.isNone_iff_eq_none.1 (by simpa using seen.symm)
      rcases pending with right | ⟨_, path, disk⟩
      · cases right
      · split at ran
        · contradiction
        · rename_i seeking flushedAgain
          have invSeeking := flush_run_inv invLooking succeeds.beforeLookup flushedAgain
          have sought := flush_run_keeps invLooking memberLooking succeeds.beforeLookup flushedAgain disk
          have memberSeeking := memberLooking
          rw [← (flush_run_frame flushedAgain).1] at memberSeeking
          rw [sought.fd] at ran
          dsimp only at ran
          split at ran
          · contradiction
          · rename_i reading flushedLast
            have invReading := flush_run_inv invSeeking succeeds.beforeDisk flushedLast
            have read := flush_run_keeps invSeeking memberSeeking succeeds.beforeDisk flushedLast
              sought
            have memberReading := memberSeeking
            rw [← (flush_run_frame flushedLast).1] at memberReading
            have shape := StoreInv.shapes invReading ack memberReading
            rw [Option.some.injEq, Prod.mk.injEq, readOk] at ran
            rcases ran with ⟨rfl, rfl⟩
            refine ⟨flush_run_pending flushedLast (flush_run_pending flushedAgain notPending), ?_⟩
            by_cases empty : ack.data = []
            · rw [read.read_disk_empty shape empty, if_neg (not_not.2 empty)]
            · rw [read.read_disk shape empty, if_pos empty]

/-- What a read answers for a recorded entry. -/
theorem read_answers {asleep : Bool} {first second : T2ReadIo} {reply : ReadReply}
    (inv : Valid asleep t2) (succeedsFirst : first.Succeeds) (succeedsSecond : second.Succeeds)
    (readFirst : first.readOk = true) (readSecond : second.readOk = true) (member : ack ∈ t2.acked)
    (ran : t2.read ack.loc bufLen first second = some (reply, after)) :
    reply = if ack.data ≠ [] ∨ t2.pendingAfter ack.loc first.beforePending = true then
      replyFor ack.data bufLen else { status := .kNotFound } := by
  simp only [read] at ran
  split at ran
  · contradiction
  · rename_i tried
    cases ran
    rcases read_attempt_answers inv succeedsFirst readFirst member tried with ⟨pending, onDisk⟩
    cases found : t2.pendingAfter ack.loc first.beforePending with
    | true =>
        rw [if_pos (.inr rfl)]
        exact Option.some.inj (pending found)
    | false =>
        have answer := (onDisk found).2
        by_cases empty : ack.data = []
        · rw [if_neg (not_not.2 empty), if_pos rfl] at answer
          cases answer
        · rw [if_pos empty] at answer
          rw [if_pos (.inl empty)]
          exact Option.some.inj answer
  · rename_i middle tried
    rcases read_attempt_answers inv succeedsFirst readFirst member tried with ⟨pending, onDisk⟩
    have notPending : t2.pendingAfter ack.loc first.beforePending = false := by
      cases found : t2.pendingAfter ack.loc first.beforePending with
      | true => cases pending found
      | false => rfl
    have empty : ack.data = [] := by
      by_contra nonempty
      have answer := (onDisk notPending).2
      rw [if_pos nonempty] at answer
      cases answer
    have neither : ¬ (ack.data ≠ [] ∨ t2.pendingAfter ack.loc first.beforePending = true) := by
      simp [empty, notPending]
    rw [if_neg neither]
    have between := (read_attempt_sound inv succeedsFirst tried).1
    have memberMiddle := member
    rw [← (read_attempt_later tried).2] at memberMiddle
    have again : middle.pendingAfter ack.loc second.beforePending = false := by
      unfold pendingAfter
      split
      · rfl
      · rename_i looking flushed
        rw [flush_run_pending flushed (onDisk notPending).1]
        rfl
    split at ran
    · contradiction
    · rename_i triedAgain
      cases ran
      have answer := ((read_attempt_answers between succeedsSecond readSecond memberMiddle
        triedAgain).2 again).2
      rw [if_neg (not_not.2 empty), if_neg Nat.one_ne_zero] at answer
      exact Option.some.inj answer
    · cases ran
      rfl

end T2

/-! ## A get of a contained key -/

def Announced (entry : IndexEntry) (bufLen : Nat) (reply : ReadReply) : Prop :=
  if entry.length.toNat ≤ bufLen then
    reply.status = .kOk ∧ reply.bytes.length = entry.length.toNat
  else reply.status = .kBufferTooSmall

def Engine.pendingEntry (e : Engine) (entry : IndexEntry) (io : GetIo) : Bool :=
  match e.t2Store with
  | none => false
  | some t2 => t2.pendingAfter (Engine.entryLocation entry) io.first.beforePending

theorem announced_reply {entry : IndexEntry} {data : List UInt8} (bufLen : Nat)
    (length : entry.length.toNat = data.length) : Announced entry bufLen (replyFor data bufLen) := by
  unfold Announced replyFor
  rw [length]
  split_ifs with fits short short
  · omega
  · exact ⟨rfl, rfl⟩
  · rfl
  · omega

/-- The answer to a get of an indexed key, by where its blob is. -/
theorem Engine.get_announced {e after : Engine} {view : StorageKey → Option PutRecord}
    (inv : CoherentInv e view) {key : StorageKey} {entry : IndexEntry}
    (found : e.index.find key = some entry) {bufLen : Nat} {io : GetIo}
    (succeeds : io.first.Succeeds ∧ io.second.Succeeds)
    (readOk : io.first.readOk = true ∧ io.second.readOk = true) {reply : ReadReply}
    (got : e.get key bufLen io = some (reply, after)) :
    Announced entry bufLen reply ↔
      entry.tier = kT1Dram ∨ entry.length ≠ 0 ∨ e.pendingEntry entry io = true := by
  rcases inv.held key entry found with ⟨record, _, holds⟩
  cases holds with
  | inSlot inT1 length bytes =>
      unfold get at got
      rw [found] at got
      dsimp only at got
      rcases inv.t1.valid key entry found inT1 with ⟨a, isAllocator, _⟩
      have here : entry.tier = kT1Dram ∧ e.t1Allocator.isSome = true := ⟨inT1, by rw [isAllocator]; rfl⟩
      rw [if_pos here] at got
      refine iff_of_true ?_ (.inl inT1)
      unfold Announced
      split_ifs at got with short
      · cases got
        rw [if_neg (Nat.not_le.2 short)]
      · cases got
        rw [if_pos (Nat.le_of_not_lt short)]
        exact ⟨rfl, slice_length _ _ _⟩
  | inStore inT2 length t2 isStore ack member location data =>
      rcases get_t2 found inT2 isStore got with ⟨t2After, ran⟩
      rw [← location] at ran
      have answered := T2.read_answers (inv.t2 t2 isStore) succeeds.1 succeeds.2 readOk.1
        readOk.2 member ran
      have pending : e.pendingEntry entry io = t2.pendingAfter ack.loc io.first.beforePending := by
        rw [pendingEntry, isStore, location]
      have lengthIs : entry.length.toNat = ack.data.length := by rw [length, data]
      have nonempty : entry.length ≠ 0 ↔ ack.data ≠ [] := by
        rw [← List.length_pos_iff, ← lengthIs, Nat.pos_iff_ne_zero, Ne, Ne, ← UInt32.toNat_inj]
        rfl
      have notSlot : entry.tier ≠ kT1Dram := by
        rw [inT2]
        decide
      rw [pending, nonempty]
      split_ifs at answered with here
      · rw [answered]
        exact iff_of_true (announced_reply bufLen lengthIs) (.inr here)
      · rw [answered]
        refine iff_of_false ?_ (by simpa [notSlot] using here)
        have empty : ack.data = [] := by
          by_contra other
          exact here (.inl other)
        rw [empty, List.length_nil] at lengthIs
        simp [Announced, lengthIs]

/-- In every sequential run from an empty engine, with the flush thread at any
point and all I/O succeeding, a get of a contained key returns what its entry
announces, except for an empty blob whose block is on disk. -/
theorem contained_get_announced {session : Session}
    (reached : ReachWithin (sessionMachine emptyCheckpoint) ioSucceedsGuard session)
    (buffered : session.engine.AllBuffered) (key : StorageKey) (entry : IndexEntry)
    (found : session.engine.index.find key = some entry) (bufLen : Nat) (io : GetIo)
    (succeeds : io.first.Succeeds ∧ io.second.Succeeds)
    (readOk : io.first.readOk = true ∧ io.second.readOk = true) (reply : ReadReply) (after : Engine)
    (got : session.engine.get key bufLen io = some (reply, after)) :
    Announced entry bufLen reply ↔
      entry.tier = kT1Dram ∨ entry.length ≠ 0 ∨ session.engine.pendingEntry entry io = true :=
  Engine.get_announced (reach_coherent reached buffered).1 found succeeds readOk got

/-- Without steps of the flush thread inside it, a read returns. -/
theorem T2.read_returns (t2 : T2) (loc : BlobLocation) (bufLen : Nat) :
    ∃ reply after, t2.read loc bufLen {} {} = some (reply, after) := by
  have attempted : ∀ attempt, ∃ result, t2.readAttempt loc bufLen attempt {} = some (result, t2) := by
    intro attempt
    unfold readAttempt
    simp only [flushRun]
    cases t2.store.readPending loc bufLen with
    | some reply => exact ⟨_, rfl⟩
    | none =>
        dsimp only
        cases t2.store.segmentFd loc.segmentId with
        | none => exact ⟨_, rfl⟩
        | some path => exact ⟨_, rfl⟩
  rcases attempted 0 with ⟨first, triedFirst⟩
  rcases attempted 1 with ⟨second, triedSecond⟩
  unfold read
  rw [triedFirst]
  cases first with
  | some reply => exact ⟨_, _, rfl⟩
  | none =>
      dsimp only
      rw [triedSecond]
      cases second with
      | some reply => exact ⟨_, _, rfl⟩
      | none => exact ⟨_, _, rfl⟩

theorem Engine.get_returns (e : Engine) (key : StorageKey) (bufLen : Nat) :
    ∃ reply after, e.get key bufLen {} = some (reply, after) := by
  unfold get
  cases e.index.find key with
  | none => exact ⟨_, _, rfl⟩
  | some entry =>
      dsimp only
      split_ifs
      · exact ⟨_, _, rfl⟩
      · exact ⟨_, _, rfl⟩
      · cases e.t2Store with
        | none => exact ⟨_, _, rfl⟩
        | some t2 =>
            rcases t2.read_returns (entryLocation entry) bufLen with ⟨reply, after, ran⟩
            dsimp only
            rw [ran]
            exact ⟨_, _, rfl⟩
      · cases e.t2Store with
        | none => exact ⟨_, _, rfl⟩
        | some t2 => exact ⟨_, _, rfl⟩

def demotedOnce : Session := next (sessionMachine emptyCheckpoint) tieredStart tieredPut

/-- A byte was put, demoted and is read back as announced. -/
theorem contained_get_announced_demoted :
    ∃ entry reply after, demotedOnce.engine.index.find probeKey = some entry ∧
      demotedOnce.engine.get probeKey 16 {} = some (reply, after) ∧ Announced entry 16 reply := by
  have reached : ReachWithin (sessionMachine emptyCheckpoint) ioSucceedsGuard demotedOnce :=
    ReachWithin.to_next tieredPut (.start tiered_started) Engine.quiet_put_succeeds (by decide)
  have buffered : demotedOnce.engine.AllBuffered := by
    have counted : demotedOnce.engine.t2Store.map (fun t2 =>
        (t2.store.nextSegmentId, t2.handed, blockCapacity t2.store.config)) =
          some (1, [1], 1048576) := by decide
    intro t2 isStore
    rw [isStore] at counted
    simp only [Option.map_some, Option.some.injEq, Prod.mk.injEq] at counted
    rcases counted with ⟨segments, handed, capacity⟩
    refine { segments := by omega, small := by omega, fits := ?_ }
    rw [handed, capacity]
    decide
  have found : demotedOnce.engine.index.find probeKey =
      some ((demotedOnce.engine.index.find probeKey).getD IndexEntry.zero) := by decide
  have nonempty : ((demotedOnce.engine.index.find probeKey).getD IndexEntry.zero).length ≠ 0 := by
    decide
  rcases Engine.get_returns demotedOnce.engine probeKey 16 with ⟨reply, after, got⟩
  refine ⟨_, reply, after, found, got, ?_⟩
  exact (contained_get_announced reached buffered probeKey _ found 16 {}
    ⟨quiet_read_succeeds, quiet_read_succeeds⟩ ⟨rfl, rfl⟩ reply after got).2 (.inr (.inl nonempty))

/-! ## An empty blob on disk -/

/-- A put without T1 ends in the blob store, and evicts nothing. -/
theorem Engine.put_t2 {e : Engine} {blob : List UInt8} {opts : PutOpts} {t2 t2After : T2}
    {loc : BlobLocation} (key : StorageKey) (io : PutIo) (noT1 : e.t1Allocator = none)
    (accepted : e.Accepted blob opts) (isStore : e.t2Store = some t2)
    (ran : t2.write { key, data := blob, checksum := computeCrc32 blob } io.t2 =
      some ((.kOk, loc), t2After)) :
    e.put key blob opts io = some (.kOk,
      { e with
        admission := e.admission.recordEvaluation .kAdmit
        t2Store := some t2After
        t2Eviction := e.t2Eviction.onInsert key opts.recomputeCost key.chunkIndex io.now
        index := e.index.upsert key (t2Entry blob opts io loc) }) := by
  rcases accepted with ⟨admitted, short⟩
  have fits : ¬ 2 ^ 32 - 1 < blob.length := by omega
  unfold put
  simp only [admitted, ne_eq, not_true_eq_false, if_false, fits, allocateT1, noT1, Option.bind_none,
    storeT2, isStore, ran, if_true, publish, evictIfNeeded, evictLoop, overWatermark]
  rfl

/-- A write whose first section stores the entry. -/
theorem T2.write_stored {t2 : T2} {request : WriteRequest} {loc : BlobLocation} {store : BlobStore}
    (entered : t2.store.writeEnter request {} = some (.stored loc, store)) :
    t2.write request {} = some ((.kOk, loc),
      { t2 with
        handed := request.data.length :: t2.handed
        store
        acked := { loc, data := request.data, block := store.activeBlock } :: t2.acked }) := by
  simp only [write, flushRun, entered, stored]

theorem T2.flush_popped (t2 : T2) {b : Nat} {rest : List Nat} (idle : t2.flush = .idle)
    (queue : t2.store.flushQueue = b :: rest) (used : (t2.store.blocks b).pos ≠ 0) :
    t2.flushRun [.pop] = some
      { t2 with
        flush := .writing b
        store := { t2.store with flushQueue := rest, flushingBlock := some b } } := by
  simp only [flushRun, flushStep, idle, flushPop, queue, used, if_false]

def flashConfig : Config where
  dramCache := { enabled := false }
  nvmeStore := { writeBlockSizeMb := 1, writeBlockPoolSize := 2 }

def flashStart : Session :=
  { engine := (Engine.openEngine flashConfig {}).getD tieredEngine }

theorem flash_started : (sessionMachine emptyCheckpoint).start flashStart := by
  refine ⟨flashConfig, {}, rfl, rfl, ?_, rfl⟩
  rintro a ⟨⟩

def alwaysAdmitted : PutOpts := { entryType := .kSystemPrompt }

def emptyBlobSession : Session :=
  next (sessionMachine emptyCheckpoint) flashStart (.put probeKey [] alwaysAdmitted {})

def fillerKey : StorageKey := { probeKey with chunkIndex := 1 }

/-- A session after the empty blob: one block is as it was, the other one holds
one entry. -/
structure EmptyBlobStored (nvme : NvmeStoreConfig) (t2 : T2) : Prop where
  flush : t2.flush = .idle
  activeBlock : t2.store.activeBlock = some 1
  freePool : t2.store.freePool = [0]
  flushQueue : t2.store.flushQueue = []
  activeSegment : t2.store.activeSegment = some 0
  segment : t2.store.segments[0]? = some
    { id := 0, fd := some (.canonical 0), writeOffset := 8192, entryCount := 1, liveCount := 1 }
  holds : (t2.store.blocks 1).pos = 4096 ∧ (t2.store.blocks 1).segmentId = 0 ∧
    (t2.store.blocks 1).segmentOffset = 4096
  capacity : (t2.store.blocks 1).capacity = 2 ^ 20
  nextCapacity : (t2.store.blocks 0).capacity = 2 ^ 20
  config : t2.store.config = nvme
  nextSegmentId : t2.store.nextSegmentId = 1
  handed : t2.handed = [0]

theorem empty_blob_stored :
    ∃ t2, emptyBlobSession.engine.t2Store = some t2 ∧ EmptyBlobStored flashConfig.nvmeStore t2 := by
  refine ⟨emptyBlobSession.engine.t2Store.getD { store := singleBlockStore }, rfl, ?_⟩
  exact {
    flush := by decide +kernel
    activeBlock := by decide +kernel
    freePool := by decide +kernel
    flushQueue := by decide +kernel
    activeSegment := by decide +kernel
    segment := by decide +kernel
    holds := by decide +kernel
    capacity := by decide +kernel
    nextCapacity := by decide +kernel
    config := by decide +kernel
    nextSegmentId := by decide +kernel
    handed := by decide +kernel }

def fillerRequest : WriteRequest :=
  { key := fillerKey, data := blockRequest.data, checksum := computeCrc32 blockRequest.data }

def fillerSegment : SegmentInfo :=
  { id := 0, fd := some (.canonical 0), writeOffset := 8192, entryCount := 1, liveCount := 1 }

def fillerStore (t2 : T2) : BlobStore :=
  ((t2.store.turnedTo 1 0 []).resetBlock 0 fillerSegment).appended 0 0 fillerRequest

theorem EmptyBlobStored.filler_written {nvme : NvmeStoreConfig} {t2 : T2}
    (facts : EmptyBlobStored nvme t2) (roomy : 8192 + 2 ^ 20 ≤ nvme.segmentSize.toNat) :
    ∃ loc block, t2.write fillerRequest {} = some ((.kOk, loc),
      { t2 with
        handed := [2 ^ 20 - 64, 0]
        store := fillerStore t2
        acked := { loc, data := fillerRequest.data, block } :: t2.acked }) := by
  have size : entryDiskSize fillerRequest.data.length = 2 ^ 20 := block_request_disk_size
  have length : fillerRequest.data.length = 2 ^ 20 - 64 := block_request_length
  have capacity := facts.capacity
  have nextCapacity := facts.nextCapacity
  have pos := facts.holds.1
  have entered : t2.store.writeEnter fillerRequest {} = some (.stored _, fillerStore t2) :=
    write_enter_rotates facts.activeBlock (by rw [length]; decide) (by omega) (by omega)
      facts.freePool facts.activeSegment facts.segment (by decide)
      (by rw [nextCapacity, facts.config]; exact roomy)
  have written := T2.write_stored entered
  rw [length, facts.handed] at written
  exact ⟨_, _, written⟩

theorem EmptyBlobStored.filler_blocks {nvme : NvmeStoreConfig} {t2 : T2}
    (facts : EmptyBlobStored nvme t2) :
    (fillerStore t2).blocks 1 = t2.store.blocks 1 ∧ ((fillerStore t2).blocks 0).segmentOffset = 8192 ∧
      (fillerStore t2).flushQueue = [1] ∧ (fillerStore t2).activeBlock = some 0 := by
  refine ⟨?_, ?_, ?_, rfl⟩
  · rw [fillerStore, appended_other _ _ _ _ (by decide), reset_block_other _ _ _ (by decide)]
    rfl
  · rw [fillerStore, appended_block, reset_block_block]
    rfl
  · rw [fillerStore, appended_flush_queue, reset_block_flush_queue, turnedTo, facts.flushQueue]
    rfl

/-- The entry of the empty blob. -/
theorem empty_blob_entry : ∃ entry, emptyBlobSession.engine.index.find probeKey = some entry ∧
    entry.tier = kT2Nvme ∧ entry.length = 0 ∧ entry.address = 4096 := by
  refine ⟨(emptyBlobSession.engine.index.find probeKey).getD IndexEntry.zero, ?_, ?_, ?_, ?_⟩
  · decide +kernel
  · decide +kernel
  · decide +kernel
  · decide +kernel

structure EmptyBlobOnDisk (nvme : NvmeStoreConfig) (t2 : T2) : Prop where
  config : t2.store.config = nvme
  nextSegmentId : t2.store.nextSegmentId = 1
  handed : t2.handed = [2 ^ 20 - 64, 0]
  pending : t2.store.pendingBlocks = [0]
  offset : (t2.store.blocks 0).segmentOffset = 8192
  activeBlock : t2.store.activeBlock = some 0
  freePool : t2.store.freePool = [1]
  full : (t2.store.blocks 0).pos = 2 ^ 20 ∧ (t2.store.blocks 0).capacity = 2 ^ 20
  current : ∃ seg, t2.store.currentSegment = some seg ∧ seg.writeOffset = 8192 + 2 ^ 20
  spare : (t2.store.blocks 1).pos = 4096 ∧ (t2.store.blocks 1).segmentId = 0 ∧
    (t2.store.blocks 1).segmentOffset = 4096 ∧ (t2.store.blocks 1).capacity = 2 ^ 20

structure EmptyBlobFlushed (nvme : NvmeStoreConfig) (stored session : Session) : Prop where
  reached : ReachWithin (sessionMachine emptyCheckpoint) ioSucceedsGuard session
  t2Store : ∃ t2, session.engine.t2Store = some t2 ∧ EmptyBlobOnDisk nvme t2
  kept : session.engine.index.find probeKey = stored.engine.index.find probeKey
  filler : ∃ entry, session.engine.index.find fillerKey = some entry ∧ entry.length ≠ 0
  noT1 : session.engine.t1Allocator = none

/-- The filler goes to the other block, and the first one is flushed. -/
theorem empty_blob_flushed {nvme : NvmeStoreConfig} {stored : Session} {t2 : T2}
    (first : ReachWithin (sessionMachine emptyCheckpoint) ioSucceedsGuard stored)
    (noT1 : stored.engine.t1Allocator = none) (isStore : stored.engine.t2Store = some t2)
    (facts : EmptyBlobStored nvme t2) (roomy : 8192 + 2 ^ 20 ≤ nvme.segmentSize.toNat) :
    ∃ session, EmptyBlobFlushed nvme stored session := by
  rcases facts.filler_written roomy with ⟨loc, block, written⟩
  rcases facts.filler_blocks with ⟨spare, offset, queue, isActive⟩
  have size : entryDiskSize fillerRequest.data.length = 2 ^ 20 := block_request_disk_size
  have accepted : stored.engine.Accepted fillerRequest.data alwaysAdmitted := by
    refine ⟨rfl, ?_⟩
    rw [show fillerRequest.data.length = 2 ^ 20 - 64 from block_request_length]
    decide
  have put := Engine.put_t2 fillerKey {} noT1 accepted isStore written
  have second := first.by_label (SessionLabel.put fillerKey fillerRequest.data alwaysAdmitted {})
    Engine.quiet_put_succeeds (by simp only [sessionMachine, Session.exec, put, Option.map_some]; rfl)
  -- the first block is flushed
  have popped := T2.flush_popped
    { t2 with
      handed := [2 ^ 20 - 64, 0]
      store := fillerStore t2
      acked := { loc, data := fillerRequest.data, block } :: t2.acked }
    facts.flush queue (by rw [spare, facts.holds.1]; decide)
  have third := second.by_label (SessionLabel.flush .pop)
    (by intro result member; simp at member)
    (by simp only [sessionMachine, Session.exec, popped, Option.map_some]; rfl)
  have fourth := third.by_label (SessionLabel.flush (.write .complete))
    (by intro result member; simpa using member)
    (by simp only [sessionMachine, Session.exec, T2.flushRun, flushStep, Option.map_some]; rfl)
  have fifth := fourth.by_label (SessionLabel.flush .release)
    (by intro result member; simp at member)
    (by simp only [sessionMachine, Session.exec, T2.flushRun, flushStep, Option.map_some]; rfl)
  refine ⟨_, { reached := fifth, t2Store := ⟨_, rfl, ?_⟩, kept := ?_, filler := ?_, noT1 := noT1 }⟩
  · have other : (fillerStore t2).activeBlock = some 0 := isActive
    have advanced : (fillerStore t2).currentSegment = some (fillerSegment.advance (2 ^ 20)) := by
      have position : (fillerStore t2).activeSegment = some 0 := facts.activeSegment
      have lookup : (fillerStore t2).segments[0]? = some (fillerSegment.advance (2 ^ 20)) := by
        rw [← size]
        exact advanced_lookup.2 ⟨fillerSegment, facts.segment, rfl⟩
      rw [currentSegment, position]
      exact lookup
    have filled : (fillerStore t2).blocks 0 = appendToBlock ((t2.store.turnedTo 1 0 []).resetBlock 0
        fillerSegment) ((t2.store.blocks 0).reset 0 8192 fillerSegment.fd) fillerRequest := by
      rw [fillerStore, appended_block, reset_block_block]
      rfl
    exact
      { config := facts.config
        nextSegmentId := facts.nextSegmentId
        handed := rfl
        pending := by
          simp only [flushRelease, flushWrite, pendingBlocks, other, Option.toList_some,
            Option.toList_none, List.append_nil]
        offset := offset
        activeBlock := other
        freePool := rfl
        full := by
          change ((fillerStore t2).blocks 0).pos = 2 ^ 20 ∧ ((fillerStore t2).blocks 0).capacity = 2 ^ 20
          rw [filled]
          simp only [appendToBlock, WriteBlock.reset, size, Nat.zero_add, facts.nextCapacity, and_self]
        current := ⟨_, advanced, rfl⟩
        spare := by
          change ((fillerStore t2).blocks 1).pos = 4096 ∧ ((fillerStore t2).blocks 1).segmentId = 0 ∧
            ((fillerStore t2).blocks 1).segmentOffset = 4096 ∧
            ((fillerStore t2).blocks 1).capacity = 2 ^ 20
          rw [spare]
          exact ⟨facts.holds.1, facts.holds.2.1, facts.holds.2.2, facts.capacity⟩ }
  · dsimp only
    rw [ConcurrentHashMap.find_upsert, if_neg (by decide)]
  · dsimp only
    refine ⟨_, by rw [ConcurrentHashMap.find_upsert, if_pos rfl], ?_⟩
    have length : (Engine.t2Entry fillerRequest.data alwaysAdmitted {} loc).length.toNat =
        fillerRequest.data.length := Engine.blob_length_to_nat accepted.2
    rw [show fillerRequest.data.length = 2 ^ 20 - 64 from block_request_length] at length
    intro empty
    rw [empty] at length
    exact absurd length (by decide)

theorem EmptyBlobFlushed.buffered {nvme : NvmeStoreConfig} {stored session : Session}
    (flushed : EmptyBlobFlushed nvme stored session) (mib : blockCapacity nvme = 2 ^ 20) :
    session.engine.AllBuffered := by
  rcases flushed.t2Store with ⟨t2, isStore, facts⟩
  intro other isOther
  rw [isStore] at isOther
  cases isOther
  have segments := facts.nextSegmentId
  refine { segments := by omega, small := by rw [facts.config, mib]; decide, fits := ?_ }
  rw [facts.handed, facts.config, mib]
  decide

/-- The flushed block is not looked at. -/
theorem EmptyBlobOnDisk.not_pending {nvme : NvmeStoreConfig} {t2 : T2} (facts : EmptyBlobOnDisk nvme t2)
    {entry : IndexEntry} (address : entry.address = 4096) :
    t2.store.findInPendingBlocks (Engine.entryLocation entry) = none := by
  unfold findInPendingBlocks
  rw [facts.pending, List.find?_eq_none]
  intro b member
  rw [List.mem_singleton] at member
  rw [member, covers, facts.offset, Engine.entryLocation, address]
  simp

/-- A get of the empty blob does not return what its entry announces. -/
theorem EmptyBlobFlushed.get_lost {nvme : NvmeStoreConfig} {stored session : Session}
    (flushed : EmptyBlobFlushed nvme stored session) (mib : blockCapacity nvme = 2 ^ 20)
    {entry : IndexEntry} (found : stored.engine.index.find probeKey = some entry)
    (inT2 : entry.tier = kT2Nvme) (empty : entry.length = 0) (address : entry.address = 4096)
    {reply : ReadReply} {after : Engine}
    (got : session.engine.get probeKey 0 {} = some (reply, after)) : ¬ Announced entry 0 reply := by
  rcases flushed.t2Store with ⟨t2, isStore, facts⟩
  have contained : session.engine.index.find probeKey = some entry := by rw [flushed.kept, found]
  have answer := Engine.get_announced (reach_coherent flushed.reached (flushed.buffered mib)).1 contained
    ⟨quiet_read_succeeds, quiet_read_succeeds⟩ ⟨rfl, rfl⟩ got
  rw [answer, inT2, empty]
  have notPending : session.engine.pendingEntry entry {} = false := by
    simp only [Engine.pendingEntry, isStore, T2.pendingAfter, T2.flushRun, facts.not_pending address,
      Option.isSome_none]
  rw [notPending]
  decide

/-- Once its block is on disk, the empty blob is contained and not found. -/
theorem empty_blob_lost :
    ∃ session entry reply after,
      ReachWithin (sessionMachine emptyCheckpoint) ioSucceedsGuard session ∧
      session.engine.AllBuffered ∧ session.engine.index.find probeKey = some entry ∧
      entry.length = 0 ∧ session.engine.get probeKey 0 {} = some (reply, after) ∧
      ¬ Announced entry 0 reply := by
  rcases empty_blob_stored with ⟨t2, isStore, facts⟩
  have first : ReachWithin (sessionMachine emptyCheckpoint) ioSucceedsGuard emptyBlobSession :=
    ReachWithin.to_next _ (.start flash_started) Engine.quiet_put_succeeds (by decide +kernel)
  have noT1 : emptyBlobSession.engine.t1Allocator = none :=
    Option.isNone_iff_eq_none.1 (by decide +kernel)
  rcases empty_blob_flushed first noT1 isStore facts (by decide) with ⟨session, flushed⟩
  rcases empty_blob_entry with ⟨entry, found, inT2, empty, address⟩
  have contained : session.engine.index.find probeKey = some entry := by rw [flushed.kept, found]
  have mib : blockCapacity flashConfig.nvmeStore = 2 ^ 20 := by decide
  rcases Engine.get_returns session.engine probeKey 0 with ⟨reply, after, got⟩
  exact ⟨session, entry, reply, after, flushed.reached, flushed.buffered mib, contained, empty, got,
    flushed.get_lost mib found inT2 empty address got⟩

end AttentionDB
