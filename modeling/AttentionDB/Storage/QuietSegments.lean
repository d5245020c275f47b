import AttentionDB.Storage.SpareBlocks

/-!
# Segments that nothing is written to

The flush thread writes to the segments of the pending blocks, and a write that
fails to the active segment or to a new one. A segment that no block and no
cursor is in stays as it is, whatever it holds, and so does what a read finds
there.
-/

namespace AttentionDB

open ByteMap BlobStore

set_option autoImplicit false

namespace BlobStore

structure Undisturbed (s after : BlobStore) (segmentId : Nat) : Prop where
  fd : after.segmentFd segmentId = s.segmentFd segmentId
  file : ∀ path, s.segmentFd segmentId = some path → after.files path = s.files path

theorem Undisturbed.refl (s : BlobStore) (segmentId : Nat) : Undisturbed s s segmentId where
  fd := rfl
  file _ _ := rfl

theorem Undisturbed.trans {s middle after : BlobStore} {segmentId : Nat}
    (first : Undisturbed s middle segmentId) (second : Undisturbed middle after segmentId) :
    Undisturbed s after segmentId where
  fd := second.fd.trans first.fd
  file path found := (second.file path (first.fd.trans found)).trans (first.file path found)

def Untouched (s : BlobStore) (segmentId : Nat) : Prop :=
  ∀ b, (s.blocks b).pos ≠ 0 → (s.blocks b).segmentId ≠ segmentId

/-- The block that the flush thread is about to write holds an entry. -/
def Used (s : BlobStore) (flush : FlushPc) : Prop :=
  ∀ b, flush = .writing b → (s.blocks b).pos ≠ 0

theorem sync_write_other (files : Files) {fd : Option SegmentPath} (bytes : List UInt8) (offset : Nat)
    (result : IoResult) {path : SegmentPath} (other : fd ≠ some path) :
    (syncWrite files fd bytes offset result).2 path = files path := by
  cases fd with
  | none => cases result <;> rfl
  | some file =>
      have different : path ≠ file := by
        intro same
        exact other (congrArg some same.symm)
      cases result <;> simp only [syncWrite, Function.update_of_ne different]

section Steps

variable {s after : BlobStore} {flush pc : FlushPc} {asleep : Bool} {acked : List Ack}
  {step : FlushStep} {segmentId : Nat} {io : SegmentIo} {request : WriteRequest}

/-! ## The flush thread -/

theorem flush_step_used (used : Used s flush) (ran : s.flushStep flush step = some (pc, after)) :
    Used after pc := by
  have blocks := (flush_step_frame ran).1
  intro c isWriting
  rw [blocks]
  unfold flushStep flushPop at ran
  split at ran
  · split at ran
    · contradiction
    · split at ran
      · cases ran
        cases isWriting
      · rename_i held
        cases ran
        cases isWriting
        exact held
  · cases ran
    cases isWriting
  · cases ran
    cases isWriting
  · contradiction

/-- The file of another segment is another file. -/
theorem StoreInv.other_file (inv : StoreInv s flush asleep acked) {id : Nat} {path file : SegmentPath}
    (other : id ≠ segmentId) (found : s.segmentFd segmentId = some path)
    (foundOther : s.segmentFd id = some file) : file ≠ path := by
  intro same
  apply other
  rw [← inv.path_id foundOther, same]
  exact inv.path_id found

theorem StoreInv.flush_undisturbed (inv : StoreInv s flush asleep acked) (used : Used s flush)
    (untouched : Untouched s segmentId) (ran : s.flushStep flush step = some (pc, after)) :
    Undisturbed s after segmentId := by
  have segments := (flush_step_frame ran).2.2.1
  refine { fd := by rw [segmentFd, segmentFd, segments], file := ?_ }
  intro path found
  unfold flushStep at ran
  split at ran
  · unfold flushPop at ran
    split at ran
    · contradiction
    · split at ran <;> cases ran <;> rfl
  · rename_i b result
    cases ran
    have isPending : b ∈ s.pendingBlocks := by
      have flushing := inv.flushing
      simp [pendingBlocks, flushing, FlushPc.block]
    rcases (inv.blocks b isPending).fd with ⟨file, fd, foundFile⟩
    have otherSegment := untouched b (used b rfl)
    have otherFile := inv.other_file otherSegment found foundFile
    apply sync_write_other
    rw [fd]
    intro same
    exact otherFile (Option.some.inj same)
  · cases ran
    rfl
  · contradiction

/-! ## A write -/

/-- A block that holds an entry goes on to hold one. -/
theorem appended_used (s : BlobStore) (b i c : Nat) (short : request.data.length < 2 ^ 32)
    (held : (s.blocks c).pos ≠ 0 ∨ c = b) : ((s.appended b i request).blocks c).pos ≠ 0 := by
  by_cases same : c = b
  · subst same
    have fits := entry_fits request.data.length short
    unfold kEntryHeaderSize at fits
    rw [appended_block, appendToBlock]
    dsimp only
    omega
  · rw [appended_other _ _ _ _ same]
    exact held.resolve_right same

theorem no_segment_used (used : Used s flush) (b : Nat) (rest : List Nat) :
    Used (s.withNextBlock b rest io) flush := by
  intro c isWriting
  rw [next_block_blocks]
  exact used c isWriting

theorem acquire_used {outcome : WriteOutcome} (used : Used s flush)
    (short : request.data.length < 2 ^ 32)
    (cases : AcquireCases s request io outcome after) : Used after flush := by
  cases cases with
  | sleeps | stopped => exact used
  | noSegment b rest free missing => exact no_segment_used used b rest
  | appends b rest seg i free activeIs found usable =>
      intro c isWriting
      have held := used c isWriting
      apply appended_used _ _ _ _ short
      by_cases same : c = b
      · exact .inr same
      · left
        rw [reset_block_other _ _ _ same, next_block_blocks]
        exact held

theorem enter_used {outcome : WriteOutcome} (used : Used s flush)
    (cases : EnterCases s request io outcome after) : Used after flush := by
  cases cases with
  | refused | goesDirect => exact used
  | rotates b isActive fits full short rest =>
      have queuedUsed : Used (s.queued b) flush := used
      exact acquire_used queuedUsed (by unfold kEntryHeaderSize at short; omega) rest
  | appends b i isActive room short current =>
      intro c isWriting
      exact appended_used s b i c (by unfold kEntryHeaderSize at short; omega) (.inl (used c isWriting))

/-! ## A write that failed -/

def OffCourse (s : BlobStore) (segmentId : Nat) : Prop :=
  (∀ seg, s.currentSegment = some seg → seg.id ≠ segmentId) ∧ segmentId ≠ s.nextSegmentId

theorem StoreInv.no_segment_undisturbed (inv : StoreInv s flush asleep acked) {b : Nat} {rest : List Nat}
    (missing : ∀ seg, (s.withNextBlock b rest io).currentSegment = some seg → seg.fd = none)
    (segmentId : Nat) : Undisturbed s (s.withNextBlock b rest io) segmentId := by
  rw [inv.segment_refused missing]
  exact { fd := rfl, file := fun _ _ => rfl }

theorem StoreInv.create_undisturbed (inv : StoreInv s flush asleep acked) (opened : io.opened = true)
    (room : s.nextSegmentId + 1 < 2 ^ 32) (other : segmentId ≠ s.nextSegmentId) :
    Undisturbed s (s.createNewSegment io) segmentId := by
  have reduced : s.freshSegment.id = s.nextSegmentId := Nat.mod_eq_of_lt (by omega)
  have lookup := created_segment_fd opened (inv.unused room) segmentId
  rw [if_neg (by rw [reduced]; exact other)] at lookup
  refine { fd := lookup, file := ?_ }
  intro path found
  exact created_files opened path (inv.known_is_old room found).2

theorem StoreInv.direct_undisturbed (inv : StoreInv s flush asleep acked) {result : IoResult}
    {status : Status} (ran : s.writeDirect request io result = some (.failed status, after))
    (bound : after.nextSegmentId < 2 ^ 32) (off : s.OffCourse segmentId) :
    Undisturbed s after segmentId := by
  obtain ⟨i, seg, bytes, activeIs, found, rfl⟩ := write_direct_failed ran
  rcases segment_for_entry_cases s io (entryDiskSize request.data.length) with created | ⟨stays, _⟩
  · rw [created] at activeIs found bound ⊢
    have room : s.nextSegmentId + 1 < 2 ^ 32 := by simpa using bound
    cases opened : io.opened with
    | false =>
        rw [(create_refused s io opened).2] at activeIs
        contradiction
    | true =>
        have first := inv.create_undisturbed opened room off.2
        refine { fd := first.fd, file := ?_ }
        intro path known
        rw [← first.file path known]
        apply sync_write_other
        have isFresh : seg = s.freshSegment := by
          rcases create_opened s io opened with ⟨segments, position⟩
          rw [position] at activeIs
          cases activeIs
          rw [segments] at found
          simpa using found.symm
        rw [isFresh]
        intro same
        exact (inv.known_is_old room known).2 (Option.some.inj same).symm
  · rw [stays] at activeIs found ⊢
    refine { fd := rfl, file := ?_ }
    intro path known
    apply sync_write_other
    have current : s.currentSegment = some seg := (current_segment_at s activeIs).trans found
    rcases inv.frontier with ⟨last, frontier, _⟩
    have isLast : seg = last := Option.some.inj (current.symm.trans frontier.current)
    subst isLast
    rcases frontier.fd with ⟨file, fd, foundFile⟩
    have otherFile := inv.other_file (off.1 seg current) known foundFile
    rw [fd]
    intro same
    exact otherFile (Option.some.inj same)

/-! ## What a read finds there -/

def diskAttempt (s : BlobStore) (loc : BlobLocation) (bufLen attempt : Nat) : Option ReadReply :=
  match s.segmentFd loc.segmentId with
  | none => some { status := .kNotFound }
  | some path => s.readDisk path loc bufLen attempt true

def diskReply (s : BlobStore) (loc : BlobLocation) (bufLen : Nat) : ReadReply :=
  ((s.diskAttempt loc bufLen 0).or (s.diskAttempt loc bufLen 1)).getD { status := .kNotFound }

theorem Undisturbed.disk_attempt {loc : BlobLocation} (same : Undisturbed s after loc.segmentId)
    (bufLen attempt : Nat) : after.diskAttempt loc bufLen attempt = s.diskAttempt loc bufLen attempt := by
  unfold diskAttempt
  rw [same.fd]
  cases found : s.segmentFd loc.segmentId with
  | none => rfl
  | some path =>
      dsimp only
      unfold readDisk
      rw [same.file path found]

theorem Undisturbed.disk_reply {loc : BlobLocation} (same : Undisturbed s after loc.segmentId)
    (bufLen : Nat) : after.diskReply loc bufLen = s.diskReply loc bufLen := by
  rw [diskReply, diskReply, same.disk_attempt, same.disk_attempt]

/-- A segment without a block is not found among the pending blocks. -/
theorem Untouched.not_pending {loc : BlobLocation} (untouched : Untouched s loc.segmentId) :
    s.findInPendingBlocks loc = none := by
  unfold findInPendingBlocks
  rw [List.find?_eq_none]
  intro b _
  have other := untouched b
  unfold covers
  simp only [Bool.and_eq_true, decide_eq_true_eq, not_and, not_lt]
  intro both
  by_cases held : (s.blocks b).pos = 0
  · rw [held]
    exact both.2
  · exact absurd both.1 (other held)

end Steps

/-! ## Stores with the same blocks -/

/-- The blocks and their places are the same, whatever the segments and files are. -/
structure SameBlocks (s other : BlobStore) : Prop where
  blocks : other.blocks = s.blocks
  activeBlock : other.activeBlock = s.activeBlock
  flushQueue : other.flushQueue = s.flushQueue
  freePool : other.freePool = s.freePool
  flushingBlock : other.flushingBlock = s.flushingBlock

section SameBlocks

variable {s other after afterOther : BlobStore} {flush pc pcOther : FlushPc} {step : FlushStep}

theorem SameBlocks.find (same : SameBlocks s other) (loc : BlobLocation) :
    other.findInPendingBlocks loc = s.findInPendingBlocks loc := by
  have covers : other.covers loc = s.covers loc := by
    funext b
    rw [BlobStore.covers, BlobStore.covers, same.blocks]
  rw [findInPendingBlocks, findInPendingBlocks, covers, pendingBlocks, pendingBlocks, same.activeBlock,
    same.flushingBlock, same.flushQueue]

/-- The flush thread moves alike in both. -/
theorem SameBlocks.flush_step (same : SameBlocks s other)
    (ran : s.flushStep flush step = some (pc, after))
    (ranOther : other.flushStep flush step = some (pcOther, afterOther)) :
    pcOther = pc ∧ SameBlocks after afterOther := by
  unfold flushStep at ran ranOther
  split at ran
  · unfold flushPop at ran ranOther
    rw [same.flushQueue, same.blocks] at ranOther
    split at ran
    · contradiction
    · rename_i b rest isQueue
      rw [isQueue] at ranOther
      dsimp only at ranOther
      split at ran
      · rename_i empty
        rw [if_pos empty] at ranOther
        cases ran
        cases ranOther
        exact ⟨rfl, { same with blocks := rfl, flushQueue := rfl, freePool := by rw [same.freePool] }⟩
      · rename_i held
        rw [if_neg held] at ranOther
        cases ran
        cases ranOther
        exact ⟨rfl, { same with blocks := rfl, flushQueue := rfl, flushingBlock := rfl }⟩
  · cases ran
    cases ranOther
    exact ⟨rfl, { same with }⟩
  · cases ran
    cases ranOther
    exact ⟨rfl, { same with freePool := by simp only [flushRelease, same.freePool], flushingBlock := rfl }⟩
  · contradiction

end SameBlocks

end BlobStore

end AttentionDB
