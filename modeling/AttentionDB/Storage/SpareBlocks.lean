import AttentionDB.Storage.VisibleEntries

/-!
# Blocks in the pool

A block that was written keeps its range and its bytes while it waits in the
pool. A write that takes it and then finds no segment leaves it active as it is,
and `find_in_pending_blocks` looks at it again. What it finds there is right:
the range of a block in the pool is empty, or the buffer holds every entry in it.
-/

namespace AttentionDB

open ByteMap BlobStore

set_option autoImplicit false

namespace BlobStore

/-- The block covers nothing, or it is right about every entry. -/
def Spare (s : BlobStore) (acked : List Ack) (b : Nat) : Prop :=
  (s.blocks b).pos = 0 ∨
    (BlockOk s acked (s.blocks b) ∧ ∀ seg, s.currentSegment = some seg →
      (s.blocks b).segmentId = seg.id →
      (s.blocks b).segmentOffset + (s.blocks b).pos ≤ seg.writeOffset)

def Spares (s : BlobStore) (acked : List Ack) : Prop := ∀ b ∈ s.freePool, Spare s acked b

section Steps

variable {s after : BlobStore} {flush : FlushPc} {asleep : Bool} {acked : List Ack} {b c : Nat}
  {io : SegmentIo} {request : WriteRequest}

theorem Spare.same (spare : Spare s acked b) (block : after.blocks b = s.blocks b)
    (fd : ∀ segmentId, after.segmentFd segmentId = s.segmentFd segmentId)
    (current : after.currentSegment = s.currentSegment) : Spare after acked b := by
  unfold Spare
  rw [block, current]
  rcases spare with empty | ⟨ok, below⟩
  · exact .inl empty
  · exact .inr ⟨ok.same (fd _), below⟩

/-- What a reader may look at is right about every entry. -/
theorem StoreInv.pending_spare (inv : StoreInv s flush asleep acked) (isPending : b ∈ s.pendingBlocks) :
    Spare s acked b := by
  rcases inv.frontier with ⟨seg, frontier, _⟩
  refine .inr ⟨inv.blocks b isPending, ?_⟩
  intro other isOther
  have same := frontier.current
  rw [isOther] at same
  cases same
  exact frontier.blocks b isPending

/-! ## The flush thread -/

/-- The flush thread frees pending blocks only. -/
theorem flush_step_free (flushing : s.flushingBlock = flush.block) {step : FlushStep} {pc : FlushPc}
    (ran : s.flushStep flush step = some (pc, after)) (free : c ∈ after.freePool) :
    c ∈ s.freePool ∨ c ∈ s.pendingBlocks := by
  unfold flushStep at ran
  split at ran
  · unfold flushPop at ran
    split at ran
    · contradiction
    · rename_i b rest queue
      split at ran
      · cases ran
        rcases List.mem_cons.1 free with rfl | earlier
        · exact .inr (by simp [pendingBlocks, queue])
        · exact .inl earlier
      · cases ran
        exact .inl free
  · cases ran
    exact .inl free
  · rename_i b
    cases ran
    rcases List.mem_cons.1 free with rfl | earlier
    · exact .inr (by simp [pendingBlocks, flushing, FlushPc.block])
    · exact .inl earlier
  · contradiction

theorem StoreInv.flush_spares (inv : StoreInv s flush asleep acked) (spares : Spares s acked)
    {step : FlushStep} {pc : FlushPc} (ran : s.flushStep flush step = some (pc, after)) :
    Spares after acked := by
  intro c free
  obtain ⟨blocks, _, segments, active, _⟩ := flush_step_frame ran
  have spare : Spare s acked c := by
    rcases flush_step_free inv.flushing ran free with earlier | pending
    · exact spares c earlier
    · exact inv.pending_spare pending
  apply spare.same (by rw [blocks])
  · intro segmentId
    rw [segmentFd, segmentFd, segments]
  · rw [currentSegment, currentSegment, active, segments]

/-! ## Writing -/

theorem StoreInv.create_spare (inv : StoreInv s flush asleep acked) (opened : io.opened = true)
    (room : s.nextSegmentId + 1 < 2 ^ 32) (spare : Spare s acked c) :
    Spare (s.createNewSegment io) acked c := by
  unfold Spare
  rw [create_blocks]
  rcases spare with empty | ⟨ok, _⟩
  · exact .inl empty
  · right
    rcases ok.fd with ⟨path, _, found⟩
    have old := (inv.known_is_old room found).1
    have lookup := created_segment_fd opened (inv.unused room) (s.blocks c).segmentId
    rw [if_neg old] at lookup
    refine ⟨ok.same lookup, ?_⟩
    intro seg current same
    rcases create_opened s io opened with ⟨segments, activeIs⟩
    rw [currentSegment, activeIs, segments] at current
    have fresh : s.freshSegment = seg := by simpa using current
    rw [← fresh] at same
    exact absurd same old

theorem StoreInv.append_spare (inv : StoreInv s flush false acked) {i : Nat} (request : WriteRequest)
    (isActive : s.activeBlock = some b) (activeIs : s.activeSegment = some i)
    (spare : Spare s acked c) (other : c ≠ b) :
    Spare (s.appended b i request) (s.newAck b request :: acked) c := by
  unfold Spare
  rw [appended_other _ _ _ _ other]
  rcases spare with empty | ⟨ok, below⟩
  · exact .inl empty
  · right
    rcases inv.frontier with ⟨seg, frontier, cursor⟩
    rcases cursor rfl b isActive with ⟨segment, atEnd, _⟩
    have ends := below seg frontier.current
    have found : s.segments[i]? = some seg :=
      (current_segment_at s activeIs).symm.trans frontier.current
    rcases ok.fd with ⟨path, fd, isPath⟩
    refine ⟨?_, ?_⟩
    · refine
        { aligned := ok.aligned
          small := ok.small
          fd := ⟨path, fd, (segment_fd_appended b i request _).trans isPath⟩
          entries := ?_ }
      intro ack member
      rcases List.mem_cons.1 member with rfl | earlier
      · right
        intro inSegment
        right
        -- the new entry begins where the active segment ended
        have same : (s.blocks c).segmentId = seg.id := inSegment.trans segment
        have start : (s.newAck b request).loc.offset = seg.writeOffset := atEnd
        rw [start]
        exact ends same
      · exact ok.entries ack earlier
    · intro last current same
      rw [appended_segment b request activeIs found] at current
      cases current
      have before := ends same
      rw [advance_write_offset]
      omega

/-- A free block is not held, and it is free once. -/
theorem StoreInv.free_once (inv : StoreInv s flush asleep acked) {rest : List Nat}
    (free : s.freePool = b :: rest) : b ∉ rest := by
  intro again
  have once := inv.roles b
  have more := List.count_pos_iff.2 again
  rw [free, List.count_append, List.count_cons_self] at once
  omega

theorem StoreInv.active_not_free (inv : StoreInv s flush false acked) (isActive : s.activeBlock = some b) :
    b ∉ s.freePool := by
  intro free
  have once := inv.roles b
  have more := List.count_pos_iff.2 free
  have held : 0 < (s.holders flush false).count b := by
    apply List.count_pos_iff.2
    simp [holders, isActive]
  rw [List.count_append] at once
  omega

theorem StoreInv.acquire_spares (inv : StoreInv s flush true acked) (spares : Spares s acked)
    {outcome : WriteOutcome} (opened : io.opened = true) (bound : after.nextSegmentId < 2 ^ 32)
    (cases : AcquireCases s request io outcome after) :
    Spares after (StoreSystem.recorded acked request outcome after) := by
  cases cases with
  | sleeps empty running => exact spares
  | stopped empty halted => exact absurd inv.running (by simp [halted])
  | noSegment b rest free missing =>
      rw [seek_commutes] at bound missing
      rcases inv.seek b opened bound with ⟨_, seg, current, usable, _⟩
      exact absurd (missing seg current) usable
  | appends b rest seg i free activeIs found usable =>
      have fresh := inv.turned opened bound free activeIs found
      have active : ((s.withNextBlock b rest io).resetBlock b seg).activeBlock = some b :=
        next_block_active_block s b io rest
      intro c isFree
      have inRest : c ∈ rest := by
        rw [← next_block_free_pool s b io rest]
        exact isFree
      have other : c ≠ b := by
        intro same
        exact inv.free_once free (same ▸ inRest)
      have spare := spares c (by rw [free]; exact List.mem_cons_of_mem b inRest)
      have sought : Spare (s.segmentForBlock b io) acked c := by
        rcases segment_for_block_cases s b io with created | ⟨stays, _⟩
        · rw [seek_commutes] at bound
          rw [created]
          have nextIs : (s.segmentForBlock b io).nextSegmentId < 2 ^ 32 := bound
          rw [created, create_next] at nextIs
          exact inv.create_spare opened nextIs spare
        · rw [stays]
          exact spare
      have turned : Spare ((s.withNextBlock b rest io).resetBlock b seg) acked c := by
        rw [seek_commutes]
        exact sought.same (reset_block_other _ _ _ other) (fun _ => rfl) rfl
      have appended := fresh.append_spare request active activeIs turned other
      have reset : ((s.withNextBlock b rest io).resetBlock b seg).blocks b =
          (s.blocks b).reset seg.id seg.writeOffset seg.fd := by
        rw [reset_block_block, next_block_blocks]
      rw [newAck, reset] at appended
      have stillActive : (((s.withNextBlock b rest io).resetBlock b seg).appended b i
          request).activeBlock = some b := active
      simp only [StoreSystem.recorded, stillActive]
      exact appended

theorem StoreInv.enter_spares (inv : StoreInv s flush false acked) (spares : Spares s acked)
    {outcome : WriteOutcome} (opened : io.opened = true) (bound : after.nextSegmentId < 2 ^ 32)
    (cases : EnterCases s request io outcome after) :
    Spares after (StoreSystem.recorded acked request outcome after) := by
  cases cases with
  | refused | goesDirect => exact spares
  | rotates b isActive fits full short rest =>
      have queuedSpares : Spares (s.queued b) acked := fun c free =>
        (spares c free).same rfl (fun _ => rfl) rfl
      exact (inv.queued isActive).acquire_spares queuedSpares opened bound rest
  | appends b i isActive room short current =>
      intro c free
      have other : c ≠ b := by
        intro same
        exact inv.active_not_free isActive (same ▸ free)
      have appended := inv.append_spare request isActive current (spares c free) other
      have stillActive : (s.appended b i request).activeBlock = some b := isActive
      simp only [StoreSystem.recorded, stillActive]
      exact appended

theorem mark_dead_spares (spares : Spares s acked) (loc : BlobLocation) :
    Spares (s.markDead loc) acked := by
  rcases mark_dead_cases s loc with same | ⟨i, change, marked, sameId, sameFd, sameOffset⟩
  · rw [same]
    exact spares
  · rw [marked]
    intro c free
    rcases spares c free with empty | ⟨ok, below⟩
    · exact .inl empty
    · refine .inr ⟨ok.same (segment_fd_modify s.segments i _ change sameId sameFd), ?_⟩
      intro seg current same
      rcases Option.bind_eq_some_iff.1 current with ⟨k, activeIs, found⟩
      obtain ⟨old, before, isSeg⟩ := modify_lookup.1 found
      have isCurrent : s.currentSegment = some old := Option.bind_eq_some_iff.2 ⟨k, activeIs, before⟩
      have equal : seg.id = old.id ∧ seg.writeOffset = old.writeOffset := by
        rw [isSeg]
        split
        · exact ⟨sameId old, sameOffset old⟩
        · exact ⟨rfl, rfl⟩
      rw [equal.2]
      exact below old isCurrent (same.trans equal.1)

theorem opened_spares {config : NvmeStoreConfig} {files : Files} {openIo : OpenIo}
    (ok : (openStore config files openIo).1 = .kOk) : Spares (openStore config files openIo).2 [] := by
  rcases open_store_cases ok with ⟨listing, seg, b, rest, _, _, _, opened⟩
  rcases scan_frame listing (constructed config files) with ⟨blocks, _⟩
  have empty : ∀ c, ((withSegments config files listing openIo.segment).blocks c).pos = 0 := by
    intro c
    rw [withSegments, create_blocks, blocks]
    rfl
  intro c _
  left
  rw [opened]
  by_cases same : c = b
  · subst same
    change (((withSegments config files listing openIo.segment).resetBlock c seg).blocks c).pos = 0
    rw [reset_block_block]
    rfl
  · change (((withSegments config files listing openIo.segment).resetBlock b seg).blocks c).pos = 0
    rw [reset_block_other _ _ _ same]
    exact empty c

/-! ## What a read looks at -/

/-- The store with other values in fields that no read and no step of the flush
thread looks at, and with another active block. -/
def aside (s : BlobStore) (segment : Option Nat) (next : Nat) (block : Option Nat) : BlobStore :=
  { s with activeSegment := segment, nextSegmentId := next, activeBlock := block }

def LooksAlike (s : BlobStore) (block : Option Nat) : Prop :=
  ∀ loc, block.toList.find? (s.covers loc) = s.activeBlock.toList.find? (s.covers loc)

section Aside

variable {segment : Option Nat} {next : Nat} {block : Option Nat}

theorem aside_flush_step (step : FlushStep) : (s.aside segment next block).flushStep flush step =
    (s.flushStep flush step).map fun result => (result.1, result.2.aside segment next block) := by
  cases flush with
  | idle =>
      cases step with
      | pop =>
          have queue : (s.aside segment next block).flushQueue = s.flushQueue := rfl
          unfold flushStep flushPop
          dsimp only
          rw [queue]
          cases s.flushQueue with
          | nil => rfl
          | cons b rest =>
              dsimp only
              by_cases unused : (s.blocks b).pos = 0
              · have unusedHere : ((s.aside segment next block).blocks b).pos = 0 := unused
                rw [if_pos unused, if_pos unusedHere]
                rfl
              · have usedHere : ((s.aside segment next block).blocks b).pos ≠ 0 := unused
                rw [if_neg unused, if_neg usedHere]
                rfl
      | write | release => rfl
  | writing b => cases step <;> rfl
  | written b => cases step <;> rfl

theorem LooksAlike.find (alike : s.LooksAlike block) (loc : BlobLocation) :
    (s.aside segment next block).findInPendingBlocks loc = s.findInPendingBlocks loc := by
  have first := alike loc
  unfold findInPendingBlocks pendingBlocks
  have covers : (s.aside segment next block).covers loc = s.covers loc := rfl
  have active : (s.aside segment next block).activeBlock = block := rfl
  rw [covers, active]
  simp only [List.append_assoc, List.find?_append, first]
  rfl

theorem LooksAlike.read_pending (alike : s.LooksAlike block) (loc : BlobLocation) (bufLen : Nat) :
    (s.aside segment next block).readPending loc bufLen = s.readPending loc bufLen := by
  unfold readPending
  rw [alike.find loc]
  rfl

/-- The look depends on the blocks and on which one is active. -/
theorem LooksAlike.same (alike : s.LooksAlike block) (blocks : after.blocks = s.blocks)
    (activeBlock : after.activeBlock = s.activeBlock) : after.LooksAlike block := by
  intro loc
  have covers : after.covers loc = s.covers loc := by
    funext b
    rw [BlobStore.covers, BlobStore.covers, blocks]
  rw [covers, activeBlock]
  exact alike loc

end Aside

/-! ## A write that found no segment -/

/-- What reads see of a store whose writer took a block and found no segment:
a block without a range is never found. -/
def stalled (s : BlobStore) (b : Nat) (rest : List Nat) : BlobStore :=
  { s with freePool := rest, activeBlock := if (s.blocks b).pos = 0 then none else some b }

/-- The block that was taken as it was takes the place of the active one. -/
theorem StoreInv.stalled (inv : StoreInv s flush true acked) {rest : List Nat}
    (free : s.freePool = b :: rest) (spare : Spare s acked b) :
    StoreInv (s.stalled b rest) flush true acked := by
  have pending : ∀ c ∈ (s.stalled b rest).pendingBlocks,
      (c = b ∧ (s.blocks b).pos ≠ 0) ∨ c ∈ s.pendingBlocks := by
    intro c member
    simp only [pendingBlocks, List.mem_append] at member ⊢
    rcases member with (active | flushing) | waiting
    · unfold BlobStore.stalled at active
      dsimp only at active
      split at active
      · cases active
      · rename_i used
        rw [Option.toList_some, List.mem_singleton] at active
        exact .inl ⟨active, used⟩
    · exact .inr (.inl (.inr flushing))
    · exact .inr (.inr waiting)
  rcases inv.frontier with ⟨seg, frontier, _⟩
  have right : ∀ c ∈ (s.stalled b rest).pendingBlocks, BlockOk s acked (s.blocks c) ∧
      ((s.blocks c).segmentId = seg.id →
        (s.blocks c).segmentOffset + (s.blocks c).pos ≤ seg.writeOffset) := by
    intro c member
    rcases pending c member with ⟨rfl, used⟩ | before
    · rcases spare with empty | ⟨ok, below⟩
      · exact absurd empty used
      · exact ⟨ok, below seg frontier.current⟩
    · exact ⟨inv.blocks c before, frontier.blocks c before⟩
  refine
    { running := inv.running
      capacity := inv.capacity
      smallBlocks := inv.smallBlocks
      roles := ?_
      flushing := inv.flushing
      ids := inv.ids
      paths := inv.paths
      shapes := inv.shapes
      known := inv.known
      blocks := fun c member => (right c member).1.same rfl
      placed := ?_
      written := ?_
      frontier := ⟨seg, ⟨frontier.current, frontier.fd, frontier.entries,
        fun c member => (right c member).2⟩, by simp⟩ }
  · intro c
    have once := inv.roles c
    simp only [holders, free, BlobStore.stalled, if_true, List.count_append, List.count_cons] at once ⊢
    omega
  · intro ack member
    rcases inv.placed ack member with holder | ⟨path, disk⟩
    · exact .inl holder
    · exact .inr ⟨path, disk.same rfl rfl⟩
  · intro c isWritten ack member inside
    rcases inv.written c isWritten ack member inside with ⟨path, disk⟩
    exact ⟨path, disk.same rfl rfl⟩

/-- A block without a range is never found. -/
theorem looks_alike_empty (s : BlobStore) (b : Nat) (isActive : s.activeBlock = some b) :
    s.LooksAlike (if (s.blocks b).pos = 0 then none else some b) := by
  intro loc
  rw [isActive]
  split
  · rename_i empty
    have missed : s.covers loc b = false := by
      unfold covers
      rw [empty]
      simp only [Bool.and_eq_false_iff, decide_eq_false_iff_not]
      omega
    simp [missed]
  · rfl

/-- A rotation fails where no segment could be created, and nowhere else. -/
theorem StoreInv.segment_refused (inv : StoreInv s flush asleep acked) {rest : List Nat}
    (missing : ∀ seg, (s.withNextBlock b rest io).currentSegment = some seg → seg.fd = none) :
    s.withNextBlock b rest io =
      { s with
        freePool := rest
        activeBlock := some b
        nextSegmentId := s.nextSegmentId + 1
        activeSegment := none } := by
  rw [seek_commutes] at missing ⊢
  rcases segment_for_block_cases s b io with created | ⟨stays, _⟩
  · rw [created] at missing ⊢
    cases opened : io.opened with
    | true =>
        rcases create_opened s io opened with ⟨segments, activeIs⟩
        have current : (s.createNewSegment io).currentSegment = some s.freshSegment := by
          rw [currentSegment, activeIs, segments]
          simp
        have noFile := missing s.freshSegment current
        cases noFile
    | false => simp [createNewSegment, opened]
  · rw [stays] at missing
    rcases inv.frontier with ⟨seg, frontier, _⟩
    rcases frontier.fd with ⟨path, fd, _⟩
    have noFile := missing seg frontier.current
    rw [fd] at noFile
    cases noFile

theorem StoreInv.no_segment (inv : StoreInv s flush true acked) {rest : List Nat}
    (free : s.freePool = b :: rest) (spares : Spares s acked)
    (missing : ∀ seg, (s.withNextBlock b rest io).currentSegment = some seg → seg.fd = none) :
    ∃ segment next block, StoreInv ((s.withNextBlock b rest io).aside segment next block) flush true acked ∧
      (s.withNextBlock b rest io).LooksAlike block := by
  have stalled := inv.stalled free (spares b (by rw [free]; exact List.mem_cons_self))
  rw [inv.segment_refused missing]
  exact ⟨s.activeSegment, s.nextSegmentId, if (s.blocks b).pos = 0 then none else some b, stalled,
    looks_alike_empty _ b rfl⟩

/-- A writer that finds a free block and no segment for it. -/
theorem write_enter_no_segment {rest : List Nat} {seg : SegmentInfo} (isActive : s.activeBlock = some b)
    (short : request.data.length ≤ 2 ^ 32 - 1 - kEntryHeaderSize)
    (fits : entryDiskSize request.data.length ≤ (s.blocks b).capacity)
    (full : (s.blocks b).capacity < (s.blocks b).pos + entryDiskSize request.data.length)
    (free : s.freePool = c :: rest) (current : s.currentSegment = some seg)
    (noRoom : s.config.segmentSize.toNat < seg.writeOffset + (s.blocks c).capacity)
    (refused : io.opened = false) :
    s.writeEnter request io = some (.failed .kIOError,
      { s.turnedTo b c rest with nextSegmentId := s.nextSegmentId + 1, activeSegment := none }) := by
  have used : 0 < (s.blocks b).pos := by omega
  have taken : ({ s with flushQueue := s.flushQueue ++ [b] } : BlobStore).takeBlock =
      some (c, { s with flushQueue := s.flushQueue ++ [b], freePool := rest }) := by
    rw [takeBlock, free]
  have chosen : (s.turnedTo b c rest).currentSegment = some seg := current
  have creates : (s.turnedTo b c rest).segmentForBlock c io =
      { s.turnedTo b c rest with nextSegmentId := s.nextSegmentId + 1, activeSegment := none } := by
    unfold segmentForBlock
    rw [chosen]
    simpa [createNewSegment, refused, turnedTo] using noRoom
  unfold writeEnter
  simp only [isActive]
  rw [if_neg (by omega), if_neg (by omega), if_pos full, retireBlock, if_pos used,
    acquireAndAppend, taken]
  have sameStore : ({ s with flushQueue := s.flushQueue ++ [b], freePool := rest, activeBlock := some c } :
      BlobStore) = s.turnedTo b c rest := rfl
  dsimp only
  rw [sameStore, creates]
  rfl

/-! ## A direct write that failed -/

/-- A write to a file changes nothing before its offset, and no other file. -/
theorem OnDisk.write_beyond {ack : Ack} {path : SegmentPath} (disk : OnDisk s ack path)
    {config : NvmeStoreConfig} (shape : AckShape config ack) (fd : Option SegmentPath)
    (bytes : List UInt8) (offset : Nat) (result : IoResult)
    (beyond : fd = some path → ack.loc.offset + ack.loc.diskSize ≤ offset)
    (fdAfter : after.segmentFd ack.loc.segmentId = s.segmentFd ack.loc.segmentId)
    (files : after.files = (syncWrite s.files fd bytes offset result).2) : OnDisk after ack path := by
  have grown : ∀ written, fd = some path →
      ack.loc.offset + ack.loc.diskSize ≤ ((s.files path).pwrite offset written).size ∧
        EntryAt ((s.files path).pwrite offset written).data ack.loc.offset ack.data := by
    intro written isPath
    have before := beyond isPath
    have size := disk.size
    have positive := shape.positive
    refine ⟨Nat.le_trans size (Nat.le_max_left _ _), ?_⟩
    apply EntryAt.congr _ disk.entry
    intro i inside
    exact patch_outside _ _ _ _ (by omega)
  have whole : ack.loc.offset + ack.loc.diskSize ≤ (after.files path).size ∧
      EntryAt (after.files path).data ack.loc.offset ack.data := by
    rw [files]
    cases fd with
    | none => cases result <;> exact ⟨disk.size, disk.entry⟩
    | some other =>
        by_cases same : path = other
        · subst same
          cases result with
          | complete =>
              simp only [syncWrite, Function.update_self]
              exact grown _ rfl
          | failed transferred =>
              simp only [syncWrite, Function.update_self]
              exact grown _ rfl
        · cases result <;>
            simp only [syncWrite, Function.update_of_ne same] <;>
            exact ⟨disk.size, disk.entry⟩
  exact { fd := fdAfter.trans disk.fd, size := whole.1, entry := whole.2 }

/-- Other files, where every entry that was on disk still is. -/
theorem StoreInv.with_files (inv : StoreInv s flush asleep acked) (files : Files) (sequence : Nat)
    (keeps : ∀ ack ∈ acked, ∀ path, OnDisk s ack path →
      OnDisk { s with files, writeSequence := sequence } ack path) :
    StoreInv { s with files, writeSequence := sequence } flush asleep acked := by
  rcases inv.frontier with ⟨seg, frontier, cursor⟩
  refine
    { running := inv.running
      capacity := inv.capacity
      smallBlocks := inv.smallBlocks
      roles := inv.roles
      flushing := inv.flushing
      ids := inv.ids
      paths := inv.paths
      shapes := inv.shapes
      known := inv.known
      blocks := fun b isPending => (inv.blocks b isPending).same rfl
      placed := ?_
      written := ?_
      frontier := ⟨seg, ⟨frontier.current, frontier.fd, frontier.entries, frontier.blocks⟩, cursor⟩ }
  · intro ack member
    rcases inv.placed ack member with holder | ⟨path, disk⟩
    · exact .inl holder
    · exact .inr ⟨path, keeps ack member path disk⟩
  · intro b isWritten ack member inside
    rcases inv.written b isWritten ack member inside with ⟨path, disk⟩
    exact ⟨path, keeps ack member path disk⟩

/-- A write behind every entry of its file moves no entry. -/
theorem StoreInv.write_behind (inv : StoreInv s flush asleep acked) (fd : Option SegmentPath)
    (bytes : List UInt8) (offset : Nat) (result : IoResult) (sequence : Nat)
    (behind : ∀ ack ∈ acked, ∀ path, OnDisk s ack path → fd = some path →
      ack.loc.offset + ack.loc.diskSize ≤ offset) :
    StoreInv { s with
      files := (syncWrite s.files fd bytes offset result).2
      writeSequence := sequence } flush asleep acked := by
  apply inv.with_files
  intro ack member path disk
  have shape := inv.shapes ack member
  have beyond := behind ack member path disk
  exact disk.write_beyond shape fd bytes offset result beyond rfl rfl

theorem write_direct_failed {result : IoResult} {status : Status}
    (ran : s.writeDirect request io result = some (.failed status, after)) :
    ∃ i seg bytes, (s.segmentForEntry (entryDiskSize request.data.length) io).activeSegment = some i ∧
      (s.segmentForEntry (entryDiskSize request.data.length) io).segments[i]? = some seg ∧
      after = { s.segmentForEntry (entryDiskSize request.data.length) io with
        writeSequence := (s.segmentForEntry (entryDiskSize request.data.length) io).writeSequence + 1
        files := (syncWrite (s.segmentForEntry (entryDiskSize request.data.length) io).files seg.fd
          bytes seg.writeOffset result).2 } := by
  unfold writeDirect at ran
  simp only at ran
  split at ran
  · contradiction
  · rename_i i activeIs
    split at ran
    · contradiction
    · rename_i seg found
      split at ran
      · cases ran
        exact ⟨i, seg, _, activeIs, found, rfl⟩
      · cases ran

/-- What a failed direct write left lies at the end of a segment, behind every
entry, or in a segment of its own. -/
theorem StoreInv.direct_failed (inv : StoreInv s flush false acked) {result : IoResult} {status : Status}
    (ran : s.writeDirect request io result = some (.failed status, after))
    (bound : after.nextSegmentId < 2 ^ 32) :
    StoreInv (after.aside s.activeSegment after.nextSegmentId after.activeBlock) flush false acked := by
  obtain ⟨i, seg, bytes, activeIs, found, rfl⟩ := write_direct_failed ran
  rcases segment_for_entry_cases s io (entryDiskSize request.data.length) with created | ⟨stays, _⟩
  · rw [created] at activeIs found bound ⊢
    have room : s.nextSegmentId + 1 < 2 ^ 32 := by simpa using bound
    cases opened : io.opened with
    | false =>
        rw [(create_refused s io opened).2] at activeIs
        contradiction
    | true =>
        have isFresh : seg = s.freshSegment := by
          rcases create_opened s io opened with ⟨segments, position⟩
          rw [position] at activeIs
          cases activeIs
          rw [segments] at found
          simpa using found.symm
        have created := inv.create_aside opened room
        apply created.write_behind seg.fd bytes seg.writeOffset result
        intro ack member path disk isPath
        -- the new file holds no entry
        have fd := disk.fd
        have lookup := created_segment_fd opened (inv.unused room) ack.loc.segmentId
        cases known : s.segmentFd ack.loc.segmentId with
        | none => exact absurd known (inv.known ack member)
        | some before =>
            obtain ⟨otherId, otherPath⟩ := inv.known_is_old room known
            rw [if_neg otherId, known] at lookup
            have same : before = path := Option.some.inj (lookup.symm.trans fd)
            rw [isFresh] at isPath
            have canonical : path = .canonical s.freshSegment.id := Option.some.inj isPath.symm
            exact absurd (same.trans canonical) otherPath
  · rw [stays] at activeIs found ⊢
    apply inv.write_behind seg.fd bytes seg.writeOffset result
    intro ack member path disk isPath
    rcases inv.frontier with ⟨last, frontier, _⟩
    have isLast : seg = last := by
      have current := frontier.current
      rw [currentSegment, activeIs, Option.bind_some, found] at current
      exact Option.some.inj current
    subst isLast
    apply frontier.entries ack member
    have named := inv.path_id disk.fd
    rcases frontier.fd with ⟨file, isFile, isKnown⟩
    have same : file = path := by
      rw [isFile] at isPath
      exact Option.some.inj isPath
    rw [← named, ← same]
    exact inv.path_id isKnown

end Steps

end BlobStore

end AttentionDB
