import AttentionDB.Storage.VisibleEntries

/-!
# Entries of earlier lives of a store

A store that is opened again scans the files that are there and goes on in a
new segment, so the file of an entry from an earlier life is not written any
more. An entry of the present life is in its file with all its bytes, or its
range of the file is still zero. Both facts are kept by every section, next to
the invariant of the present life.
-/

namespace AttentionDB

open ByteMap BlobStore

set_option autoImplicit false

namespace BlobStore

structure Written (file : File) (ack : Ack) : Prop where
  size : ack.loc.offset + ack.loc.diskSize ≤ file.size
  entry : EntryAt file.data ack.loc.offset ack.data

def Blank (file : File) (ack : Ack) : Prop :=
  ∀ i, i < ack.loc.diskSize → file.data (ack.loc.offset + i) = 0

def WrittenOrBlank (file : File) (ack : Ack) : Prop := Written file ack ∨ Blank file ack

def fileOf (s : BlobStore) (segmentId : Nat) : File := s.files (.canonical segmentId)

/-- An entry of an earlier life. Its segment is known, it is neither active nor
that of a block that may still be written, and `content` holds of its file. -/
structure Settled (content : File → Ack → Prop) (s : BlobStore) (ack : Ack) : Prop where
  shape : ∃ config, AckShape config ack
  floor : kSegmentHeaderSize ≤ ack.loc.offset
  listed : ∃ seg ∈ s.segments, seg.id = ack.loc.segmentId
  apart : ∀ b ∈ s.pendingBlocks, (s.blocks b).segmentId ≠ ack.loc.segmentId
  inactive : ∀ seg, s.currentSegment = some seg → seg.id ≠ ack.loc.segmentId
  content : content (s.fileOf ack.loc.segmentId) ack

/-- A store in its present life, with what it acknowledged in it and the entries
of earlier lives. -/
structure Lifetime (content : File → Ack → Prop) (s : BlobStore) (flush : FlushPc) (asleep : Bool)
    (acked old : List Ack) : Prop where
  store : StoreInv s flush asleep acked
  named : ∀ seg ∈ s.segments, seg.fd = some (.canonical seg.id)
  floor : ∀ ack ∈ acked, kSegmentHeaderSize ≤ ack.loc.offset
  above : ∀ seg, s.currentSegment = some seg → kSegmentHeaderSize ≤ seg.writeOffset ∧
    ∀ i, seg.writeOffset ≤ i → (s.fileOf seg.id).data i = 0
  onFile : ∀ ack ∈ acked, WrittenOrBlank (s.fileOf ack.loc.segmentId) ack
  old : ∀ ack ∈ old, Settled content s ack

section Moves

variable {content : File → Ack → Prop} {s after : BlobStore} {flush : FlushPc} {asleep : Bool}
  {acked old : List Ack} {ack : Ack} {io : SegmentIo}

/-- A known segment has the file that its id names. -/
theorem segment_fd_named (named : ∀ seg ∈ s.segments, seg.fd = some (.canonical seg.id))
    {segmentId : Nat} (listed : ∃ seg ∈ s.segments, seg.id = segmentId) :
    s.segmentFd segmentId = some (.canonical segmentId) := by
  rcases listed with ⟨seg, member, id⟩
  unfold segmentFd
  cases found : s.segments.find? (·.id = segmentId) with
  | none =>
      have missing := List.find?_eq_none.1 found seg member
      simp [id] at missing
  | some first =>
      have isId : first.id = segmentId := by simpa using List.find?_some found
      rw [Option.bind_some, named first (List.mem_of_find?_eq_some found), isId]

theorem segment_fd_canonical (named : ∀ seg ∈ s.segments, seg.fd = some (.canonical seg.id))
    {segmentId : Nat} {path : SegmentPath} (found : s.segmentFd segmentId = some path) :
    path = .canonical segmentId := by
  rcases segment_fd_member found with ⟨seg, member, rfl, fd⟩
  rw [named seg member] at fd
  exact (Option.some.inj fd).symm

theorem Lifetime.acked_listed (life : Lifetime content s flush asleep acked old)
    (member : ack ∈ acked) : ∃ seg ∈ s.segments, seg.id = ack.loc.segmentId := by
  cases found : s.segmentFd ack.loc.segmentId with
  | none => exact absurd found (life.store.known ack member)
  | some path =>
      rcases segment_fd_member found with ⟨seg, listed, id, _⟩
      exact ⟨seg, listed, id⟩

theorem Lifetime.written_of_disk (life : Lifetime content s flush asleep acked old)
    {path : SegmentPath} (disk : OnDisk s ack path) : Written (s.fileOf ack.loc.segmentId) ack := by
  have isPath := segment_fd_canonical life.named disk.fd
  subst isPath
  exact ⟨disk.size, disk.entry⟩

/-- Files, segments and blocks are as they were, and no block became pending. -/
theorem Lifetime.moved (life : Lifetime content s flush asleep acked old) {pc : FlushPc}
    {asleepAfter : Bool} (store : StoreInv after pc asleepAfter acked)
    (files : after.files = s.files) (segments : after.segments = s.segments)
    (active : after.activeSegment = s.activeSegment) (blocks : after.blocks = s.blocks)
    (pending : ∀ b ∈ after.pendingBlocks, b ∈ s.pendingBlocks) :
    Lifetime content after pc asleepAfter acked old := by
  have current : after.currentSegment = s.currentSegment := by
    rw [currentSegment, currentSegment, active, segments]
  have fileOf : ∀ segmentId, after.fileOf segmentId = s.fileOf segmentId := by
    intro segmentId
    rw [BlobStore.fileOf, files, BlobStore.fileOf]
  refine
    { store
      named := by rw [segments]; exact life.named
      floor := life.floor
      above := ?_
      onFile := ?_
      old := ?_ }
  · intro seg isCurrent
    rw [fileOf]
    exact life.above seg (current ▸ isCurrent)
  · intro ack member
    rw [fileOf]
    exact life.onFile ack member
  · intro ack member
    have settled := life.old ack member
    exact
      { shape := settled.shape
        floor := settled.floor
        listed := by rw [segments]; exact settled.listed
        apart := fun b isPending => by rw [blocks]; exact settled.apart b (pending b isPending)
        inactive := fun seg isCurrent => settled.inactive seg (current ▸ isCurrent)
        content := by rw [fileOf]; exact settled.content }

/-! ## Creating a segment -/

/-- The new file is zero behind its header, however much of that was written. -/
theorem created_file_zero (opened : io.opened = true) (i : Nat) (behind : kSegmentHeaderSize ≤ i) :
    ((s.createNewSegment io).fileOf s.freshSegment.id).data i = 0 := by
  have header : ∀ bytes : List UInt8, bytes.length ≤ kSegmentHeaderSize →
      patch (fun _ => 0) 0 bytes i = (0 : UInt8) := by
    intro bytes short
    rw [patch_outside _ _ _ _ (by omega)]
  unfold createNewSegment
  simp only [opened, if_true, fileOf, freshSegment]
  cases io.header with
  | complete =>
      simp only [syncWrite, Function.update_self, File.pwrite, File.empty]
      exact header _ (by rw [segment_header_length])
  | failed transferred =>
      simp only [syncWrite, Function.update_self, File.pwrite, File.empty]
      apply header
      rw [List.length_take, segment_header_length]
      exact Nat.min_le_right _ _

theorem created_file_of (opened : io.opened = true) {segmentId : Nat}
    (other : segmentId ≠ s.freshSegment.id) :
    (s.createNewSegment io).fileOf segmentId = s.fileOf segmentId := by
  apply created_files opened
  intro same
  cases same
  exact other rfl

theorem Lifetime.create (life : Lifetime content s flush true acked old) (opened : io.opened = true)
    (room : s.nextSegmentId + 1 < 2 ^ 32) :
    Lifetime content (s.createNewSegment io) flush true acked old := by
  have unused := life.store.unused room
  rcases create_opened s io opened with ⟨segments, activeIs⟩
  have current : (s.createNewSegment io).currentSegment = some s.freshSegment := by
    rw [currentSegment, activeIs, segments]
    simp
  have sameFile : ∀ {segmentId : Nat}, (∃ seg ∈ s.segments, seg.id = segmentId) →
      segmentId ≠ s.freshSegment.id ∧
        (s.createNewSegment io).fileOf segmentId = s.fileOf segmentId := by
    rintro segmentId ⟨seg, member, rfl⟩
    exact ⟨unused seg member, created_file_of opened (unused seg member)⟩
  refine
    { store := life.store.create opened room
      named := ?_
      floor := life.floor
      above := ?_
      onFile := ?_
      old := ?_ }
  · intro seg member
    rw [segments, List.mem_append, List.mem_singleton] at member
    rcases member with before | rfl
    · exact life.named seg before
    · rfl
  · intro seg isCurrent
    rw [current] at isCurrent
    cases isCurrent
    exact ⟨Nat.le_refl _, fun i behind => created_file_zero opened i behind⟩
  · intro ack member
    rw [(sameFile (life.acked_listed member)).2]
    exact life.onFile ack member
  · intro ack member
    have settled := life.old ack member
    rcases sameFile settled.listed with ⟨other, file⟩
    rcases settled.listed with ⟨seg, listed, id⟩
    refine
      { shape := settled.shape
        floor := settled.floor
        listed := ⟨seg, by rw [segments]; exact List.mem_append_left _ listed, id⟩
        apart := ?_
        inactive := ?_
        content := by rw [file]; exact settled.content }
    · intro b pending
      have before : b ∈ s.pendingBlocks := by simpa [pendingBlocks] using pending
      rw [create_blocks]
      exact settled.apart b before
    · intro other' isCurrent
      rw [current] at isCurrent
      cases isCurrent
      exact Ne.symm other

/-! ## Rotating and appending -/

theorem Lifetime.queued (life : Lifetime content s flush false acked old) {b : Nat}
    (isActive : s.activeBlock = some b) : Lifetime content (s.queued b) flush true acked old := by
  refine life.moved (life.store.queued isActive) rfl rfl rfl rfl ?_
  intro c member
  simp only [pendingBlocks, BlobStore.queued, List.mem_append, List.mem_singleton, isActive] at member ⊢
  rcases member with (active | flushing) | waiting | rfl
  · exact .inl (.inl active)
  · exact .inl (.inr flushing)
  · exact .inr waiting
  · exact .inl (.inl (by simp))

theorem Lifetime.rotated (life : Lifetime content s flush true acked old) (next : Nat)
    (rest : List Nat) {seg : SegmentInfo} (free : s.freePool = next :: rest)
    (current : s.currentSegment = some seg)
    (room : seg.writeOffset + blockCapacity s.config ≤ extentLimit s.config) :
    Lifetime content (s.rotated next rest seg) flush false acked old := by
  refine
    { store := life.store.rotated next rest free current room
      named := life.named
      floor := life.floor
      above := life.above
      onFile := life.onFile
      old := ?_ }
  intro ack member
  have settled := life.old ack member
  refine
    { shape := settled.shape
      floor := settled.floor
      listed := settled.listed
      apart := ?_
      inactive := settled.inactive
      content := settled.content }
  intro b pending
  by_cases same : b = next
  · subst same
    rw [BlobStore.rotated, reset_block_block]
    exact settled.inactive seg current
  · rw [BlobStore.rotated, reset_block_other _ _ _ same]
    apply settled.apart
    have others : b ∈ (some next).toList ++ s.flushingBlock.toList ++ s.flushQueue := pending
    simp only [Option.toList_some, List.mem_append, List.mem_singleton] at others
    simp only [pendingBlocks, List.mem_append]
    rcases others with (isNext | flushing) | waiting
    · exact absurd isNext same
    · exact .inl (.inr flushing)
    · exact .inr waiting

theorem Lifetime.append (life : Lifetime content s flush false acked old) {b i : Nat}
    (request : WriteRequest) (isActive : s.activeBlock = some b) (activeIs : s.activeSegment = some i)
    (short : request.data.length < 2 ^ 32)
    (room : (s.blocks b).pos + entryDiskSize request.data.length ≤ (s.blocks b).capacity) :
    Lifetime content (s.appended b i request) flush false (s.newAck b request :: acked) old := by
  have store := life.store.append request isActive activeIs short room
  rcases life.store.frontier with ⟨seg, frontier, cursor⟩
  rcases cursor rfl b isActive with ⟨segment, atEnd, _⟩
  have found : s.segments[i]? = some seg :=
    (current_segment_at s activeIs).symm.trans frontier.current
  rcases life.above seg frontier.current with ⟨floor, zero⟩
  have offset : (s.newAck b request).loc.offset = seg.writeOffset := atEnd
  have current : (s.appended b i request).currentSegment =
      some (seg.advance (entryDiskSize request.data.length)) :=
    appended_segment b request activeIs found
  have sameId : ∀ other ∈ s.segments, ∃ moved ∈ (s.appended b i request).segments,
      moved.id = other.id := by
    intro other member
    rcases List.mem_iff_getElem?.1 member with ⟨k, at_k⟩
    refine ⟨_, List.mem_of_getElem? (advanced_lookup.2 ⟨other, at_k, rfl⟩), ?_⟩
    split <;> rfl
  refine
    { store
      named := ?_
      floor := ?_
      above := ?_
      onFile := ?_
      old := ?_ }
  · intro other member
    rcases advanced_member member with ⟨before, listed, id, fd⟩
    rw [id, fd]
    exact life.named before listed
  · intro ack member
    rcases List.mem_cons.1 member with rfl | before
    · rw [offset]
      exact floor
    · exact life.floor ack before
  · intro other isCurrent
    rw [current] at isCurrent
    cases isCurrent
    rw [advance_write_offset, advance_id]
    exact ⟨by omega, fun k behind => zero k (by omega)⟩
  · intro ack member
    rcases List.mem_cons.1 member with rfl | before
    · right
      intro k _
      rw [offset]
      have isSegment : (s.newAck b request).loc.segmentId = seg.id := segment
      rw [isSegment]
      exact zero (seg.writeOffset + k) (Nat.le_add_right _ _)
    · exact life.onFile ack before
  · intro ack member
    have settled := life.old ack member
    rcases settled.listed with ⟨other, listed, id⟩
    rcases sameId other listed with ⟨moved, movedListed, movedId⟩
    refine
      { shape := settled.shape
        floor := settled.floor
        listed := ⟨moved, movedListed, movedId.trans id⟩
        apart := ?_
        inactive := ?_
        content := settled.content }
    · intro c pending
      have before := settled.apart c pending
      by_cases same : c = b
      · subst same
        rw [appended_block]
        exact before
      · rw [appended_other _ _ _ _ same]
        exact before
    · intro other' isCurrent
      rw [current] at isCurrent
      cases isCurrent
      exact settled.inactive seg frontier.current

/-! ## Flushing -/

/-- A write of a block leaves the rest of its file and all other files alone. -/
theorem Lifetime.flush_write_file (life : Lifetime content s flush asleep acked old) {b : Nat}
    (isPending : b ∈ s.pendingBlocks) :
    (∀ segmentId, segmentId ≠ (s.blocks b).segmentId →
      (s.flushWrite b .complete).fileOf segmentId = s.fileOf segmentId) ∧
    (s.flushWrite b .complete).fileOf (s.blocks b).segmentId =
      (s.fileOf (s.blocks b).segmentId).pwrite (s.blocks b).segmentOffset
        (slice (s.blocks b).buf 0 (s.blocks b).pos) := by
  have ok := life.store.blocks b isPending
  have small := ok.small
  rcases ok.fd with ⟨path, fd, found⟩
  have isPath := segment_fd_canonical life.named found
  subst isPath
  have aligned : alignUp (s.blocks b).pos kAlignment = (s.blocks b).pos :=
    align_up_aligned _ (by omega) ok.aligned
  constructor
  · intro segmentId other
    simp only [fileOf, flushWrite, syncWrite, fd]
    rw [Function.update_of_ne]
    intro same
    cases same
    exact other rfl
  · simp only [fileOf, flushWrite, syncWrite, fd, aligned, Function.update_self]

theorem Lifetime.flush_written {b : Nat}
    (life : Lifetime content s (.writing b) asleep acked old) :
    Lifetime content (s.flushWrite b .complete) (.written b) asleep acked old := by
  have flushing : b ∈ s.pendingBlocks := by
    simp [pendingBlocks, life.store.flushing, FlushPc.block]
  rcases life.flush_write_file flushing with ⟨others, own⟩
  rcases life.store.frontier with ⟨last, frontier, _⟩
  have after := life.store.flush_written
  refine
    { store := after
      named := life.named
      floor := life.floor
      above := ?_
      onFile := ?_
      old := ?_ }
  · intro seg isCurrent
    have sameSeg : seg = last := Option.some.inj (isCurrent.symm.trans frontier.current)
    subst sameSeg
    rcases life.above seg isCurrent with ⟨floor, zero⟩
    refine ⟨floor, fun i behind => ?_⟩
    by_cases same : seg.id = (s.blocks b).segmentId
    · have stop := frontier.blocks b flushing same.symm
      rw [same, own, ← same]
      have outside := patch_outside (s.fileOf (s.blocks b).segmentId).data (s.blocks b).segmentOffset
        (slice (s.blocks b).buf 0 (s.blocks b).pos) i (by rw [slice_length]; omega)
      rw [← same] at outside
      exact outside.trans (zero i behind)
    · rw [others seg.id same]
      exact zero i behind
  · intro ack member
    rcases (life.store.blocks b flushing).entries ack member with inside | clear
    · rcases (life.store.flush_write flushing member).1 inside with ⟨path, disk⟩
      have isPath : path = .canonical ack.loc.segmentId :=
        segment_fd_canonical (s := s.flushWrite b .complete) life.named disk.fd
      subst isPath
      exact .inl ⟨disk.size, disk.entry⟩
    · by_cases same : ack.loc.segmentId = (s.blocks b).segmentId
      · have apart := clear same.symm
        rcases life.onFile ack member with written | blank
        · have fd := segment_fd_named life.named (life.acked_listed member)
          have disk : OnDisk s ack (.canonical ack.loc.segmentId) :=
            ⟨fd, written.size, written.entry⟩
          have stays := (life.store.flush_write flushing member).2 _ disk
          exact .inl ⟨stays.size, stays.entry⟩
        · right
          intro i inside
          have before := blank i inside
          rw [same] at before ⊢
          rw [own]
          have outside := patch_outside (s.fileOf (s.blocks b).segmentId).data
            (s.blocks b).segmentOffset (slice (s.blocks b).buf 0 (s.blocks b).pos)
            (ack.loc.offset + i) (by rw [slice_length]; omega)
          exact outside.trans before
      · rw [others _ same]
        exact life.onFile ack member
  · intro ack member
    have settled := life.old ack member
    have other := settled.apart b flushing
    exact
      { shape := settled.shape
        floor := settled.floor
        listed := settled.listed
        apart := settled.apart
        inactive := settled.inactive
        content := by rw [others _ (Ne.symm other)]; exact settled.content }

theorem Lifetime.flush_step (life : Lifetime content s flush asleep acked old) {step : FlushStep}
    (succeeds : ∀ result, step = .write result → result = .complete) {pc : FlushPc}
    (ran : s.flushStep flush step = some (pc, after)) :
    Lifetime content after pc asleep acked old := by
  have store := life.store.flush_step succeeds ran
  have pending := flush_step_pending ran
  unfold flushStep at ran
  split at ran
  · unfold flushPop at ran
    split at ran
    · contradiction
    · split at ran
      · cases ran
        exact life.moved store rfl rfl rfl rfl pending
      · cases ran
        exact life.moved store rfl rfl rfl rfl pending
  · cases ran
    rw [succeeds _ rfl]
    exact life.flush_written
  · cases ran
    exact life.moved store rfl rfl rfl rfl pending
  · contradiction

/-! ## Sections of a write -/

theorem Lifetime.seek (life : Lifetime content s flush true acked old) (b : Nat)
    (opened : io.opened = true) (room : (s.segmentForBlock b io).nextSegmentId < 2 ^ 32) :
    Lifetime content (s.segmentForBlock b io) flush true acked old := by
  rcases segment_for_block_cases s b io with created | ⟨stays, _⟩
  · rw [created] at room ⊢
    rw [create_next] at room
    exact life.create opened room
  · rw [stays]
    exact life

theorem Lifetime.acquire (life : Lifetime content s flush true acked old) {request : WriteRequest}
    {outcome : WriteOutcome} (opened : io.opened = true)
    (short : request.data.length ≤ 2 ^ 32 - 1 - kEntryHeaderSize)
    (fits : entryDiskSize request.data.length ≤ blockCapacity s.config)
    (bound : after.nextSegmentId < 2 ^ 32) (cases : AcquireCases s request io outcome after) :
    Lifetime content after flush (outcome = .waiting) (StoreSystem.recorded acked request outcome after)
      old := by
  cases cases with
  | sleeps empty running => simpa [StoreSystem.recorded] using life
  | stopped empty halted => exact absurd life.store.running (by simp [halted])
  | noSegment b rest free missing =>
      rw [seek_commutes] at bound missing
      rcases life.store.seek b opened bound with ⟨_, seg, current, usable, _⟩
      exact absurd (missing seg current) usable
  | appends b rest seg i free activeIs found usable =>
      rw [seek_commutes] at bound activeIs found ⊢
      have sought := life.seek b opened bound
      rcases life.store.seek b opened bound with ⟨_, seg', current, _, room⟩
      have currentIs : (s.segmentForBlock b io).currentSegment = some seg := by
        have position : (s.segmentForBlock b io).activeSegment = some i := activeIs
        rw [currentSegment, position]
        exact found
      have sameSeg : seg = seg' := Option.some.inj (currentIs.symm.trans current)
      subst sameSeg
      have fresh := sought.rotated b rest
        (by rw [segment_for_block_free_pool]; exact free) current
        (by rw [segment_for_block_config]; exact room)
      have reset : ((s.segmentForBlock b io).rotated b rest seg).blocks b =
          (s.blocks b).reset seg.id seg.writeOffset seg.fd := by
        rw [BlobStore.rotated, reset_block_block]
        simp
      have appended := fresh.append request rfl activeIs
        (by unfold kEntryHeaderSize at short; omega)
        (by
          rw [reset]
          simp only [WriteBlock.reset, life.store.capacity b]
          omega)
      rw [newAck, reset] at appended
      exact appended

theorem Lifetime.enter (life : Lifetime content s flush false acked old) {request : WriteRequest}
    {outcome : WriteOutcome} (opened : io.opened = true) (bound : after.nextSegmentId < 2 ^ 32)
    (cases : EnterCases s request io outcome after) :
    Lifetime content after flush (outcome = .waiting) (StoreSystem.recorded acked request outcome after)
      old := by
  cases cases with
  | refused status => simpa [StoreSystem.recorded] using life
  | goesDirect b isActive long short => simpa [StoreSystem.recorded] using life
  | rotates b isActive fits full short rest =>
      apply (life.queued isActive).acquire opened short _ bound rest
      rw [life.store.capacity b] at fits
      exact fits
  | appends b i isActive room short current =>
      have appended := life.append request isActive current
        (by unfold kEntryHeaderSize at short; omega) room
      rw [newAck] at appended
      simpa [StoreSystem.recorded, isActive] using appended

/-! ## Marking an entry dead -/

theorem Lifetime.mark_dead (life : Lifetime content s flush asleep acked old) (loc : BlobLocation) :
    Lifetime content (s.markDead loc) flush asleep acked old := by
  have store := life.store.mark_dead loc
  rcases mark_dead_cases s loc with same | ⟨i, change, marked, sameId, sameFd, sameOffset⟩
  · rw [same]
    exact life
  · rw [marked] at store ⊢
    have changed : ∀ (seg : SegmentInfo) (k : Nat), s.segments[k]? = some seg →
        ∃ moved, (s.segments.modify i change)[k]? = some moved ∧ moved.id = seg.id ∧
          moved.writeOffset = seg.writeOffset := by
      intro seg k found
      rw [List.getElem?_modify, found]
      refine ⟨_, rfl, ?_, ?_⟩
      · dsimp only
        split_ifs
        · exact sameId seg
        · rfl
      · dsimp only
        split_ifs
        · exact sameOffset seg
        · rfl
    have current : ∀ seg, ({ s with segments := s.segments.modify i change } :
        BlobStore).currentSegment = some seg →
        ∃ before, s.currentSegment = some before ∧ seg.id = before.id ∧
          seg.writeOffset = before.writeOffset := by
      intro seg isCurrent
      rw [currentSegment, Option.bind_eq_some_iff] at isCurrent
      rcases isCurrent with ⟨k, activeIs, found⟩
      cases foundBefore : s.segments[k]? with
      | none =>
          rw [List.getElem?_modify, foundBefore] at found
          cases found
      | some before =>
          rcases changed before k foundBefore with ⟨moved, at_k, id, offset⟩
          dsimp only at found
          rw [at_k] at found
          cases found
          have activeBefore : s.activeSegment = some k := activeIs
          exact ⟨before, by rw [currentSegment, activeBefore]; exact foundBefore, id, offset⟩
    refine
      { store
        named := ?_
        floor := life.floor
        above := ?_
        onFile := life.onFile
        old := ?_ }
    · intro seg member
      rcases modified_member sameId sameFd member with ⟨before, listed, id, fd⟩
      rw [id, fd]
      exact life.named before listed
    · intro seg isCurrent
      rcases current seg isCurrent with ⟨before, wasCurrent, id, offset⟩
      rw [id, offset]
      exact life.above before wasCurrent
    · intro ack member
      have settled := life.old ack member
      rcases settled.listed with ⟨seg, listed, id⟩
      rcases List.mem_iff_getElem?.1 listed with ⟨k, at_k⟩
      rcases changed seg k at_k with ⟨moved, movedAt, movedId, _⟩
      exact
        { shape := settled.shape
          floor := settled.floor
          listed := ⟨moved, List.mem_of_getElem? movedAt, movedId.trans id⟩
          apart := settled.apart
          inactive := fun other isCurrent => by
            rcases current other isCurrent with ⟨before, wasCurrent, sameSegment, _⟩
            rw [sameSegment]
            exact settled.inactive before wasCurrent
          content := settled.content }

/-! ## Reading an entry of an earlier life -/

theorem Settled.not_pending (settled : Settled content s ack) :
    s.findInPendingBlocks ack.loc = none := by
  unfold findInPendingBlocks
  rw [List.find?_eq_none]
  intro b pending
  have other := settled.apart b pending
  simp [covers, other]

theorem Settled.on_disk (settled : Settled content s ack)
    (named : ∀ seg ∈ s.segments, seg.fd = some (.canonical seg.id))
    (written : Written (s.fileOf ack.loc.segmentId) ack) :
    OnDisk s ack (.canonical ack.loc.segmentId) :=
  ⟨segment_fd_named named settled.listed, written.size, written.entry⟩

/-- Zeros are taken for an entry that is not written yet. -/
theorem read_disk_blank {bufLen attempt : Nat} {readOk : Bool} {reply : ReadReply}
    (blank : Blank (s.fileOf ack.loc.segmentId) ack)
    (read : s.readDisk (.canonical ack.loc.segmentId) ack.loc bufLen attempt readOk = some reply) :
    reply.status ≠ .kOk := by
  have zeros : blobSizeAt (patch (fun _ => 0) 0
      ((s.fileOf ack.loc.segmentId).pread ack.loc.offset ack.loc.diskSize)) 0 = 0 := by
    have zero : ∀ k, patch (fun _ => 0) 0
        ((s.fileOf ack.loc.segmentId).pread ack.loc.offset ack.loc.diskSize) k = (0 : UInt8) := by
      intro k
      by_cases inside :
          k < ((s.fileOf ack.loc.segmentId).pread ack.loc.offset ack.loc.diskSize).length
      · have here := patch_inside (fun _ => 0) 0
          ((s.fileOf ack.loc.segmentId).pread ack.loc.offset ack.loc.diskSize) k inside
        rw [Nat.zero_add] at here
        rw [here]
        have short := inside
        rw [File.pread, slice_length] at short
        have byte := blank k (by omega)
        simpa [File.pread, slice] using byte
      · rw [patch_outside _ _ _ _ (by omega)]
    have bytes : slice (patch (fun _ => 0) 0
        ((s.fileOf ack.loc.segmentId).pread ack.loc.offset ack.loc.diskSize)) (0 + 4) 4 =
          [0, 0, 0, 0] := by
      simp [slice, zero, List.range_succ]
    rw [blobSizeAt, bytes]
    rfl
  unfold readDisk at read
  dsimp only at read
  rw [fileOf] at zeros
  simp only [zeros, true_or, if_true, true_and, Nat.not_lt_zero, if_false] at read
  split_ifs at read
  all_goals
    cases read
    decide

/-! ## Opening again -/

/-- A file that the scan finds and opens; it may fail to read the header. -/
structure FindsFile (entry : ScanEntry) (id : Nat) : Prop where
  path : entry.path = .canonical id
  opened : entry.opened = true

/-- The file is read as well. -/
def foundSegment (id : Nat) : ScanEntry := { path := .canonical id }

theorem found_segments (ids : List Nat) : List.Forall₂ FindsFile (ids.map foundSegment) ids := by
  induction ids with
  | nil => exact .nil
  | cons id ids ih => exact .cons ⟨rfl, rfl⟩ ih

structure Survives (content : File → Ack → Prop) (files : Files) (ids : List Nat) (ack : Ack) :
    Prop where
  shape : ∃ config, AckShape config ack
  floor : kSegmentHeaderSize ≤ ack.loc.offset
  listed : ack.loc.segmentId ∈ ids
  content : content (files (.canonical ack.loc.segmentId)) ack

/-- The scan knows every file that it found by the id in its name. -/
theorem scan_found {listing : List ScanEntry} {ids : List Nat}
    (finds : List.Forall₂ FindsFile listing ids) (small : ∀ id ∈ ids, id < 2 ^ 32) (s : BlobStore)
    (named : ∀ seg ∈ s.segments, seg.fd = some (.canonical seg.id)) :
    (∀ seg ∈ (listing.foldl scanSegment s).segments, seg.fd = some (.canonical seg.id)) ∧
    ∀ id, (id ∈ ids ∨ ∃ seg ∈ s.segments, seg.id = id) →
      ∃ seg ∈ (listing.foldl scanSegment s).segments, seg.id = id := by
  induction finds generalizing s with
  | nil => exact ⟨named, fun id known => by simpa using known⟩
  | @cons entry first listing ids found finds ih =>
      have reduced : first % 2 ^ 32 = first := Nat.mod_eq_of_lt (small first (by simp))
      have added : ∃ seg : SegmentInfo, (s.scanSegment entry).segments =
          s.segments ++ [seg] ∧ seg.id = first ∧ seg.fd = some (.canonical first) := by
        unfold scanSegment
        dsimp only
        rw [if_pos found.opened, found.path]
        exact ⟨_, rfl, reduced, rfl⟩
      rcases added with ⟨new, segments, newId, newFd⟩
      have namedAfter : ∀ seg ∈ (s.scanSegment entry).segments, seg.fd = some (.canonical seg.id) := by
        intro seg member
        rw [segments, List.mem_append, List.mem_singleton] at member
        rcases member with before | rfl
        · exact named seg before
        · rw [newFd, newId]
      rcases ih (fun id member => small id (by simp [member])) (s.scanSegment entry) namedAfter with
        ⟨namedLast, known⟩
      rw [List.foldl_cons]
      refine ⟨namedLast, fun id isKnown => known id ?_⟩
      rw [segments]
      rcases isKnown with member | ⟨seg, before, id⟩
      · rcases List.mem_cons.1 member with rfl | later
        · exact .inr ⟨new, by simp, newId⟩
        · exact .inl later
      · exact .inr ⟨seg, by simp [before], id⟩

/-- A store that is opened on the files of earlier lives. -/
theorem Lifetime.opened {config : NvmeStoreConfig} {files : Files} {openIo : OpenIo}
    {listing : List ScanEntry} {ids : List Nat}
    (ok : (openStore config files openIo).1 = .kOk) (small : blockCapacity config < 2 ^ 31)
    (bound : (openStore config files openIo).2.nextSegmentId < 2 ^ 32)
    (listed : openIo.listing = some listing) (finds : List.Forall₂ FindsFile listing ids)
    (idsSmall : ∀ id ∈ ids, id < 2 ^ 32)
    (survives : ∀ ack ∈ old, Survives content files ids ack) :
    Lifetime content (openStore config files openIo).2 .idle false [] old := by
  have store := StoreInv.opened ok small bound
  rcases open_store_cases ok with ⟨entries, seg, b, rest, isListing, current, pool, opened⟩
  rw [listed] at isListing
  cases isListing
  let scanned := listing.foldl scanSegment (constructed config files)
  rcases scan_found finds idsSmall (constructed config files) (by simp [constructed]) with
    ⟨named, known⟩
  rcases scan_frame listing (constructed config files) with ⟨_, _, scannedFiles, queue, flushing⟩
  have created : withSegments config files listing openIo.segment =
      scanned.createNewSegment openIo.segment := rfl
  have allowed : openIo.segment.opened = true := by
    cases allowed : openIo.segment.opened with
    | true => rfl
    | false =>
        rw [created, currentSegment, (create_refused scanned openIo.segment allowed).2] at current
        cases current
  rcases create_opened scanned openIo.segment allowed with ⟨segments, activeIs⟩
  have currentIs : seg = scanned.freshSegment := by
    rw [created, currentSegment, activeIs, segments] at current
    simpa using current.symm
  have room : scanned.nextSegmentId + 1 < 2 ^ 32 := by
    rw [opened] at bound
    have next := create_next scanned openIo.segment
    rw [← created] at next
    exact next ▸ bound
  have unused : ∀ other ∈ scanned.segments, other.id ≠ scanned.freshSegment.id := by
    intro other member
    have reduced : scanned.freshSegment.id = scanned.nextSegmentId := Nat.mod_eq_of_lt (by omega)
    rw [reduced]
    rcases (scan_ids listing (constructed config files) (by simp [constructed])
      (by simp [constructed])).1 other member with below | last
    · exact Nat.ne_of_lt below
    · omega
  have segmentsAre : (openStore config files openIo).2.segments =
      scanned.segments ++ [scanned.freshSegment] := by
    rw [opened]
    exact segments
  have currentNow : (openStore config files openIo).2.currentSegment = some scanned.freshSegment := by
    rw [← currentIs, ← current, opened]
    rfl
  have fileIs : ∀ segmentId, (openStore config files openIo).2.fileOf segmentId =
      (scanned.createNewSegment openIo.segment).fileOf segmentId := by
    intro segmentId
    rw [opened]
    rfl
  have pendingIs : ∀ c ∈ (openStore config files openIo).2.pendingBlocks, c = b := by
    intro c member
    rw [opened] at member
    have noQueue : (withSegments config files listing openIo.segment).flushQueue = [] := by
      rw [withSegments, create_flush_queue, queue]
      rfl
    have noFlush : (withSegments config files listing openIo.segment).flushingBlock = none := by
      rw [withSegments, create_flushing_block, flushing]
      rfl
    simpa [pendingBlocks, noQueue, noFlush] using member
  have blockIs : ((openStore config files openIo).2.blocks b).segmentId = scanned.freshSegment.id := by
    rw [opened, ← currentIs]
    dsimp only
    rw [reset_block_block]
    rfl
  refine
    { store
      named := ?_
      floor := by simp
      above := ?_
      onFile := by simp
      old := ?_ }
  · intro other member
    rw [segmentsAre, List.mem_append, List.mem_singleton] at member
    rcases member with before | rfl
    · exact named other before
    · rfl
  · intro other isCurrent
    rw [currentNow] at isCurrent
    cases isCurrent
    exact ⟨Nat.le_refl _, fun i behind => by rw [fileIs]; exact created_file_zero allowed i behind⟩
  · intro ack member
    have before := survives ack member
    rcases known ack.loc.segmentId (.inl before.listed) with ⟨other, listedOther, id⟩
    have different : ack.loc.segmentId ≠ scanned.freshSegment.id := by
      rw [← id]
      exact unused other listedOther
    refine
      { shape := before.shape
        floor := before.floor
        listed := ⟨other, by rw [segmentsAre]; exact List.mem_append_left _ listedOther, id⟩
        apart := ?_
        inactive := ?_
        content := ?_ }
    · intro c pending
      rw [pendingIs c pending, blockIs]
      exact Ne.symm different
    · intro last isCurrent
      rw [currentNow] at isCurrent
      cases isCurrent
      exact Ne.symm different
    · have sameFile : scanned.fileOf ack.loc.segmentId = files (.canonical ack.loc.segmentId) := by
        have kept : scanned.files = files := scannedFiles
        rw [fileOf, kept]
      rw [fileIs, created_file_of allowed different, sameFile]
      exact before.content

end Moves

end BlobStore

end AttentionDB
