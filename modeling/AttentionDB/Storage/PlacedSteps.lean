import AttentionDB.Storage.PlacedBlobs

/-!
# Every step keeps the placed blobs

What the flush thread, `mark_dead`, a removal and the three sections of `write`
do to the blobs that were placed. A blob moves from its block to its file, and
a removal drops the blobs of one segment.
-/

namespace AttentionDB

open ByteMap BlobStore

set_option autoImplicit false

section Flush

variable {s after : BlobStore} {flush pc : FlushPc} {unwritten : List Ack} {placed : List PlacedBlob}
  {b : Nat}

theorem BufferHolds.covered {block : Nat} {p : PlacedBlob} (inside : BufferHolds (s.blocks block) p)
    (positive : 0 < p.size) : s.covers p.ack.loc block = true := by
  have stop := inside.stop
  have start := inside.start
  have segment := inside.segment
  unfold PlacedBlob.segmentId at segment
  unfold PlacedBlob.offset at start stop
  simp only [covers, Bool.and_eq_true, decide_eq_true_eq]
  exact ⟨⟨segment, start⟩, by omega⟩

/-- The flush thread moves a block from one role to the next. -/
theorem flush_step_roles {step : FlushStep} (flushing : s.flushingBlock = flush.block)
    (ran : s.flushStep flush step = some (pc, after)) (c : Nat) :
    otherRoles after c = otherRoles s c := by
  unfold flushStep flushPop at ran
  split at ran
  · have noFlush : s.flushingBlock = none := flushing
    split at ran
    · contradiction
    · rename_i b rest queue
      split at ran <;> cases ran
      · simp only [otherRoles, queue, List.count_cons]
        omega
      · simp only [otherRoles, queue, noFlush, List.count_cons, Option.toList_some,
          Option.toList_none, List.count_nil]
        omega
  · cases ran
    rfl
  · rename_i b
    cases ran
    have isFlushing : s.flushingBlock = some b := flushing
    simp only [otherRoles, flushRelease, isFlushing, List.count_cons, Option.toList_some,
      Option.toList_none, List.count_nil]
    omega
  · contradiction

theorem PlacedInv.flush_pop (inv : PlacedInv s .idle unwritten placed)
    (popped : s.flushPop = some (pc, after)) : PlacedInv after pc unwritten placed := by
  have stepped : s.flushStep .idle .pop = some (pc, after) := popped
  have sameRoles := flush_step_roles inv.flushing stepped
  unfold flushPop at popped
  split at popped
  · contradiction
  · rename_i b rest queue
    split at popped
    · rename_i empty
      cases popped
      refine
        { rows := inv.rows.congr rfl rfl rfl rfl rfl
          roles := ?_
          flushing := inv.flushing
          issued := inv.issued
          buffered := ?_
          stored := inv.stored }
      · intro c
        rw [sameRoles]
        exact inv.roles c
      · intro p member waits
        rcases inv.buffered p member waits with ⟨c, block, keeps, holds⟩
        refine ⟨c, block, ?_, holds⟩
        rcases keeps with inQueue | writing | active
        · rw [queue] at inQueue
          rcases List.mem_cons.1 inQueue with same | later
          · -- an empty block holds no entry
            subst same
            have stop := holds.stop
            have start := holds.start
            have positive := inv.rows.positive member
            omega
          · exact .inl later
        · exact .inr (.inl writing)
        · exact .inr (.inr ⟨active.1, (sameRoles c).trans active.2⟩)
    · cases popped
      refine
        { rows := inv.rows.congr rfl rfl rfl rfl rfl
          roles := ?_
          flushing := rfl
          issued := inv.issued
          buffered := ?_
          stored := inv.stored }
      · intro c
        rw [sameRoles]
        exact inv.roles c
      · intro p member waits
        rcases inv.buffered p member waits with ⟨c, block, keeps, holds⟩
        refine ⟨c, block, ?_, holds⟩
        rcases keeps with inQueue | writing | active
        · rw [queue] at inQueue
          rcases List.mem_cons.1 inQueue with same | later
          · exact .inr (.inl (by rw [same]))
          · exact .inl later
        · contradiction
        · exact .inr (.inr ⟨active.1, (sameRoles c).trans active.2⟩)

/-- The `pwrite` of a block that succeeds. -/
theorem flush_write_files {result : IoResult} {path : SegmentPath} (span : BlockSpan s (s.blocks b))
    (succeeds : StoreSystem.blockWritten s b result = true) (fd : (s.blocks b).segmentFd = some path) :
    (s.flushWrite b result).files = Function.update s.files path
      ((s.files path).pwrite (s.blocks b).segmentOffset (slice (s.blocks b).buf 0 (s.blocks b).pos)) := by
  have complete : result = .complete := by
    unfold StoreSystem.blockWritten at succeeds
    simp only [Bool.and_eq_true, decide_eq_true_eq] at succeeds
    exact succeeds.1
  have small : (s.blocks b).pos < 2 ^ 63 := by
    have bound := span.small
    have capacity := span.capacity
    have size := s.config.writeBlockSizeMb.toNat_lt
    unfold blockCapacity at capacity
    omega
  simp only [flushWrite, syncWrite, complete, fd, align_up_aligned _ small span.aligned]

theorem FileHolds.pwrite_nothing {file : File} {offset start : Nat} {request : WriteRequest}
    (holds : FileHolds file offset request) : FileHolds (file.pwrite start []) offset request := by
  have data : (file.pwrite start []).data = file.data := patch_nil file.data start
  refine ⟨Nat.le_trans holds.inside (Nat.le_max_left _ _), ?_⟩
  rw [data]
  exact holds.entry

/-- The block has the descriptor of its segment as long as the segment is there. -/
theorem BlockSpan.own_file {path : SegmentPath} (span : BlockSpan s (s.blocks b))
    (present : ∃ seg ∈ s.segments, seg.id = (s.blocks b).segmentId)
    (fd : (s.blocks b).segmentFd = some path) (nonempty : (s.blocks b).pos ≠ 0) :
    path = .canonical (s.blocks b).segmentId := by
  obtain ⟨seg, member, id⟩ := present
  have reset : kSegmentHeaderSize ≤ (s.blocks b).segmentOffset := by
    by_contra unset
    exact nonempty (span.unset (by omega))
  have named := (span.named reset seg member id).1
  rw [fd, id] at named
  exact Option.some.inj named

/-- The `pwrite` goes to the block's own segment, or it has nothing to write. -/
theorem PlacedInv.flush_write {result : IoResult} (inv : PlacedInv s (.writing b) unwritten placed)
    (succeeds : StoreSystem.blockWritten s b result = true)
    (own : (s.blocks b).pos ≠ 0 → ∀ path, (s.blocks b).segmentFd = some path →
      path = .canonical (s.blocks b).segmentId) :
    PlacedInv (s.flushWrite b result) (.written b)
      (unwritten.filter fun ack => !(ack.block = some b && s.covers ack.loc b)) placed := by
  have span := inv.rows.spans b
  have opened : ∃ path, (s.blocks b).segmentFd = some path := by
    unfold StoreSystem.blockWritten at succeeds
    simp only [Bool.and_eq_true] at succeeds
    exact Option.isSome_iff_exists.1 succeeds.2
  rcases opened with ⟨path, fd⟩
  have files := flush_write_files span succeeds fd
  refine
    { rows := inv.rows.congr rfl rfl rfl rfl rfl
      roles := inv.roles
      flushing := inv.flushing
      issued := ?_
      buffered := ?_
      stored := ?_ }
  · intro ack member
    exact inv.issued ack (List.mem_filter.1 member).1
  · intro p member waits
    rcases List.mem_filter.1 waits with ⟨waited, kept⟩
    rcases inv.buffered p member waited with ⟨c, block, keeps, holds⟩
    refine ⟨c, block, ?_, holds⟩
    rcases keeps with inQueue | writing | active
    · exact .inl inQueue
    · have same : b = c := FlushPc.writing.inj writing
      subst same
      have covered := holds.covered (inv.rows.positive member)
      simp [block, covered] at kept
    · exact .inr (.inr active)
  · intro p member written listed
    have listedBefore : ∃ seg ∈ s.segments, seg.id = p.segmentId := listed
    rw [files]
    by_cases empty : (s.blocks b).pos = 0
    · have uncovered : s.covers p.ack.loc b = false := by
        simp only [covers, empty, Nat.add_zero, Bool.and_eq_false_iff, decide_eq_false_iff_not]
        omega
      have holds : FileHolds (s.files (.canonical p.segmentId)) p.offset p.request := by
        apply inv.stored p member _ listedBefore
        intro waited
        exact written (List.mem_filter.2 ⟨waited, by simp [uncovered]⟩)
      rw [empty]
      by_cases same : SegmentPath.canonical p.segmentId = path
      · rw [← same, Function.update_self]
        exact holds.pwrite_nothing
      · rw [Function.update_of_ne same]
        exact holds
    have isCanonical := own empty path fd
    subst isCanonical
    -- the entries of the block are in its file after the write
    have copied : BufferHolds (s.blocks b) p →
        FileHolds (Function.update s.files (.canonical (s.blocks b).segmentId)
          ((s.files (.canonical (s.blocks b).segmentId)).pwrite (s.blocks b).segmentOffset
            (slice (s.blocks b).buf 0 (s.blocks b).pos)) (.canonical p.segmentId))
          p.offset p.request := by
      intro inside
      have start := inside.start
      have stop := inside.stop
      have fits := entry_fits p.request.data.length (inv.rows.requests p member).short
      rw [← inside.segment, Function.update_self]
      constructor
      · simp only [File.pwrite, slice_length]
        exact Nat.le_trans stop (Nat.le_max_right _ _)
      · have entry : EntryOf (s.blocks b).buf (0 + (p.offset - (s.blocks b).segmentOffset))
            p.request := by
          rw [Nat.zero_add]
          exact inside.entry
        have moved := entry.patch_copy (s.files (.canonical (s.blocks b).segmentId)).data
          (s.blocks b).segmentOffset (s.blocks b).pos (by unfold PlacedBlob.size at stop; omega)
        have position : (s.blocks b).segmentOffset + (p.offset - (s.blocks b).segmentOffset) =
            p.offset := by omega
        rw [position] at moved
        exact moved
    by_cases waited : p.ack ∈ unwritten
    · rcases inv.buffered p member waited with ⟨c, block, keeps, holds⟩
      have gone : ¬(!(decide (p.ack.block = some b) && s.covers p.ack.loc b)) = true :=
        fun kept => written (List.mem_filter.2 ⟨waited, kept⟩)
      have same : p.ack.block = some b := by
        by_contra other
        exact gone (by simp [other])
      have isB : c = b := Option.some.inj (block.symm.trans same)
      subst isB
      exact copied holds
    · have holds := inv.stored p member waited listedBefore
      rcases inv.rows.blocks b p member with inside | clear
      · exact copied inside
      · by_cases sameSegment : (s.blocks b).segmentId = p.segmentId
        · rw [sameSegment, Function.update_self]
          apply holds.pwrite_apart (inv.rows.requests p member)
          rw [slice_length]
          exact clear sameSegment
        · have other : SegmentPath.canonical p.segmentId ≠ .canonical (s.blocks b).segmentId := by
            intro same
            exact sameSegment (SegmentPath.canonical.inj same).symm
          rw [Function.update_of_ne other]
          exact holds

theorem PlacedInv.flush_release (inv : PlacedInv s (.written b) unwritten placed) :
    PlacedInv (s.flushRelease b) .idle unwritten placed := by
  have released : s.flushStep (.written b) .release = some (.idle, s.flushRelease b) := rfl
  have sameRoles := flush_step_roles inv.flushing released
  refine
    { rows := inv.rows.congr rfl rfl rfl rfl rfl
      roles := ?_
      flushing := rfl
      issued := inv.issued
      buffered := ?_
      stored := inv.stored }
  · intro c
    rw [sameRoles]
    exact inv.roles c
  · intro p member waits
    rcases inv.buffered p member waits with ⟨c, block, keeps, holds⟩
    refine ⟨c, block, ?_, holds⟩
    rcases keeps with inQueue | writing | active
    · exact .inl inQueue
    · contradiction
    · exact .inr (.inr ⟨active.1, (sameRoles c).trans active.2⟩)

end Flush

/-! ## Marking dead and removing -/

section Segments

variable {s after : BlobStore} {flush : FlushPc} {unwritten : List Ack} {placed : List PlacedBlob}
  {segmentId : Nat}

theorem PlacedInv.mark_dead (inv : PlacedInv s flush unwritten placed) (loc : BlobLocation) :
    PlacedInv (s.markDead loc) flush unwritten placed := by
  have rows := inv.rows.mark_dead loc
  rcases mark_dead_cases s loc with same | ⟨i, change, marked, sameId, sameFd, sameOffset⟩
  · rw [same]
    exact inv
  · rw [marked] at rows ⊢
    refine
      { rows
        roles := inv.roles
        flushing := inv.flushing
        issued := inv.issued
        buffered := inv.buffered
        stored := ?_ }
    intro p member written listed
    apply inv.stored p member written
    rcases listed with ⟨seg, inList, same⟩
    rcases List.mem_iff_getElem?.1 inList with ⟨k, found⟩
    rcases modified_lookup sameId sameFd sameOffset found with ⟨old, foundOld, id, _⟩
    exact ⟨old, List.mem_of_getElem? foundOld, id.symm.trans same⟩

/-- Nothing else of the store is touched by a deleted file. -/
theorem delete_file_pool (fd : Option SegmentPath) :
    (s.deleteFile fd).activeBlock = s.activeBlock ∧ (s.deleteFile fd).flushQueue = s.flushQueue ∧
      (s.deleteFile fd).flushingBlock = s.flushingBlock ∧
      (s.deleteFile fd).freePool = s.freePool := by
  cases fd <;> exact ⟨rfl, rfl, rfl, rfl⟩

theorem PlacedInv.remove (inv : PlacedInv s flush unwritten placed)
    (run : s.gcRemove segmentId = some after) : PlacedInv after flush unwritten placed := by
  have rows := inv.rows.remove run
  rcases gc_remove_cases run with ⟨rfl, _⟩ | ⟨k, gone, found, isId, notActive, rfl⟩
  · exact inv
  · rcases delete_file_pool (s := s) gone.fd with ⟨active, queue, flushing, free⟩
    have sameRoles : ∀ c, otherRoles
        { s.deleteFile gone.fd with
          segments := s.segments.eraseIdx k
          activeSegment := s.activeSegment.map fun active =>
            if k < active then active - 1 else active } c = otherRoles s c := by
      intro c
      simp only [otherRoles, queue, flushing, free]
    refine
      { rows
        roles := ?_
        flushing := flushing.trans inv.flushing
        issued := inv.issued
        buffered := ?_
        stored := ?_ }
    · intro c
      rw [sameRoles]
      exact inv.roles c
    · intro p member waits
      rcases inv.buffered p member waits with ⟨c, block, keeps, holds⟩
      refine ⟨c, block, ?_, ?_⟩
      · rcases keeps with inQueue | writing | isActive
        · exact .inl (queue.symm ▸ inQueue)
        · exact .inr (.inl writing)
        · exact .inr (.inr ⟨active.trans isActive.1, (sameRoles c).trans isActive.2⟩)
      · have same : ({ s.deleteFile gone.fd with
            segments := s.segments.eraseIdx k
            activeSegment := s.activeSegment.map fun active =>
              if k < active then active - 1 else active } : BlobStore).blocks c =
            { s.blocks c with segmentFd := ((s.deleteFile gone.fd).blocks c).segmentFd } :=
          (delete_file_block gone.fd c).1
        rw [same]
        exact holds.with_fd _
    · intro p member written listed
      rcases listed with ⟨seg, inList, same⟩
      have inListBefore : seg ∈ s.segments := (List.eraseIdx_sublist s.segments k).mem inList
      have holds := inv.stored p member written ⟨seg, inListBefore, same⟩
      have otherId : gone.id ≠ seg.id := erased_other_id inv.rows.distinct found inList
      have otherFile := inv.rows.other_path (List.mem_of_getElem? found) inListBefore otherId
      have sameFile : (s.deleteFile gone.fd).files (.canonical p.segmentId) =
          s.files (.canonical p.segmentId) := by
        rw [same] at otherFile
        cases fd : gone.fd with
        | none => rfl
        | some path =>
            rw [fd] at otherFile
            have different : SegmentPath.canonical p.segmentId ≠ path :=
              fun isSame => otherFile (by rw [isSame])
            simp only [deleteFile, Function.update_of_ne different]
      simp only [sameFile]
      exact holds

end Segments

end AttentionDB
