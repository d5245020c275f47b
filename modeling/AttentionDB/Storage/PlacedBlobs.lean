import AttentionDB.Storage.SegmentRows

/-!
# Where a placed blob is

A blob that a write placed is in a block until the block was written, and from
then on in the file of its segment. The block it is in is queued, about to be
written, or active and in no other role, so nobody resets it before its write.
-/

namespace AttentionDB

open ByteMap BlobStore

set_option autoImplicit false

def otherRoles (s : BlobStore) (b : Nat) : Nat :=
  s.flushQueue.count b + s.flushingBlock.toList.count b + s.freePool.count b

def Keeps (s : BlobStore) (flush : FlushPc) (b : Nat) : Prop :=
  b ∈ s.flushQueue ∨ flush = .writing b ∨ (s.activeBlock = some b ∧ otherRoles s b = 0)

/-- The active block was given to the flush thread. -/
def Handed (s : BlobStore) : Prop := ∀ b, s.activeBlock = some b → otherRoles s b ≠ 0

structure PlacedInv (s : BlobStore) (flush : FlushPc) (unwritten : List Ack)
    (placed : List PlacedBlob) : Prop where
  rows : RowsInv s placed
  roles : ∀ b, otherRoles s b ≤ 1
  flushing : s.flushingBlock = flush.block
  issued : ∀ ack ∈ unwritten, ∃ p ∈ placed, p.ack = ack
  buffered : ∀ p ∈ placed, p.ack ∈ unwritten →
    ∃ b, p.ack.block = some b ∧ Keeps s flush b ∧ BufferHolds (s.blocks b) p
  stored : ∀ p ∈ placed, p.ack ∉ unwritten → (∃ seg ∈ s.segments, seg.id = p.segmentId) →
    FileHolds (s.files (.canonical p.segmentId)) p.offset p.request

def Unused (unwritten : List Ack) (placed : List PlacedBlob) (b : Nat) : Prop :=
  ∀ p ∈ placed, p.ack ∈ unwritten → p.ack.block ≠ some b

/-- What a section of `write` adds to the history; `block` is the one it used. -/
def placedBy (request : WriteRequest) (block : Option Nat) : WriteOutcome → List PlacedBlob
  | .stored loc => [{ ack := { loc, data := request.data, block }, request }]
  | _ => []

/-! ## Roles -/

section Roles

variable {s : BlobStore} {b c : Nat} {rest : List Nat}

theorem other_roles_queued : otherRoles (s.queued b) c = otherRoles s c + if b = c then 1 else 0 := by
  simp only [otherRoles, queued_flush_queue, queued_flushing_block, queued_free_pool,
    List.count_append, List.count_cons, List.count_nil, beq_iff_eq]
  omega

theorem other_roles_taken (free : s.freePool = b :: rest) :
    otherRoles s c = otherRoles { s with freePool := rest, activeBlock := some b } c +
      if b = c then 1 else 0 := by
  simp only [otherRoles, free, List.count_cons, beq_iff_eq]
  omega

end Roles

section Moves

variable {s : BlobStore} {flush : FlushPc} {unwritten : List Ack} {placed : List PlacedBlob}
  {b i : Nat} {rest : List Nat} {io : SegmentIo} {seg : SegmentInfo} {request : WriteRequest}

/-- A free block keeps nothing. -/
theorem PlacedInv.free_unused (inv : PlacedInv s flush unwritten placed) (free : s.freePool = b :: rest)
    (handed : Handed s) : Unused unwritten placed b := by
  intro p member waits same
  rcases inv.buffered p member waits with ⟨c, block, keeps, _⟩
  have isB : c = b := Option.some.inj (block.symm.trans same)
  subst isB
  have once := inv.roles c
  unfold otherRoles at once
  rw [free, List.count_cons_self] at once
  rcases keeps with queued | writing | active
  · have inQueue := List.count_pos_iff.2 queued
    omega
  · rw [inv.flushing, writing] at once
    simp [FlushPc.block] at once
    omega
  · exact handed c active.1 active.2

/-! ## Rotating -/

theorem PlacedInv.queued (inv : PlacedInv s flush unwritten placed) (isActive : s.activeBlock = some b)
    (alone : otherRoles s b = 0) :
    PlacedInv (s.queued b) flush unwritten placed ∧ Handed (s.queued b) := by
  constructor
  · refine { inv with
      rows := inv.rows.congr rfl rfl rfl rfl rfl
      roles := ?_
      buffered := ?_
      stored := inv.stored }
    · intro c
      have once := inv.roles c
      rw [other_roles_queued]
      split
      · rename_i same
        subst same
        omega
      · omega
    · intro p member waits
      rcases inv.buffered p member waits with ⟨c, block, keeps, holds⟩
      refine ⟨c, block, ?_, holds⟩
      rcases keeps with inQueue | writing | active
      · exact .inl (List.mem_append_left _ inQueue)
      · exact .inr (.inl writing)
      · have same : b = c := Option.some.inj (isActive.symm.trans active.1)
        subst same
        exact .inl (by simp)
  · intro c active
    have same : b = c := Option.some.inj (isActive.symm.trans active)
    subst same
    rw [other_roles_queued]
    simp

/-- The active block is replaced by a free one. -/
theorem PlacedInv.take (inv : PlacedInv s flush unwritten placed) (free : s.freePool = b :: rest)
    (handed : Handed s) :
    PlacedInv { s with freePool := rest, activeBlock := some b } flush unwritten placed ∧
      otherRoles { s with freePool := rest, activeBlock := some b } b = 0 := by
  constructor
  · refine { inv with
      rows := inv.rows.congr rfl rfl rfl rfl rfl
      roles := ?_
      buffered := ?_
      stored := inv.stored }
    · intro c
      have once := inv.roles c
      rw [other_roles_taken free] at once
      omega
    · intro p member waits
      rcases inv.buffered p member waits with ⟨c, block, keeps, holds⟩
      refine ⟨c, block, ?_, holds⟩
      rcases keeps with inQueue | writing | active
      · exact .inl inQueue
      · exact .inr (.inl writing)
      · exact absurd active.2 (handed c active.1)
  · have once := inv.roles b
    rw [other_roles_taken free, if_pos rfl] at once
    omega

theorem created_other_file {segmentId : Nat} (other : segmentId ≠ s.freshSegment.id) :
    (s.createNewSegment io).files (.canonical segmentId) = s.files (.canonical segmentId) := by
  cases opened : io.opened with
  | true =>
      apply created_files opened
      intro same
      exact other (SegmentPath.canonical.inj same)
  | false => simp [createNewSegment, opened]

theorem PlacedInv.create (inv : PlacedInv s flush unwritten placed) (room : s.nextSegmentId < 2 ^ 32)
    (distinct : ((s.createNewSegment io).segments.map (·.id)).Nodup) :
    PlacedInv (s.createNewSegment io) flush unwritten placed := by
  have reduced : s.freshSegment.id = s.nextSegmentId := Nat.mod_eq_of_lt room
  refine
    { rows := inv.rows.create room distinct
      roles := ?_
      flushing := by simpa using inv.flushing
      issued := inv.issued
      buffered := ?_
      stored := ?_ }
  · intro c
    have once := inv.roles c
    simpa [otherRoles] using once
  · intro p member waits
    rcases inv.buffered p member waits with ⟨c, block, keeps, holds⟩
    refine ⟨c, block, ?_, ?_⟩
    · simpa [Keeps, otherRoles] using keeps
    · simpa using holds
  · intro p member written listed
    have older := inv.rows.created p member
    have other : p.segmentId ≠ s.freshSegment.id := by omega
    rw [created_other_file other]
    apply inv.stored p member written
    rcases listed with ⟨seg, inList, same⟩
    rcases created_member inList with old | rfl
    · exact ⟨seg, old, same⟩
    · exact absurd same.symm other

/-- The next block and the segment for it. -/
theorem PlacedInv.seek (inv : PlacedInv s flush unwritten placed) (free : s.freePool = b :: rest)
    (handed : Handed s) (room : s.nextSegmentId < 2 ^ 32)
    (distinct : ((s.withNextBlock b rest io).segments.map (·.id)).Nodup) :
    PlacedInv (s.withNextBlock b rest io) flush unwritten placed ∧
      otherRoles (s.withNextBlock b rest io) b = 0 := by
  rcases inv.take free handed with ⟨taken, alone⟩
  constructor
  · unfold withNextBlock at distinct ⊢
    rcases segment_for_block_cases { s with freePool := rest, activeBlock := some b } b io with
      created | ⟨stays, _⟩
    · rw [created] at distinct ⊢
      exact taken.create room distinct
    · rw [stays]
      exact taken
  · have same : otherRoles (s.withNextBlock b rest io) b =
        otherRoles { s with freePool := rest, activeBlock := some b } b := by
      simp [otherRoles]
    rw [same]
    exact alone

theorem PlacedInv.reset (inv : PlacedInv s flush unwritten placed) (unused : Unused unwritten placed b)
    (current : s.currentSegment = some seg) :
    PlacedInv (s.resetBlock b seg) flush unwritten placed := by
  refine { inv with rows := inv.rows.reset current, roles := inv.roles, buffered := ?_, stored := inv.stored }
  intro p member waits
  rcases inv.buffered p member waits with ⟨c, block, keeps, holds⟩
  have other : c ≠ b := by
    intro same
    exact unused p member waits (by rw [block, same])
  refine ⟨c, block, keeps, ?_⟩
  rw [reset_block_other s b seg other]
  exact holds

/-! ## Placing -/

/-- The new entry lies where no entry of its segment is. -/
theorem RowsInv.new_location (rows : RowsInv s placed) (current : s.currentSegment = some seg)
    {loc : BlobLocation} (same : loc.segmentId = seg.id) (position : loc.offset = seg.writeOffset) :
    ∀ p ∈ placed, p.ack.loc ≠ loc := by
  intro p member isSame
  have row := (rows.active seg current).2
  have inSegment : p.segmentId = seg.id := by
    unfold PlacedBlob.segmentId
    rw [isSame, same]
  have bounds := row.within member inSegment
  have positive := rows.positive member
  have offset : p.offset = seg.writeOffset := by
    unfold PlacedBlob.offset
    rw [isSame, position]
  omega

theorem PlacedInv.append (inv : PlacedInv s flush unwritten placed) (isActive : s.activeBlock = some b)
    (alone : otherRoles s b = 0) (current : s.activeSegment = some i)
    (found : s.segments[i]? = some seg) (atEnd : AppendsAtEnd s b seg) (ok : RequestOk request)
    (room : (s.blocks b).pos + entryDiskSize request.data.length ≤ (s.blocks b).capacity) :
    PlacedInv (s.appended b i request) flush (newAck s b request :: unwritten)
      (placed ++ [appendedBlob s b request]) := by
  have fresh : ∀ p ∈ placed, p.ack.loc ≠ (newAck s b request).loc :=
    inv.rows.new_location (current_segment_found current found) atEnd.segment atEnd.cursor
  refine
    { rows := inv.rows.append current found atEnd ok room
      roles := inv.roles
      flushing := inv.flushing
      issued := ?_
      buffered := ?_
      stored := ?_ }
  · intro ack member
    rcases List.mem_cons.1 member with rfl | old
    · exact ⟨appendedBlob s b request, by simp, rfl⟩
    · rcases inv.issued ack old with ⟨p, known, same⟩
      exact ⟨p, List.mem_append_left _ known, same⟩
  · intro p member waits
    rcases List.mem_append.1 member with old | new
    · have waited : p.ack ∈ unwritten := by
        rcases List.mem_cons.1 waits with same | before
        · exact absurd (congrArg Ack.loc same) (fresh p old)
        · exact before
      rcases inv.buffered p old waited with ⟨c, block, keeps, holds⟩
      refine ⟨c, block, keeps, ?_⟩
      by_cases same : c = b
      · subst same
        rw [appended_block]
        exact holds.append (inv.rows.requests p old) ok
      · rw [appended_other s b i request same]
        exact holds
    · rw [List.mem_singleton.1 new]
      refine ⟨b, rfl, .inr (.inr ⟨isActive, alone⟩), ?_⟩
      rw [appended_block]
      exact BufferHolds.fresh s b request
  · intro p member written listed
    rcases List.mem_append.1 member with old | new
    · apply inv.stored p old fun before => written (List.mem_cons_of_mem _ before)
      rcases listed with ⟨other, inList, same⟩
      rcases advanced_member inList with ⟨before, inListBefore, id, _⟩
      exact ⟨before, inListBefore, id.symm.trans same⟩
    · rw [List.mem_singleton.1 new] at written
      exact absurd List.mem_cons_self written

/-! ## Files -/

theorem FileHolds.pwrite_apart {file : File} {offset start : Nat} {bytes : List UInt8}
    (holds : FileHolds file offset request) (ok : RequestOk request)
    (apart : offset + entryDiskSize request.data.length ≤ start ∨ start + bytes.length ≤ offset) :
    FileHolds (file.pwrite start bytes) offset request := by
  have fits := entry_fits request.data.length ok.short
  constructor
  · exact Nat.le_trans holds.inside (Nat.le_max_left _ _)
  · apply holds.entry.patch_apart
    rcases apart with before | after
    · left
      omega
    · exact .inr after

/-- A write through a descriptor changes its file in one place at most. -/
theorem sync_write_file (files : Files) (fd : Option SegmentPath) (bytes : List UInt8) (offset : Nat)
    (result : IoResult) (path : SegmentPath) :
    (syncWrite files fd bytes offset result).2 path = files path ∨
      (fd = some path ∧ ∃ count,
        (syncWrite files fd bytes offset result).2 path =
          (files path).pwrite offset (bytes.take count)) := by
  cases fd with
  | none => cases result <;> exact .inl rfl
  | some target =>
      by_cases same : path = target
      · subst same
        right
        refine ⟨rfl, ?_⟩
        cases result with
        | complete => exact ⟨bytes.length, by simp [syncWrite]⟩
        | failed transferred => exact ⟨transferred, by simp [syncWrite]⟩
      · left
        cases result <;> simp [syncWrite, Function.update_of_ne same]

/-- A write that reports success is complete. -/
theorem sync_write_success {files : Files} {fd : Option SegmentPath} {bytes : List UInt8} {offset : Nat}
    {result : IoResult} {path : SegmentPath} (fdIs : fd = some path)
    (success : ¬(syncWrite files fd bytes offset result).1 < 0) :
    (syncWrite files fd bytes offset result).2 path = (files path).pwrite offset bytes := by
  subst fdIs
  cases result with
  | complete => simp [syncWrite]
  | failed transferred => exact absurd (by decide : (-1 : Int) < 0) success

/-! ## The direct path -/

/-- The direct path looks for a segment and writes at its end. -/
theorem write_direct_files {result : IoResult} {outcome : WriteOutcome} {after : BlobStore}
    (run : s.writeDirect request io result = some (outcome, after)) :
    ∃ active seg base, base = s.segmentForEntry (entryDiskSize request.data.length) io ∧
      base.activeSegment = some active ∧ base.segments[active]? = some seg ∧
      after.files = (syncWrite base.files seg.fd (base.directBytes request) seg.writeOffset result).2 ∧
      ((outcome = .failed .kIOError ∧
          after = { base with writeSequence := base.writeSequence + 1, files := after.files }) ∨
        (¬(syncWrite base.files seg.fd (base.directBytes request) seg.writeOffset result).1 < 0 ∧
          outcome = .stored
            { segmentId := seg.id
              offset := seg.writeOffset
              length := request.data.length % 2 ^ 32
              diskSize := entryDiskSize request.data.length % 2 ^ 32 } ∧
          after = { base with
            writeSequence := base.writeSequence + 1
            files := after.files
            segments := base.segments.modify active (·.advance (entryDiskSize request.data.length)) })) := by
  unfold writeDirect at run
  simp only at run
  split at run
  · contradiction
  · rename_i active current
    split at run
    · contradiction
    · rename_i seg found
      refine ⟨active, seg, _, rfl, current, found, ?_⟩
      split at run
      · cases run
        exact ⟨rfl, .inl ⟨rfl, rfl⟩⟩
      · rename_i success
        cases run
        exact ⟨rfl, .inr ⟨success, rfl, rfl⟩⟩

theorem PlacedInv.seek_entry (inv : PlacedInv s flush unwritten placed) {diskSize : Nat}
    (room : s.nextSegmentId < 2 ^ 32)
    (distinct : ((s.segmentForEntry diskSize io).segments.map (·.id)).Nodup) :
    PlacedInv (s.segmentForEntry diskSize io) flush unwritten placed := by
  rcases segment_for_entry_cases s io diskSize with created | ⟨stays, _⟩
  · rw [created] at distinct ⊢
    exact inv.create room distinct
  · rw [stays]
    exact inv

/-- A write at the end of the active segment, whatever comes of it, leaves the
blobs in the files alone. -/
theorem PlacedInv.written_behind (inv : PlacedInv s flush unwritten placed)
    (current : s.activeSegment = some i) (found : s.segments[i]? = some seg) {bytes : List UInt8}
    {result : IoResult} {p : PlacedBlob} (member : p ∈ placed)
    (holds : FileHolds (s.files (.canonical p.segmentId)) p.offset p.request) :
    FileHolds ((syncWrite s.files seg.fd bytes seg.writeOffset result).2 (.canonical p.segmentId))
      p.offset p.request := by
  have row := (inv.rows.active seg (current_segment_found current found)).2
  rcases sync_write_file s.files seg.fd bytes seg.writeOffset result (.canonical p.segmentId) with
    same | ⟨fd, count, patched⟩
  · rw [same]
    exact holds
  · rw [patched]
    have inSegment : p.segmentId = seg.id := by
      have paths := fd.symm.trans row.fd
      simpa using paths
    exact holds.pwrite_apart (inv.rows.requests p member) (.inl (row.within member inSegment).2)

theorem PlacedInv.direct (inv : PlacedInv s flush unwritten placed) (current : s.activeSegment = some i)
    (found : s.segments[i]? = some seg) {p : PlacedBlob} (same : p.segmentId = seg.id)
    (position : p.offset = seg.writeOffset) (ok : RequestOk p.request) {result : IoResult}
    (success : ¬(syncWrite s.files seg.fd (s.directBytes p.request) seg.writeOffset result).1 < 0)
    {files : Files}
    (filesAre : files = (syncWrite s.files seg.fd (s.directBytes p.request) seg.writeOffset result).2) :
    PlacedInv
      { s with
        writeSequence := s.writeSequence + 1
        files
        segments := s.segments.modify i (·.advance (entryDiskSize p.request.data.length)) }
      flush unwritten (placed ++ [p]) := by
  have currentIs := current_segment_found current found
  have row := (inv.rows.active seg currentIs).2
  have fresh := inv.rows.new_location currentIs same position
  have listedBefore : ∀ q ∈ placed,
      (∃ other ∈ s.segments.modify i (·.advance (entryDiskSize p.request.data.length)),
        other.id = q.segmentId) → ∃ other ∈ s.segments, other.id = q.segmentId := by
    intro q _ listed
    rcases listed with ⟨other, inList, sameId⟩
    rcases advanced_member inList with ⟨before, inListBefore, id, _⟩
    exact ⟨before, inListBefore, id.symm.trans sameId⟩
  refine
    { rows := inv.rows.place current found same position ok rfl rfl rfl rfl rfl
      roles := inv.roles
      flushing := inv.flushing
      issued := ?_
      buffered := ?_
      stored := ?_ }
  · intro ack member
    rcases inv.issued ack member with ⟨q, known, sameAck⟩
    exact ⟨q, List.mem_append_left _ known, sameAck⟩
  · intro q member waits
    rcases List.mem_append.1 member with old | new
    · exact inv.buffered q old waits
    · -- the new blob has a location of its own, so it is not among the waiting ones
      rcases inv.issued q.ack waits with ⟨other, known, sameAck⟩
      rw [List.mem_singleton.1 new] at sameAck
      exact absurd (congrArg Ack.loc sameAck) (fresh other known)
  · intro q member written listed
    rcases List.mem_append.1 member with old | new
    · have holds := inv.stored q old written (listedBefore q old listed)
      simp only [filesAre]
      exact inv.written_behind current found old holds
    · rw [List.mem_singleton.1 new]
      have file := sync_write_success row.fd success
      simp only [filesAre, same, file]
      have whole : s.directBytes p.request = slice (layEntry (fun _ => 0) 0
          (headerOf p.request s.writeSequence) p.request.data (entryDiskSize p.request.data.length)) 0
            (entryDiskSize p.request.data.length) := rfl
      have fits := entry_fits p.request.data.length ok.short
      rw [whole, position]
      constructor
      · simp only [File.pwrite, slice_length]
        exact Nat.le_max_right _ _
      · have laid := lay_entry_of (fun _ => 0) (0 + 0) s.writeSequence
          (entryDiskSize p.request.data.length) p.request
        exact laid.patch_copy (s.files (.canonical seg.id)).data seg.writeOffset
          (entryDiskSize p.request.data.length) (by omega)

end Moves

end AttentionDB
