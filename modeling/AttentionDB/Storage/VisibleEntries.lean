import AttentionDB.Storage.WriteSections

/-!
# Every acknowledged entry is visible

The invariant of a store with one writer on the buffered path while all I/O
succeeds. Every entry is inside a block that is active, queued or being
flushed, or it is on disk; and a block that `find_in_pending_blocks` may look
at holds the bytes of every entry its range covers. Each operation of the store
keeps the invariant, at any point of the flush thread.
-/

namespace AttentionDB

open ByteMap BlobStore

set_option autoImplicit false

namespace BlobStore

/-- The entry lies in the range of the block, and the buffer holds it. -/
structure InBlock (block : WriteBlock) (ack : Ack) : Prop where
  segment : block.segmentId = ack.loc.segmentId
  start : block.segmentOffset ≤ ack.loc.offset
  stop : ack.loc.offset + ack.loc.diskSize ≤ block.segmentOffset + block.pos
  entry : EntryAt block.buf (ack.loc.offset - block.segmentOffset) ack.data

def Clear (block : WriteBlock) (ack : Ack) : Prop :=
  block.segmentId = ack.loc.segmentId →
    ack.loc.offset + ack.loc.diskSize ≤ block.segmentOffset ∨
      block.segmentOffset + block.pos ≤ ack.loc.offset

structure OnDisk (s : BlobStore) (ack : Ack) (path : SegmentPath) : Prop where
  fd : s.segmentFd ack.loc.segmentId = some path
  size : ack.loc.offset + ack.loc.diskSize ≤ (s.files path).size
  entry : EntryAt (s.files path).data ack.loc.offset ack.data

/-- The blocks with a role, without the free ones. A writer that sleeps has
given its block to the queue, although `active_block_` still names it. -/
def holders (s : BlobStore) (flush : FlushPc) (asleep : Bool) : List Nat :=
  (if asleep then [] else s.activeBlock.toList) ++ flush.block.toList ++ s.flushQueue

/-- Where entries of one segment can end at most: a block is only opened where
it fits below `segment_size`, or at the start of a segment. -/
def extentLimit (config : NvmeStoreConfig) : Nat :=
  max config.segmentSize.toNat (kSegmentHeaderSize + blockCapacity config)

structure AckShape (config : NvmeStoreConfig) (ack : Ack) : Prop where
  length : ack.loc.length = ack.data.length
  diskSize : ack.loc.diskSize = entryDiskSize ack.data.length
  short : ack.data.length < 2 ^ 32
  small : ack.loc.diskSize < 2 ^ 31
  limit : ack.loc.offset + ack.loc.diskSize ≤ extentLimit config

/-- A block that readers may look at: aligned, in a segment with a known file,
and right about every entry. -/
structure BlockOk (s : BlobStore) (acked : List Ack) (block : WriteBlock) : Prop where
  aligned : block.pos % kAlignment = 0
  small : block.pos < 2 ^ 31
  fd : ∃ path, block.segmentFd = some path ∧ s.segmentFd block.segmentId = some path
  entries : ∀ ack ∈ acked, InBlock block ack ∨ Clear block ack

/-- The active segment is where all entries and blocks in it end at most. -/
structure FrontierOk (s : BlobStore) (acked : List Ack) (pending : List Nat) (seg : SegmentInfo) :
    Prop where
  current : s.currentSegment = some seg
  fd : ∃ path, seg.fd = some path ∧ s.segmentFd seg.id = some path
  entries : ∀ ack ∈ acked, ack.loc.segmentId = seg.id →
    ack.loc.offset + ack.loc.diskSize ≤ seg.writeOffset
  blocks : ∀ b ∈ pending, (s.blocks b).segmentId = seg.id →
    (s.blocks b).segmentOffset + (s.blocks b).pos ≤ seg.writeOffset

structure StoreInv (s : BlobStore) (flush : FlushPc) (asleep : Bool) (acked : List Ack) : Prop where
  running : s.flushRunning = true
  capacity : ∀ b, (s.blocks b).capacity = blockCapacity s.config
  smallBlocks : blockCapacity s.config < 2 ^ 31
  roles : ∀ b, (s.holders flush asleep ++ s.freePool).count b ≤ 1
  flushing : s.flushingBlock = flush.block
  ids : ∀ seg ∈ s.segments, seg.id < s.nextSegmentId ∨ seg.id = 2 ^ 32 - 1
  paths : ∀ seg ∈ s.segments, ∀ path, seg.fd = some path → path.parsedId % 2 ^ 32 = seg.id
  shapes : ∀ ack ∈ acked, AckShape s.config ack
  known : ∀ ack ∈ acked, s.segmentFd ack.loc.segmentId ≠ none
  blocks : ∀ b ∈ s.pendingBlocks, BlockOk s acked (s.blocks b)
  placed : ∀ ack ∈ acked, (∃ b ∈ s.holders flush asleep, InBlock (s.blocks b) ack) ∨
    ∃ path, OnDisk s ack path
  written : ∀ b, flush = .written b → ∀ ack ∈ acked, InBlock (s.blocks b) ack →
    ∃ path, OnDisk s ack path
  frontier : ∃ seg, FrontierOk s acked s.pendingBlocks seg ∧
    (asleep = false → ∀ b, s.activeBlock = some b →
      (s.blocks b).segmentId = seg.id ∧
        (s.blocks b).segmentOffset + (s.blocks b).pos = seg.writeOffset ∧
        (s.blocks b).segmentOffset + blockCapacity s.config ≤ extentLimit s.config)

/-! ## Looking up the file of a segment -/

theorem segment_fd_modify (segments : List SegmentInfo) (i segmentId : Nat)
    (change : SegmentInfo → SegmentInfo) (sameId : ∀ seg, (change seg).id = seg.id)
    (sameFd : ∀ seg, (change seg).fd = seg.fd) :
    ((segments.modify i change).find? (·.id = segmentId)).bind (·.fd) =
      (segments.find? (·.id = segmentId)).bind (·.fd) := by
  induction segments generalizing i with
  | nil => simp
  | cons seg segments ih =>
      cases i with
      | zero =>
          simp only [List.modify_zero_cons, List.find?_cons, sameId]
          split
          · simp [sameFd]
          · rfl
      | succ i =>
          simp only [List.modify_succ_cons, List.find?_cons]
          split
          · rfl
          · exact ih i

theorem segment_fd_append (segments : List SegmentInfo) (fresh : SegmentInfo) (segmentId : Nat)
    (unused : ∀ seg ∈ segments, seg.id ≠ fresh.id) :
    ((segments ++ [fresh]).find? (·.id = segmentId)).bind (·.fd) =
      if segmentId = fresh.id then fresh.fd else (segments.find? (·.id = segmentId)).bind (·.fd) := by
  rw [List.find?_append]
  split_ifs with same
  · have missing : segments.find? (·.id = segmentId) = none := by
      rw [List.find?_eq_none]
      intro seg member
      simpa [same] using unused seg member
    rw [missing]
    simp [same]
  · have other : ([fresh].find? (·.id = segmentId)) = none := by
      simp only [List.find?_cons, List.find?_nil]
      split
      · rename_i equal
        exact absurd (by simpa using equal) (Ne.symm same)
      · rfl
    rw [other, Option.or_none]

theorem segment_fd_member {s : BlobStore} {segmentId : Nat} {path : SegmentPath}
    (found : s.segmentFd segmentId = some path) :
    ∃ seg ∈ s.segments, seg.id = segmentId ∧ seg.fd = some path := by
  unfold segmentFd at found
  rcases Option.bind_eq_some_iff.1 found with ⟨seg, first, fd⟩
  exact ⟨seg, List.mem_of_find?_eq_some first, by simpa using List.find?_some first, fd⟩

theorem StoreInv.path_id {s : BlobStore} {flush : FlushPc} {asleep : Bool} {acked : List Ack}
    (inv : StoreInv s flush asleep acked) {segmentId : Nat} {path : SegmentPath}
    (found : s.segmentFd segmentId = some path) : path.parsedId % 2 ^ 32 = segmentId := by
  rcases segment_fd_member found with ⟨seg, member, rfl, fd⟩
  exact inv.paths seg member path fd

/-! ## What a reader sees -/

def replyFor (data : List UInt8) (bufLen : Nat) : ReadReply :=
  if bufLen < data.length then { status := .kBufferTooSmall } else { status := .kOk, bytes := data }

section Readers

variable {s : BlobStore} {flush : FlushPc} {asleep : Bool} {acked : List Ack} {ack : Ack}

theorem StoreInv.holder_pending (inv : StoreInv s flush asleep acked) {b : Nat}
    (holds : b ∈ s.holders flush asleep) : b ∈ s.pendingBlocks := by
  unfold holders at holds
  unfold pendingBlocks
  rw [inv.flushing]
  simp only [List.mem_append] at holds ⊢
  rcases holds with (active | flushing) | queued
  · cases asleep with
    | true => simp at active
    | false => exact .inl (.inl (by simpa using active))
  · exact .inl (.inr flushing)
  · exact .inr queued

theorem AckShape.positive {config : NvmeStoreConfig} (shape : AckShape config ack) :
    kEntryHeaderSize + ack.data.length ≤ ack.loc.diskSize := by
  rw [shape.diskSize]
  exact entry_fits ack.data.length shape.short

theorem InBlock.covered {b : Nat} {config : NvmeStoreConfig} (shape : AckShape config ack)
    (inside : InBlock (s.blocks b) ack) : s.covers ack.loc b = true := by
  have positive := shape.positive
  have stop := inside.stop
  unfold kEntryHeaderSize at positive
  simp only [covers, Bool.and_eq_true, decide_eq_true_eq]
  exact ⟨⟨inside.segment, inside.start⟩, by omega⟩

theorem not_clear_of_covered {b : Nat} {config : NvmeStoreConfig} (shape : AckShape config ack)
    (covered : s.covers ack.loc b = true) : ¬Clear (s.blocks b) ack := by
  have positive := shape.positive
  unfold kEntryHeaderSize at positive
  simp only [covers, Bool.and_eq_true, decide_eq_true_eq] at covered
  intro clear
  rcases clear covered.1.1 with before | after <;> omega

/-- The look at the pending blocks answers rightly, or the entry is on disk. -/
theorem StoreInv.read_pending (inv : StoreInv s flush asleep acked) (member : ack ∈ acked)
    (bufLen : Nat) : s.readPending ack.loc bufLen = some (replyFor ack.data bufLen) ∨
      (s.readPending ack.loc bufLen = none ∧ ∃ path, OnDisk s ack path) := by
  have shape := inv.shapes ack member
  unfold readPending
  cases search : s.findInPendingBlocks ack.loc with
  | some b =>
      left
      have pending : b ∈ s.pendingBlocks := List.mem_of_find?_eq_some search
      have covered : s.covers ack.loc b = true := List.find?_some search
      have inside : InBlock (s.blocks b) ack := by
        rcases (inv.blocks b pending).entries ack member with inside | clear
        · exact inside
        · exact absurd clear (not_clear_of_covered shape covered)
      simp only [inside.entry.size, replyFor]
      split
      · rfl
      · rw [inside.entry.bytes]
  | none =>
      right
      refine ⟨rfl, ?_⟩
      rcases inv.placed ack member with ⟨b, holds, inside⟩ | disk
      · have uncovered := List.find?_eq_none.1 search b (inv.holder_pending holds)
        exact absurd (inside.covered shape) uncovered
      · exact disk

/-- The bytes that a read of the file transfers hold the whole entry. -/
theorem OnDisk.read_back {path : SegmentPath} (disk : OnDisk s ack path) {config : NvmeStoreConfig}
    (shape : AckShape config ack) :
    ((s.files path).pread ack.loc.offset ack.loc.diskSize).length = ack.loc.diskSize ∧
      EntryAt (patch (fun _ => 0) 0 ((s.files path).pread ack.loc.offset ack.loc.diskSize)) 0
        ack.data := by
  have positive := shape.positive
  have size := disk.size
  have whole : min ack.loc.diskSize ((s.files path).size - ack.loc.offset) = ack.loc.diskSize := by
    omega
  constructor
  · simp [File.pread, whole]
  · unfold File.pread
    rw [whole]
    have entry : EntryAt (s.files path).data (ack.loc.offset + 0) ack.data := disk.entry
    exact EntryAt.patch_copy (fun _ => 0) 0 ack.loc.diskSize (by omega) entry

/-- A successful read of the file answers rightly once the entry is on disk. -/
theorem OnDisk.read_disk {path : SegmentPath} (disk : OnDisk s ack path) {config : NvmeStoreConfig}
    (shape : AckShape config ack) (nonempty : ack.data ≠ []) (bufLen attempt : Nat) :
    s.readDisk path ack.loc bufLen attempt true = some (replyFor ack.data bufLen) := by
  rcases disk.read_back shape with ⟨length, copied⟩
  have notEmpty : ack.data.length ≠ 0 := by simpa using nonempty
  unfold readDisk
  simp only [length, if_true]
  rw [if_neg (Int.lt_irrefl _)]
  simp only [copied.size, notEmpty, false_or, false_and, if_false, replyFor]
  split
  · rfl
  · rw [copied.bytes]

/-- An empty entry is never read back from the file, and a read that fails
returns nothing; a read that returns `kOk` has the bytes of the entry. -/
theorem OnDisk.read_disk_sound {path : SegmentPath} (disk : OnDisk s ack path)
    {config : NvmeStoreConfig} (shape : AckShape config ack) {bufLen attempt : Nat} {readOk : Bool}
    {reply : ReadReply} (read : s.readDisk path ack.loc bufLen attempt readOk = some reply)
    (ok : reply.status = .kOk) : reply.bytes = ack.data := by
  rcases disk.read_back shape with ⟨_, copied⟩
  unfold readDisk at read
  simp only at read
  rw [copied.size] at read
  split_ifs at read
  all_goals
    cases read
    try contradiction
  all_goals exact copied.bytes

end Readers

/-! ## What keeps an entry on disk -/

section Moves

variable {s : BlobStore} {flush : FlushPc} {asleep : Bool} {acked : List Ack} {ack : Ack}
  {io : SegmentIo}

theorem OnDisk.same {path : SegmentPath} (disk : OnDisk s ack path) {after : BlobStore}
    (fd : after.segmentFd ack.loc.segmentId = s.segmentFd ack.loc.segmentId)
    (file : after.files path = s.files path) : OnDisk after ack path :=
  { fd := fd.trans disk.fd, size := by rw [file]; exact disk.size, entry := by rw [file]; exact disk.entry }

theorem BlockOk.same {block : WriteBlock} (ok : BlockOk s acked block) {after : BlobStore}
    (fd : after.segmentFd block.segmentId = s.segmentFd block.segmentId) :
    BlockOk after acked block := by
  rcases ok.fd with ⟨path, blockFd, segmentFd⟩
  exact { ok with fd := ⟨path, blockFd, fd.trans segmentFd⟩ }

/-! ## Creating a segment -/

/-- While the counter has not wrapped, the next id is not in use. -/
theorem StoreInv.unused (inv : StoreInv s flush asleep acked) (room : s.nextSegmentId + 1 < 2 ^ 32) :
    ∀ seg ∈ s.segments, seg.id ≠ s.freshSegment.id := by
  intro seg member
  have reduced : s.freshSegment.id = s.nextSegmentId := Nat.mod_eq_of_lt (by omega)
  rw [reduced]
  rcases inv.ids seg member with below | last <;> omega

theorem created_segment_fd (opened : io.opened = true)
    (unused : ∀ seg ∈ s.segments, seg.id ≠ s.freshSegment.id) (segmentId : Nat) :
    (s.createNewSegment io).segmentFd segmentId =
      if segmentId = s.freshSegment.id then s.freshSegment.fd else s.segmentFd segmentId := by
  have appended := segment_fd_append s.segments s.freshSegment segmentId unused
  rw [segmentFd, (create_opened s io opened).1]
  exact appended

theorem created_files (opened : io.opened = true) (path : SegmentPath)
    (other : path ≠ .canonical s.freshSegment.id) :
    (s.createNewSegment io).files path = s.files path := by
  have different : path ≠ .canonical (s.nextSegmentId % 2 ^ 32) := other
  cases header : io.header <;>
    simp only [createNewSegment, opened, if_true, header, syncWrite,
      Function.update_of_ne different]

/-- What was known before is about other segments and other files. -/
theorem StoreInv.known_is_old (inv : StoreInv s flush asleep acked)
    (room : s.nextSegmentId + 1 < 2 ^ 32) {segmentId : Nat} {path : SegmentPath}
    (found : s.segmentFd segmentId = some path) :
    segmentId ≠ s.freshSegment.id ∧ path ≠ .canonical s.freshSegment.id := by
  have reduced : s.freshSegment.id = s.nextSegmentId := Nat.mod_eq_of_lt (by omega)
  rcases segment_fd_member found with ⟨seg, member, id, _⟩
  have other : segmentId ≠ s.freshSegment.id := id ▸ inv.unused room seg member
  refine ⟨other, ?_⟩
  intro same
  have parsed := inv.path_id found
  rw [same, SegmentPath.parsedId, Nat.mod_eq_of_lt (by omega)] at parsed
  exact other parsed.symm

theorem StoreInv.create_keeps (inv : StoreInv s flush asleep acked) (opened : io.opened = true)
    (room : s.nextSegmentId + 1 < 2 ^ 32) {path : SegmentPath} (disk : OnDisk s ack path) :
    OnDisk (s.createNewSegment io) ack path := by
  rcases inv.known_is_old room disk.fd with ⟨otherId, otherPath⟩
  apply disk.same _ (created_files opened path otherPath)
  rw [created_segment_fd opened (inv.unused room), if_neg otherId]

/-- A new segment beside the active one, which stays the active one. -/
theorem StoreInv.create_aside (inv : StoreInv s flush asleep acked) (opened : io.opened = true)
    (room : s.nextSegmentId + 1 < 2 ^ 32) :
    StoreInv { s.createNewSegment io with activeSegment := s.activeSegment } flush asleep acked := by
  have unused := inv.unused room
  have reduced : s.freshSegment.id = s.nextSegmentId := Nat.mod_eq_of_lt (by omega)
  have lookup := created_segment_fd opened unused
  rcases create_opened s io opened with ⟨segments, _⟩
  have pending : pendingBlocks { s.createNewSegment io with activeSegment := s.activeSegment } =
      s.pendingBlocks := by
    simp [pendingBlocks]
  have holders : BlobStore.holders { s.createNewSegment io with activeSegment := s.activeSegment }
      flush asleep = s.holders flush asleep := by
    simp [BlobStore.holders]
  refine
    { running := by simpa using inv.running
      capacity := by simpa using inv.capacity
      smallBlocks := by simpa using inv.smallBlocks
      roles := ?_
      flushing := by simpa using inv.flushing
      ids := ?_
      paths := ?_
      shapes := by simpa using inv.shapes
      known := ?_
      blocks := ?_
      placed := ?_
      written := ?_
      frontier := ?_ }
  · rw [holders]
    simpa using inv.roles
  · intro seg member
    simp only [segments, List.mem_append, List.mem_singleton] at member
    simp only [create_next]
    rcases member with before | rfl
    · rcases inv.ids seg before with below | last
      · exact .inl (by omega)
      · exact .inr last
    · exact .inl (by omega)
  · intro seg member path fd
    simp only [segments, List.mem_append, List.mem_singleton] at member
    rcases member with before | rfl
    · exact inv.paths seg before path fd
    · cases fd
      exact Nat.mod_mod _ _
  · intro ack member
    have found : (s.createNewSegment io).segmentFd ack.loc.segmentId ≠ none := by
      rw [lookup]
      split_ifs
      · simp [freshSegment]
      · exact inv.known ack member
    exact found
  · intro b isPending
    rw [pending] at isPending
    simp only [create_blocks]
    have ok := inv.blocks b isPending
    rcases ok.fd with ⟨path, _, found⟩
    have same := lookup (s.blocks b).segmentId
    rw [if_neg (inv.known_is_old room found).1] at same
    exact ok.same same
  · intro ack member
    rw [holders]
    simp only [create_blocks]
    rcases inv.placed ack member with holder | ⟨path, disk⟩
    · exact .inl holder
    · exact .inr ⟨path, (inv.create_keeps opened room disk).same rfl rfl⟩
  · intro b isWritten ack member inside
    simp only [create_blocks] at inside
    rcases inv.written b isWritten ack member inside with ⟨path, disk⟩
    exact ⟨path, (inv.create_keeps opened room disk).same rfl rfl⟩
  · rcases inv.frontier with ⟨seg, frontier, cursor⟩
    refine ⟨seg, ⟨?_, ?_, frontier.entries, ?_⟩, by simpa using cursor⟩
    · have current := frontier.current
      unfold currentSegment at current ⊢
      rcases Option.bind_eq_some_iff.1 current with ⟨i, activeIs, found⟩
      refine Option.bind_eq_some_iff.2 ⟨i, activeIs, ?_⟩
      simp only [segments]
      rw [List.getElem?_append_left (List.getElem?_eq_some_iff.1 found).1]
      exact found
    · rcases frontier.fd with ⟨path, fd, found⟩
      have same := lookup seg.id
      rw [if_neg (inv.known_is_old room found).1] at same
      exact ⟨path, fd, same.trans found⟩
    · intro b isPending
      rw [pending] at isPending
      simp only [create_blocks]
      exact frontier.blocks b isPending

theorem StoreInv.create (inv : StoreInv s flush true acked) (opened : io.opened = true)
    (room : s.nextSegmentId + 1 < 2 ^ 32) : StoreInv (s.createNewSegment io) flush true acked := by
  have aside := inv.create_aside opened room
  have lookup := created_segment_fd opened (inv.unused room)
  rcases create_opened s io opened with ⟨segments, activeIs⟩
  have pending : (s.createNewSegment io).pendingBlocks = s.pendingBlocks := by
    simp [pendingBlocks]
  refine
    { aside with
      capacity := aside.capacity
      roles := aside.roles
      ids := aside.ids
      paths := aside.paths
      known := aside.known
      blocks := fun b isPending => (aside.blocks b isPending).same rfl
      placed := ?_
      written := ?_
      frontier := ?_ }
  · intro ack member
    rcases aside.placed ack member with holder | ⟨path, disk⟩
    · exact .inl holder
    · exact .inr ⟨path, disk.same rfl rfl⟩
  · intro b isWritten ack member inside
    rcases aside.written b isWritten ack member inside with ⟨path, disk⟩
    exact ⟨path, disk.same rfl rfl⟩
  · refine ⟨s.freshSegment, ?_, by simp⟩
    constructor
    · rw [currentSegment, activeIs, segments]
      simp
    · exact ⟨_, rfl, by rw [lookup, if_pos rfl]; rfl⟩
    · intro ack member same
      cases found : s.segmentFd ack.loc.segmentId with
      | none => exact absurd found (inv.known ack member)
      | some path => exact absurd same (inv.known_is_old room found).1
    · intro b isPending same
      rw [pending] at isPending
      rw [create_blocks] at same
      rcases (inv.blocks b isPending).fd with ⟨path, _, found⟩
      exact absurd same (inv.known_is_old room found).1

/-! ## Rotating -/

/-- The active block joins the queue, and the writer is about to take another. -/
theorem StoreInv.queued (inv : StoreInv s flush false acked) {b : Nat}
    (isActive : s.activeBlock = some b) : StoreInv (s.queued b) flush true acked := by
  have pending : ∀ c, c ∈ (s.queued b).pendingBlocks → c ∈ s.pendingBlocks := by
    intro c member
    simp only [pendingBlocks, BlobStore.queued, List.mem_append, List.mem_singleton, isActive] at member ⊢
    rcases member with (active | flushing) | waiting | rfl
    · exact .inl (.inl active)
    · exact .inl (.inr flushing)
    · exact .inr waiting
    · exact .inl (.inl (by simp))
  have holds : ∀ c, c ∈ s.holders flush false → c ∈ (s.queued b).holders flush true := by
    intro c member
    simp only [holders, BlobStore.queued, List.mem_append, List.mem_singleton, isActive] at member ⊢
    rcases member with (active | flushing) | waiting
    · exact .inr (.inr (by simpa using active))
    · exact .inl (.inr flushing)
    · exact .inr (.inl waiting)
  rcases inv.frontier with ⟨seg, frontier, _⟩
  refine
    { running := inv.running
      capacity := inv.capacity
      smallBlocks := inv.smallBlocks
      roles := ?_
      flushing := inv.flushing
      ids := inv.ids
      paths := inv.paths
      shapes := inv.shapes
      known := inv.known
      blocks := ?_
      placed := ?_
      written := ?_
      frontier := ?_ }
  · intro c
    have once := inv.roles c
    simp only [holders, BlobStore.queued, isActive, List.count_append, List.count_cons, List.count_nil,
      Option.toList_some, if_true, Bool.false_eq_true, if_false] at once ⊢
    omega
  · intro c member
    have ok := inv.blocks c (pending c member)
    exact ok.same rfl
  · intro ack member
    rcases inv.placed ack member with ⟨c, holder, inside⟩ | ⟨path, disk⟩
    · exact .inl ⟨c, holds c holder, inside⟩
    · exact .inr ⟨path, disk.same rfl rfl⟩
  · intro c isWritten ack member inside
    rcases inv.written c isWritten ack member inside with ⟨path, disk⟩
    exact ⟨path, disk.same rfl rfl⟩
  · refine ⟨seg, ⟨frontier.current, frontier.fd, frontier.entries, ?_⟩, by simp⟩
    intro c member
    exact frontier.blocks c (pending c member)

/-- The store after a free block became active at the end of a segment. -/
def rotated (s : BlobStore) (next : Nat) (rest : List Nat) (seg : SegmentInfo) : BlobStore :=
  ({ s with freePool := rest, activeBlock := some next } : BlobStore).resetBlock next seg

theorem StoreInv.rotated (inv : StoreInv s flush true acked) (next : Nat) (rest : List Nat)
    {seg : SegmentInfo} (free : s.freePool = next :: rest) (current : s.currentSegment = some seg)
    (room : seg.writeOffset + blockCapacity s.config ≤ extentLimit s.config) :
    StoreInv (s.rotated next rest seg) flush false acked := by
  rcases inv.frontier with ⟨last, frontier, _⟩
  have sameSeg : seg = last := Option.some.inj (current.symm.trans frontier.current)
  subst sameSeg
  -- the block comes from the pool, so no entry is held in it
  have notHeld : next ∉ s.holders flush true := by
    intro holds
    have once := inv.roles next
    have held := List.count_pos_iff.2 holds
    rw [free, List.count_append, List.count_cons_self] at once
    omega
  have other : ∀ c, c ≠ next → (s.rotated next rest seg).blocks c = s.blocks c := by
    intro c different
    exact reset_block_other _ _ _ different
  have fresh : (s.rotated next rest seg).blocks next =
      (s.blocks next).reset seg.id seg.writeOffset seg.fd := reset_block_block _ _ _
  have pending : ∀ c, c ∈ (s.rotated next rest seg).pendingBlocks → c = next ∨
      (c ≠ next ∧ c ∈ s.holders flush true) := by
    intro c member
    by_cases same : c = next
    · exact .inl same
    · refine .inr ⟨same, ?_⟩
      have flushing : (s.rotated next rest seg).flushingBlock = flush.block := inv.flushing
      simp only [pendingBlocks, flushing, List.mem_append] at member
      simp only [holders, List.mem_append]
      rcases member with (active | flushing) | waiting
      · have active' : c ∈ (some next).toList := active
        rw [Option.toList_some, List.mem_singleton] at active'
        exact absurd active' same
      · exact .inl (.inr flushing)
      · exact .inr waiting
  refine
    { running := inv.running
      capacity := ?_
      smallBlocks := inv.smallBlocks
      roles := ?_
      flushing := inv.flushing
      ids := inv.ids
      paths := inv.paths
      shapes := inv.shapes
      known := inv.known
      blocks := ?_
      placed := ?_
      written := ?_
      frontier := ?_ }
  · intro c
    by_cases same : c = next
    · rw [same, fresh]
      exact inv.capacity next
    · rw [other c same]
      exact inv.capacity c
  · intro c
    have once := inv.roles c
    simp only [holders, free, BlobStore.rotated, resetBlock, setBlock, List.count_append,
      List.count_cons, List.count_nil, Option.toList_some, if_true, Bool.false_eq_true,
      if_false] at once ⊢
    omega
  · intro c member
    rcases pending c member with rfl | ⟨different, holds⟩
    · rw [fresh]
      rcases frontier.fd with ⟨path, fd, found⟩
      refine ⟨by simp [WriteBlock.reset], by simp [WriteBlock.reset], ⟨path, fd, found⟩, ?_⟩
      intro ack inList
      right
      intro inSegment
      exact .inl (frontier.entries ack inList inSegment.symm)
    · rw [other c different]
      exact (inv.blocks c (inv.holder_pending holds)).same rfl
  · intro ack member
    rcases inv.placed ack member with ⟨c, holder, inside⟩ | ⟨path, disk⟩
    · have different : c ≠ next := by
        intro same
        exact notHeld (same ▸ holder)
      refine .inl ⟨c, ?_, by rw [other c different]; exact inside⟩
      have holds : c ∈ flush.block.toList ++ s.flushQueue := by simpa [holders] using holder
      simp only [holders, List.append_assoc, List.mem_append]
      exact .inr (List.mem_append.1 holds)
    · exact .inr ⟨path, disk.same rfl rfl⟩
  · intro c isWritten ack member inside
    have different : c ≠ next := by
      intro same
      apply notHeld
      simp [holders, isWritten, FlushPc.block, same]
    rw [other c different] at inside
    rcases inv.written c isWritten ack member inside with ⟨path, disk⟩
    exact ⟨path, disk.same rfl rfl⟩
  · refine ⟨seg, ⟨frontier.current, frontier.fd, frontier.entries, ?_⟩, ?_⟩
    · intro c member inSegment
      rcases pending c member with rfl | ⟨different, holds⟩
      · rw [fresh]
        exact Nat.le_refl _
      · rw [other c different] at inSegment ⊢
        exact frontier.blocks c (inv.holder_pending holds) inSegment
    · intro _ b isActive
      have same : next = b := Option.some.inj isActive
      subst same
      rw [fresh]
      exact ⟨rfl, rfl, room⟩

/-! ## Appending -/

def newAck (s : BlobStore) (b : Nat) (request : WriteRequest) : Ack :=
  { loc := blockLocation (s.blocks b) request.data.length, data := request.data, block := some b }

theorem InBlock.append {block : WriteBlock} (inside : InBlock block ack) {request : WriteRequest}
    {config : NvmeStoreConfig} (shape : AckShape config ack) (short : request.data.length < 2 ^ 32) :
    InBlock (s.appendToBlock block request) ack := by
  have positive := shape.positive
  have stop := inside.stop
  have start := inside.start
  refine ⟨inside.segment, inside.start, ?_, ?_⟩
  · simp only [appendToBlock]
    omega
  · apply EntryAt.congr _ inside.entry
    intro i bound
    apply lay_entry_outside _ _ _ _ _ _ (entry_fits _ short)
    left
    simp only [appendToBlock]
    omega

theorem InBlock.fresh {block : WriteBlock} {request : WriteRequest}
    (short : request.data.length < 2 ^ 32) (small : entryDiskSize request.data.length < 2 ^ 31)
    {b : Option Nat} : InBlock (s.appendToBlock block request)
      { loc := blockLocation block request.data.length, data := request.data, block := b } := by
  refine ⟨rfl, Nat.le_add_right _ _, ?_, ?_⟩
  · simp only [blockLocation, appendToBlock]
    omega
  · simp only [blockLocation, appendToBlock, Nat.add_sub_cancel_left]
    exact lay_entry_at _ _ _ _ _ rfl short

theorem segment_fd_appended (b i : Nat) (request : WriteRequest) (segmentId : Nat) :
    (s.appended b i request).segmentFd segmentId = s.segmentFd segmentId :=
  segment_fd_modify s.segments i segmentId _ (fun _ => rfl) fun _ => rfl

theorem new_ack_shape {b : Nat} {request : WriteRequest} (short : request.data.length < 2 ^ 32)
    (small : entryDiskSize request.data.length < 2 ^ 31)
    (limit : (s.blocks b).segmentOffset + (s.blocks b).pos + entryDiskSize request.data.length ≤
      extentLimit s.config) : AckShape s.config (s.newAck b request) := by
  have whole : entryDiskSize request.data.length % 2 ^ 32 = entryDiskSize request.data.length :=
    Nat.mod_eq_of_lt (by omega)
  refine
    { length := Nat.mod_eq_of_lt short
      diskSize := whole
      short := short
      small := ?_
      limit := ?_ }
  · simp only [newAck, blockLocation, whole]
    exact small
  · simp only [newAck, blockLocation, whole]
    exact limit

/-- The old entries of the block keep their bytes, the others stay clear of its
longer range, and the new entry is clear of every other block. -/
theorem FrontierOk.entries_append {b i c : Nat} {seg : SegmentInfo} {request : WriteRequest}
    (frontier : FrontierOk s acked s.pendingBlocks seg) (shapes : ∀ ack ∈ acked, AckShape s.config ack)
    (segment : (s.blocks b).segmentId = seg.id)
    (atEnd : (s.blocks b).segmentOffset + (s.blocks b).pos = seg.writeOffset)
    (short : request.data.length < 2 ^ 32) (small : entryDiskSize request.data.length < 2 ^ 31)
    (isPending : c ∈ s.pendingBlocks)
    (entries : ∀ ack ∈ acked, InBlock (s.blocks c) ack ∨ Clear (s.blocks c) ack) :
    ∀ ack ∈ s.newAck b request :: acked, InBlock ((s.appended b i request).blocks c) ack ∨
      Clear ((s.appended b i request).blocks c) ack := by
  intro ack member
  by_cases same : c = b
  · subst same
    rw [appended_block]
    rcases List.mem_cons.1 member with rfl | old
    · exact .inl (.fresh short small)
    · rcases entries ack old with inside | clear
      · exact .inl (inside.append (shapes ack old) short)
      · right
        intro inSegment
        have inSegment' : (s.blocks c).segmentId = ack.loc.segmentId := inSegment
        have before := frontier.entries ack old (by rw [← inSegment', segment])
        have positive := (shapes ack old).positive
        unfold kEntryHeaderSize at positive
        rcases clear inSegment' with first | last
        · exact .inl first
        · omega
  · rw [appended_other _ _ _ _ same]
    rcases List.mem_cons.1 member with rfl | old
    · right
      intro inSegment
      have before := frontier.blocks c isPending (inSegment.trans segment)
      have newOffset : (s.newAck b request).loc.offset = seg.writeOffset := atEnd
      rw [newOffset]
      exact .inr before
    · exact entries ack old

/-- The active segment ends where its last block and the new entry do. -/
theorem FrontierOk.append {b i : Nat} {seg : SegmentInfo} {request : WriteRequest}
    (frontier : FrontierOk s acked s.pendingBlocks seg) (activeIs : s.activeSegment = some i)
    (atEnd : (s.blocks b).segmentOffset + (s.blocks b).pos = seg.writeOffset) :
    FrontierOk (s.appended b i request) (s.newAck b request :: acked)
      (s.appended b i request).pendingBlocks
      (seg.advance (entryDiskSize request.data.length)) := by
  have found : s.segments[i]? = some seg :=
    (current_segment_at s activeIs).symm.trans frontier.current
  refine
    { current := appended_segment b request activeIs found
      fd := ?_
      entries := ?_
      blocks := ?_ }
  · rcases frontier.fd with ⟨path, fd, named⟩
    exact ⟨path, fd, (segment_fd_appended b i request _).trans named⟩
  · intro ack member inSegment
    rw [advance_write_offset]
    rcases List.mem_cons.1 member with rfl | old
    · have size := Nat.mod_le (entryDiskSize request.data.length) (2 ^ 32)
      simp only [newAck, blockLocation]
      omega
    · have before := frontier.entries ack old inSegment
      omega
  · intro c isPending inSegment
    rw [advance_write_offset]
    by_cases same : c = b
    · subst same
      rw [appended_block]
      simp only [appendToBlock]
      omega
    · rw [appended_other _ _ _ _ same] at inSegment ⊢
      have before := frontier.blocks c isPending inSegment
      omega

theorem StoreInv.append (inv : StoreInv s flush false acked) {b i : Nat} (request : WriteRequest)
    (isActive : s.activeBlock = some b) (activeIs : s.activeSegment = some i)
    (short : request.data.length < 2 ^ 32)
    (room : (s.blocks b).pos + entryDiskSize request.data.length ≤ (s.blocks b).capacity) :
    StoreInv (s.appended b i request) flush false (s.newAck b request :: acked) := by
  have capacity := inv.capacity b
  have smallBlocks := inv.smallBlocks
  have small : entryDiskSize request.data.length < 2 ^ 31 := by omega
  have lookup := segment_fd_appended (s := s) b i request
  have keepsDisk : ∀ {ack : Ack} {path : SegmentPath}, OnDisk s ack path →
      OnDisk (s.appended b i request) ack path := fun disk => disk.same (lookup _) rfl
  rcases inv.frontier with ⟨seg, frontier, cursor⟩
  rcases cursor rfl b isActive with ⟨segment, atEnd, below⟩
  have newShape : AckShape s.config (s.newAck b request) := new_ack_shape short small (by omega)
  have bPending : b ∈ s.pendingBlocks := by simp [pendingBlocks, isActive]
  have bHolds : b ∈ s.holders flush false := by simp [holders, isActive]
  refine
    { running := inv.running
      capacity := ?_
      smallBlocks := inv.smallBlocks
      roles := inv.roles
      flushing := inv.flushing
      ids := ?_
      paths := ?_
      shapes := ?_
      known := ?_
      blocks := ?_
      placed := ?_
      written := ?_
      frontier := ⟨_, frontier.append activeIs atEnd, ?_⟩ }
  · intro c
    rw [appended_capacity]
    exact inv.capacity c
  · intro other member
    rcases advanced_member member with ⟨old, listed, id, _⟩
    rw [id]
    exact inv.ids old listed
  · intro other member path fd
    rcases advanced_member member with ⟨old, listed, id, sameFd⟩
    rw [id]
    exact inv.paths old listed path (sameFd.symm.trans fd)
  · intro ack member
    rcases List.mem_cons.1 member with rfl | old
    · exact newShape
    · exact inv.shapes ack old
  · intro ack member
    rw [lookup]
    rcases List.mem_cons.1 member with rfl | old
    · rcases (inv.blocks b bPending).fd with ⟨path, _, fd⟩
      have named : s.segmentFd (s.newAck b request).loc.segmentId = some path := fd
      simp [named]
    · exact inv.known ack old
  · intro c isPending
    have ok := inv.blocks c isPending
    have entries := frontier.entries_append (i := i) inv.shapes segment atEnd short small isPending
      ok.entries
    by_cases same : c = b
    · subst same
      rw [appended_block] at entries ⊢
      rcases ok.fd with ⟨path, blockFd, fd⟩
      refine ⟨?_, ?_, ⟨path, blockFd, (lookup _).trans fd⟩, entries⟩
      · have alignedBefore := ok.aligned
        have alignedEntry := entry_disk_size_aligned request.data.length short
        simp only [appendToBlock]
        unfold kAlignment at *
        omega
      · simp only [appendToBlock]
        omega
    · rw [appended_other _ _ _ _ same] at entries ⊢
      rcases ok.fd with ⟨path, blockFd, fd⟩
      exact ⟨ok.aligned, ok.small, ⟨path, blockFd, (lookup _).trans fd⟩, entries⟩
  · intro ack member
    rcases List.mem_cons.1 member with rfl | old
    · exact .inl ⟨b, bHolds, by rw [appended_block]; exact .fresh short small⟩
    · rcases inv.placed ack old with ⟨c, holder, inside⟩ | ⟨path, disk⟩
      · refine .inl ⟨c, holder, ?_⟩
        by_cases same : c = b
        · subst same
          rw [appended_block]
          exact inside.append (inv.shapes ack old) short
        · rw [appended_other _ _ _ _ same]
          exact inside
      · exact .inr ⟨path, keepsDisk disk⟩
  · intro c isWritten ack member inside
    have different : c ≠ b := by
      intro same
      have once := inv.roles b
      simp only [holders, isActive, isWritten, FlushPc.block, same, List.count_append,
        Option.toList_some, List.count_cons_self, Bool.false_eq_true, if_false] at once
      omega
    rw [appended_other _ _ _ _ different] at inside
    rcases List.mem_cons.1 member with rfl | old
    · -- the block being flushed ends before the new entry
      have flushing : c ∈ s.pendingBlocks := by
        simp [pendingBlocks, inv.flushing, isWritten, FlushPc.block]
      have before := frontier.blocks c flushing (inside.segment.trans segment)
      have fits := newShape.positive
      have newOffset : (s.newAck b request).loc.offset = seg.writeOffset := atEnd
      have stop := inside.stop
      unfold kEntryHeaderSize at fits
      omega
    · rcases inv.written c isWritten ack old inside with ⟨path, disk⟩
      exact ⟨path, keepsDisk disk⟩
  · intro _ c isBlock
    have same : b = c := Option.some.inj (isActive.symm.trans isBlock)
    subst same
    rw [appended_block]
    refine ⟨segment, ?_, below⟩
    simp only [appendToBlock, advance_write_offset]
    omega

/-! ## Flushing -/

/-- The flush thread takes the front of the queue. -/
theorem StoreInv.flush_pop (inv : StoreInv s .idle asleep acked) {pc : FlushPc} {after : BlobStore}
    (ran : s.flushPop = some (pc, after)) : StoreInv after pc asleep acked := by
  unfold flushPop at ran
  split at ran
  · contradiction
  · rename_i b rest queue
    rcases inv.frontier with ⟨seg, frontier, cursor⟩
    have idle : s.flushingBlock = none := inv.flushing
    split at ran
    · rename_i emptyBlock
      cases ran
      have pending : ∀ c, c ∈ ({ s with flushQueue := rest, freePool := b :: s.freePool } :
          BlobStore).pendingBlocks → c ∈ s.pendingBlocks := by
        intro c member
        simp only [pendingBlocks, queue, List.mem_append, List.mem_cons] at member ⊢
        rcases member with before | later
        · exact .inl before
        · exact .inr (.inr later)
      refine
        { inv with
          roles := ?_
          blocks := fun c member => (inv.blocks c (pending c member)).same rfl
          placed := ?_
          written := by simp
          frontier := ⟨seg, ⟨frontier.current, frontier.fd, frontier.entries,
            fun c member => frontier.blocks c (pending c member)⟩, cursor⟩ }
      · intro c
        have once := inv.roles c
        simp only [holders, queue, List.count_append, List.count_cons] at once ⊢
        omega
      · intro ack member
        rcases inv.placed ack member with ⟨c, holder, inside⟩ | ⟨path, disk⟩
        · have notB : c ≠ b := by
            intro same
            subst same
            have positive := (inv.shapes ack member).positive
            have start := inside.start
            have stop := inside.stop
            unfold kEntryHeaderSize at positive
            omega
          refine .inl ⟨c, ?_, inside⟩
          simp only [holders, queue, List.mem_append, List.mem_cons] at holder ⊢
          rcases holder with before | same | later
          · exact .inl before
          · exact absurd same notB
          · exact .inr later
        · exact .inr ⟨path, disk.same rfl rfl⟩
    · cases ran
      have pending : ∀ c, c ∈ ({ s with flushQueue := rest, flushingBlock := some b } :
          BlobStore).pendingBlocks → c ∈ s.pendingBlocks := by
        intro c member
        simp only [pendingBlocks, queue, idle, List.mem_append, List.mem_cons, Option.toList_some,
          Option.toList_none, List.not_mem_nil, or_false] at member ⊢
        rcases member with (active | same) | later
        · exact .inl active
        · exact .inr (.inl same)
        · exact .inr (.inr later)
      refine
        { inv with
          roles := ?_
          flushing := rfl
          blocks := fun c member => (inv.blocks c (pending c member)).same rfl
          placed := ?_
          written := by simp
          frontier := ⟨seg, ⟨frontier.current, frontier.fd, frontier.entries,
            fun c member => frontier.blocks c (pending c member)⟩, cursor⟩ }
      · intro c
        have once := inv.roles c
        simp only [holders, queue, FlushPc.block, List.count_append, List.count_cons,
          Option.toList_some, Option.toList_none, List.count_nil] at once ⊢
        omega
      · intro ack member
        rcases inv.placed ack member with ⟨c, holder, inside⟩ | ⟨path, disk⟩
        · refine .inl ⟨c, ?_, inside⟩
          simp only [holders, queue, FlushPc.block, List.mem_append, List.mem_cons,
            Option.toList_some, Option.toList_none, List.not_mem_nil, or_false] at holder ⊢
          rcases holder with active | same | later
          · exact .inl (.inl active)
          · exact .inl (.inr same)
          · exact .inr later
        · exact .inr ⟨path, disk.same rfl rfl⟩

/-- The bytes of a block land in its file: its own entries are on disk after
that, and those on disk before stay there. -/
theorem StoreInv.flush_write (inv : StoreInv s flush asleep acked) {b : Nat}
    (isPending : b ∈ s.pendingBlocks) {ack : Ack} (member : ack ∈ acked) :
    (InBlock (s.blocks b) ack → ∃ path, OnDisk (s.flushWrite b .complete) ack path) ∧
      ∀ path, OnDisk s ack path → OnDisk (s.flushWrite b .complete) ack path := by
  have ok := inv.blocks b isPending
  have shape := inv.shapes ack member
  have positive := shape.positive
  have small := ok.small
  rcases ok.fd with ⟨path, fd, found⟩
  have aligned : alignUp (s.blocks b).pos kAlignment = (s.blocks b).pos :=
    align_up_aligned _ (by omega) ok.aligned
  have file : (s.flushWrite b .complete).files path =
      (s.files path).pwrite (s.blocks b).segmentOffset (slice (s.blocks b).buf 0 (s.blocks b).pos) := by
    simp only [flushWrite, syncWrite, fd, aligned, Function.update_self]
  have lookup : ∀ segmentId, (s.flushWrite b .complete).segmentFd segmentId = s.segmentFd segmentId :=
    fun _ => rfl
  have copies : InBlock (s.blocks b) ack → OnDisk (s.flushWrite b .complete) ack path := by
    intro inside
    have start := inside.start
    have stop := inside.stop
    refine ⟨?_, ?_, ?_⟩
    · rw [lookup, ← inside.segment]
      exact found
    · rw [file]
      simp only [File.pwrite, slice_length]
      omega
    · rw [file]
      have entry : EntryAt (s.blocks b).buf (0 + (ack.loc.offset - (s.blocks b).segmentOffset))
          ack.data := by
        rw [Nat.zero_add]
        exact inside.entry
      have copied := EntryAt.patch_copy (s.files path).data (s.blocks b).segmentOffset
        (s.blocks b).pos (by omega) entry
      have position : (s.blocks b).segmentOffset + (ack.loc.offset - (s.blocks b).segmentOffset) =
          ack.loc.offset := by omega
      rw [position] at copied
      exact copied
  refine ⟨fun inside => ⟨path, copies inside⟩, ?_⟩
  intro other disk
  by_cases same : other = path
  · subst same
    rcases ok.entries ack member with inside | clear
    · exact copies inside
    · -- the same file is the same segment, and the entry is outside the range
      have sameSegment : (s.blocks b).segmentId = ack.loc.segmentId := by
        rw [← inv.path_id found, ← inv.path_id disk.fd]
      have size := disk.size
      refine ⟨(lookup _).trans disk.fd, ?_, ?_⟩
      · rw [file]
        exact Nat.le_trans size (Nat.le_max_left _ _)
      · rw [file]
        apply disk.entry.patch_apart
        rw [slice_length]
        rcases clear sameSegment with before | after
        · left
          omega
        · right
          exact after
  · apply disk.same (lookup _)
    simp only [flushWrite, syncWrite, fd, Function.update_of_ne same]

theorem StoreInv.flush_written {b : Nat} (inv : StoreInv s (.writing b) asleep acked) :
    StoreInv (s.flushWrite b .complete) (.written b) asleep acked := by
  have flushing : b ∈ s.pendingBlocks := by
    simp [pendingBlocks, inv.flushing, FlushPc.block]
  rcases inv.frontier with ⟨seg, frontier, cursor⟩
  refine
    { inv with
      blocks := fun c member => (inv.blocks c member).same rfl
      placed := ?_
      written := ?_
      frontier := ⟨seg, ⟨frontier.current, frontier.fd, frontier.entries, frontier.blocks⟩, cursor⟩ }
  · intro ack member
    rcases inv.placed ack member with holder | ⟨path, disk⟩
    · exact .inl holder
    · exact .inr ⟨path, (inv.flush_write flushing member).2 path disk⟩
  · intro c same ack member inside
    cases same
    exact (inv.flush_write flushing member).1 inside

theorem StoreInv.flush_release {b : Nat} (inv : StoreInv s (.written b) asleep acked) :
    StoreInv (s.flushRelease b) .idle asleep acked := by
  rcases inv.frontier with ⟨seg, frontier, cursor⟩
  have pending : ∀ c, c ∈ (s.flushRelease b).pendingBlocks → c ∈ s.pendingBlocks := by
    intro c member
    simp only [pendingBlocks, flushRelease, Option.toList_none, List.append_nil,
      List.mem_append] at member ⊢
    rcases member with active | waiting
    · exact .inl (.inl active)
    · exact .inr waiting
  refine
    { inv with
      roles := ?_
      flushing := rfl
      blocks := fun c member => (inv.blocks c (pending c member)).same rfl
      placed := ?_
      written := by simp
      frontier := ⟨seg, ⟨frontier.current, frontier.fd, frontier.entries,
        fun c member => frontier.blocks c (pending c member)⟩, cursor⟩ }
  · intro c
    have once := inv.roles c
    simp only [holders, flushRelease, FlushPc.block, List.count_append, List.count_cons,
      Option.toList_some, Option.toList_none, List.count_nil] at once ⊢
    omega
  · intro ack member
    rcases inv.placed ack member with ⟨c, holder, inside⟩ | ⟨path, disk⟩
    · by_cases same : c = b
      · subst same
        rcases inv.written c rfl ack member inside with ⟨path, disk⟩
        exact .inr ⟨path, disk.same rfl rfl⟩
      · refine .inl ⟨c, ?_, inside⟩
        simp only [holders, flushRelease, FlushPc.block, Option.toList_some, Option.toList_none,
          List.append_nil, List.mem_append, List.mem_singleton] at holder ⊢
        rcases holder with (active | isB) | waiting
        · exact .inl active
        · exact absurd isB same
        · exact .inr waiting
    · exact .inr ⟨path, disk.same rfl rfl⟩

/-- Every step of the flush thread keeps the invariant when its write succeeds. -/
theorem StoreInv.flush_step (inv : StoreInv s flush asleep acked) {step : FlushStep}
    (succeeds : ∀ result, step = .write result → result = .complete) {pc : FlushPc}
    {after : BlobStore} (ran : s.flushStep flush step = some (pc, after)) :
    StoreInv after pc asleep acked := by
  unfold flushStep at ran
  split at ran
  · exact inv.flush_pop ran
  · rename_i b result
    cases ran
    rw [succeeds result rfl]
    exact inv.flush_written
  · rename_i b
    cases ran
    exact inv.flush_release
  · contradiction

/-! ## Sections of a write -/

/-- Looking for a segment does not depend on which block was just taken. -/
theorem seek_commutes (b : Nat) (rest : List Nat) : s.withNextBlock b rest io =
    { s.segmentForBlock b io with freePool := rest, activeBlock := some b } := by
  unfold withNextBlock segmentForBlock
  have same : ({ s with freePool := rest, activeBlock := some b } : BlobStore).currentSegment =
      s.currentSegment := rfl
  rw [same]
  cases s.currentSegment with
  | none =>
      simp only [createNewSegment]
      split <;> rfl
  | some seg =>
      simp only [createNewSegment]
      split
      · split <;> rfl
      · rfl

theorem StoreInv.seek (inv : StoreInv s flush true acked) (b : Nat) (opened : io.opened = true)
    (room : (s.segmentForBlock b io).nextSegmentId < 2 ^ 32) :
    StoreInv (s.segmentForBlock b io) flush true acked ∧
      ∃ seg, (s.segmentForBlock b io).currentSegment = some seg ∧ seg.fd ≠ none ∧
        seg.writeOffset + blockCapacity s.config ≤ extentLimit s.config := by
  rcases segment_for_block_cases s b io with created | ⟨stays, seg, current, fits⟩
  · rw [created] at room ⊢
    rw [create_next] at room
    refine ⟨inv.create opened room, s.freshSegment, ?_, by simp [freshSegment], ?_⟩
    · rcases create_opened s io opened with ⟨segments, activeIs⟩
      rw [currentSegment, activeIs, segments]
      simp
    · simp [freshSegment, extentLimit]
  · rw [stays]
    rcases inv.frontier with ⟨last, frontier, _⟩
    have sameSeg : seg = last := Option.some.inj (current.symm.trans frontier.current)
    subst sameSeg
    rcases frontier.fd with ⟨path, fd, _⟩
    refine ⟨inv, seg, current, by simp [fd], ?_⟩
    rw [inv.capacity b] at fits
    exact Nat.le_trans fits (Nat.le_max_left _ _)

/-- The block that was taken starts in the segment that was sought. -/
theorem StoreInv.turned (inv : StoreInv s flush true acked) {b i : Nat} {rest : List Nat}
    {seg : SegmentInfo} (opened : io.opened = true)
    (bound : (s.withNextBlock b rest io).nextSegmentId < 2 ^ 32) (free : s.freePool = b :: rest)
    (activeIs : (s.withNextBlock b rest io).activeSegment = some i)
    (found : (s.withNextBlock b rest io).segments[i]? = some seg) :
    StoreInv ((s.withNextBlock b rest io).resetBlock b seg) flush false acked := by
  rw [seek_commutes] at bound activeIs found ⊢
  rcases inv.seek b opened bound with ⟨sought, other, current, _, room⟩
  have currentIs : (s.segmentForBlock b io).currentSegment = some seg := by
    have position : (s.segmentForBlock b io).activeSegment = some i := activeIs
    rw [currentSegment, position]
    exact found
  have sameSeg : seg = other := Option.some.inj (currentIs.symm.trans current)
  subst sameSeg
  exact sought.rotated b rest (by rw [segment_for_block_free_pool]; exact free) current
    (by rw [segment_for_block_config]; exact room)

/-- An entry that fits a block fits the block that was just taken. -/
theorem StoreInv.turned_room (inv : StoreInv s flush true acked) (b : Nat) (rest : List Nat)
    (seg : SegmentInfo) {request : WriteRequest}
    (fits : entryDiskSize request.data.length ≤ blockCapacity s.config) :
    (((s.withNextBlock b rest io).resetBlock b seg).blocks b).pos + entryDiskSize request.data.length ≤
      (((s.withNextBlock b rest io).resetBlock b seg).blocks b).capacity := by
  rw [reset_block_block, next_block_blocks]
  simp only [WriteBlock.reset, inv.capacity b]
  omega

theorem StoreInv.acquire (inv : StoreInv s flush true acked) {request : WriteRequest}
    {outcome : WriteOutcome} {after : BlobStore} (opened : io.opened = true)
    (short : request.data.length ≤ 2 ^ 32 - 1 - kEntryHeaderSize)
    (fits : entryDiskSize request.data.length ≤ blockCapacity s.config)
    (bound : after.nextSegmentId < 2 ^ 32) (cases : AcquireCases s request io outcome after) :
    StoreInv after flush (outcome = .waiting) (StoreSystem.recorded acked request outcome after) := by
  cases cases with
  | sleeps empty running => simpa [StoreSystem.recorded] using inv
  | stopped empty halted => exact absurd inv.running (by simp [halted])
  | noSegment b rest free missing =>
      rw [seek_commutes] at bound missing
      rcases inv.seek b opened bound with ⟨_, seg, current, usable, _⟩
      exact absurd (missing seg current) usable
  | appends b rest seg i free activeIs found usable =>
      have fresh := inv.turned opened bound free activeIs found
      have appended := fresh.append request (next_block_active_block s b io rest) activeIs
        (by unfold kEntryHeaderSize at short; omega) (inv.turned_room b rest seg fits)
      have reset : ((s.withNextBlock b rest io).resetBlock b seg).blocks b =
          (s.blocks b).reset seg.id seg.writeOffset seg.fd := by
        rw [reset_block_block, next_block_blocks]
      rw [newAck, reset] at appended
      have active : (((s.withNextBlock b rest io).resetBlock b seg).appended b i request).activeBlock =
          some b := next_block_active_block s b io rest
      simp only [StoreSystem.recorded, active]
      exact appended

theorem StoreInv.enter (inv : StoreInv s flush false acked) {request : WriteRequest}
    {outcome : WriteOutcome} {after : BlobStore} (opened : io.opened = true)
    (bound : after.nextSegmentId < 2 ^ 32) (cases : EnterCases s request io outcome after) :
    StoreInv after flush (outcome = .waiting) (StoreSystem.recorded acked request outcome after) := by
  cases cases with
  | refused status => simpa [StoreSystem.recorded] using inv
  | goesDirect b isActive long short => simpa [StoreSystem.recorded] using inv
  | rotates b isActive fits full short rest =>
      apply (inv.queued isActive).acquire opened short _ bound rest
      rw [inv.capacity b] at fits
      exact fits
  | appends b i isActive room short current =>
      have appended := inv.append request isActive current (by unfold kEntryHeaderSize at short; omega) room
      rw [newAck] at appended
      simpa [StoreSystem.recorded, isActive] using appended

/-! ## What is on disk stays there -/

theorem StoreInv.seek_keeps (inv : StoreInv s flush true acked) (b : Nat) (opened : io.opened = true)
    (room : (s.segmentForBlock b io).nextSegmentId < 2 ^ 32) {path : SegmentPath}
    (disk : OnDisk s ack path) : OnDisk (s.segmentForBlock b io) ack path := by
  rcases segment_for_block_cases s b io with created | ⟨stays, _⟩
  · rw [created] at room ⊢
    rw [create_next] at room
    exact inv.create_keeps opened room disk
  · rw [stays]
    exact disk

theorem StoreInv.acquire_keeps (inv : StoreInv s flush true acked) {request : WriteRequest}
    {outcome : WriteOutcome} {after : BlobStore} (opened : io.opened = true)
    (bound : after.nextSegmentId < 2 ^ 32) (cases : AcquireCases s request io outcome after)
    {path : SegmentPath} (disk : OnDisk s ack path) : OnDisk after ack path := by
  cases cases with
  | sleeps empty running => exact disk
  | stopped empty halted => exact disk.same rfl rfl
  | noSegment b rest free missing =>
      rw [seek_commutes] at bound ⊢
      exact (inv.seek_keeps b opened bound disk).same rfl rfl
  | appends b rest seg i free activeIs found usable =>
      rw [seek_commutes] at bound ⊢
      exact (inv.seek_keeps b opened bound disk).same (segment_fd_appended _ _ _ _) rfl

theorem StoreInv.enter_keeps (inv : StoreInv s flush false acked) {request : WriteRequest}
    {outcome : WriteOutcome} {after : BlobStore} (opened : io.opened = true)
    (bound : after.nextSegmentId < 2 ^ 32) (cases : EnterCases s request io outcome after)
    {path : SegmentPath} (disk : OnDisk s ack path) : OnDisk after ack path := by
  cases cases with
  | refused status => exact disk
  | goesDirect b isActive long short => exact disk
  | rotates b isActive fits full short rest =>
      have moved : OnDisk (s.queued b) ack path := disk.same rfl rfl
      exact (inv.queued isActive).acquire_keeps opened bound rest moved
  | appends b i isActive room short current => exact disk.same (segment_fd_appended _ _ _ _) rfl

theorem StoreInv.flush_step_keeps (inv : StoreInv s flush asleep acked) (member : ack ∈ acked)
    {step : FlushStep} (succeeds : ∀ result, step = .write result → result = .complete)
    {pc : FlushPc} {after : BlobStore} (ran : s.flushStep flush step = some (pc, after))
    {path : SegmentPath} (disk : OnDisk s ack path) : OnDisk after ack path := by
  unfold flushStep at ran
  split at ran
  · unfold flushPop at ran
    split at ran
    · contradiction
    · split at ran <;> cases ran <;> exact disk.same rfl rfl
  · rename_i b result
    cases ran
    rw [succeeds result rfl]
    have flushing : b ∈ s.pendingBlocks := by
      simp [pendingBlocks, inv.flushing, FlushPc.block]
    exact (inv.flush_write flushing member).2 path disk
  · cases ran
    exact disk.same rfl rfl
  · contradiction

/-! ## Marking an entry dead -/

/-- Only the count of live entries of one segment changes. -/
theorem mark_dead_cases (s : BlobStore) (loc : BlobLocation) : s.markDead loc = s ∨
    ∃ i change, s.markDead loc = { s with segments := s.segments.modify i change } ∧
      (∀ seg : SegmentInfo, (change seg).id = seg.id) ∧
      (∀ seg : SegmentInfo, (change seg).fd = seg.fd) ∧
      ∀ seg : SegmentInfo, (change seg).writeOffset = seg.writeOffset := by
  unfold markDead
  split
  · exact .inl rfl
  · rename_i i found
    refine .inr ⟨i, _, rfl, ?_, ?_, ?_⟩
    all_goals
      intro seg
      split <;> rfl

theorem modified_member {segments : List SegmentInfo} {i : Nat} {change : SegmentInfo → SegmentInfo}
    (sameId : ∀ seg, (change seg).id = seg.id) (sameFd : ∀ seg, (change seg).fd = seg.fd)
    {seg : SegmentInfo} (member : seg ∈ segments.modify i change) :
    ∃ old ∈ segments, seg.id = old.id ∧ seg.fd = old.fd := by
  rcases List.mem_iff_getElem?.1 member with ⟨k, found⟩
  rw [List.getElem?_modify, Option.map_eq_map, Option.map_eq_some_iff] at found
  rcases found with ⟨old, listed, rfl⟩
  refine ⟨old, List.mem_of_getElem? listed, ?_⟩
  split
  · exact ⟨sameId old, sameFd old⟩
  · exact ⟨rfl, rfl⟩

theorem StoreInv.mark_dead (inv : StoreInv s flush asleep acked) (loc : BlobLocation) :
    StoreInv (s.markDead loc) flush asleep acked := by
  rcases mark_dead_cases s loc with same | ⟨i, change, marked, sameId, sameFd, sameOffset⟩
  · rw [same]
    exact inv
  · rw [marked]
    have lookup : ∀ segmentId, segmentFd { s with segments := s.segments.modify i change } segmentId =
        s.segmentFd segmentId := fun segmentId =>
      segment_fd_modify s.segments i segmentId change sameId sameFd
    refine { inv with
      ids := ?_, paths := ?_, known := ?_, blocks := ?_, placed := ?_, written := ?_, frontier := ?_ }
    · intro seg member
      rcases modified_member sameId sameFd member with ⟨old, listed, id, _⟩
      rw [id]
      exact inv.ids old listed
    · intro seg member path fd
      rcases modified_member sameId sameFd member with ⟨old, listed, id, sameFile⟩
      rw [id]
      exact inv.paths old listed path (sameFile ▸ fd)
    · intro ack member
      rw [lookup]
      exact inv.known ack member
    · intro b pending
      exact (inv.blocks b pending).same (lookup _)
    · intro ack member
      rcases inv.placed ack member with holder | ⟨path, disk⟩
      · exact .inl holder
      · exact .inr ⟨path, disk.same (lookup _) rfl⟩
    · intro b isWritten ack member inside
      rcases inv.written b isWritten ack member inside with ⟨path, disk⟩
      exact ⟨path, disk.same (lookup _) rfl⟩
    · rcases inv.frontier with ⟨seg, frontier, active⟩
      have current := frontier.current
      rw [currentSegment, Option.bind_eq_some_iff] at current
      rcases current with ⟨k, activeIs, found⟩
      -- the active segment may be the one whose count changed
      let after := if i = k then change seg else seg
      have id : after.id = seg.id := by
        simp only [after]
        split_ifs
        · exact sameId seg
        · rfl
      have fd : after.fd = seg.fd := by
        simp only [after]
        split_ifs
        · exact sameFd seg
        · rfl
      have offset : after.writeOffset = seg.writeOffset := by
        simp only [after]
        split_ifs
        · exact sameOffset seg
        · rfl
      refine ⟨after, ?_, ?_⟩
      · constructor
        · simp only [currentSegment, activeIs, Option.bind_some, List.getElem?_modify, found,
            Option.map_eq_map, Option.map_some, after]
        · rcases frontier.fd with ⟨path, opened, known⟩
          exact ⟨path, fd.trans opened, by rw [id, lookup]; exact known⟩
        · intro ack member same
          rw [offset]
          exact frontier.entries ack member (same.trans id)
        · intro b pending same
          rw [offset]
          exact frontier.blocks b pending (same.trans id)
      · rw [id, offset]
        exact active

/-! ## Opening -/

theorem scan_ids (listing : List ScanEntry) (s : BlobStore)
    (ids : ∀ seg ∈ s.segments, seg.id < s.nextSegmentId ∨ seg.id = 2 ^ 32 - 1)
    (paths : ∀ seg ∈ s.segments, ∀ path, seg.fd = some path → path.parsedId % 2 ^ 32 = seg.id) :
    (∀ seg ∈ (listing.foldl scanSegment s).segments,
      seg.id < (listing.foldl scanSegment s).nextSegmentId ∨ seg.id = 2 ^ 32 - 1) ∧
    ∀ seg ∈ (listing.foldl scanSegment s).segments, ∀ path, seg.fd = some path →
      path.parsedId % 2 ^ 32 = seg.id := by
  induction listing generalizing s with
  | nil => exact ⟨ids, paths⟩
  | cons entry listing ih =>
      simp only [List.foldl_cons]
      apply ih
      · intro seg member
        unfold scanSegment at member ⊢
        simp only at member ⊢
        split at member
        · rename_i wasOpened
          rw [if_pos wasOpened]
          rcases List.mem_append.1 member with before | new
          · have known := ids seg before
            simp only
            omega
          · rw [List.mem_singleton] at new
            simp only [new]
            omega
        · rename_i notOpened
          rw [if_neg notOpened]
          have known := ids seg member
          simp only
          omega
      · intro seg member path fd
        unfold scanSegment at member
        simp only at member
        split at member
        · rcases List.mem_append.1 member with before | new
          · exact paths seg before path fd
          · rw [List.mem_singleton] at new
            rw [new] at fd ⊢
            cases fd
            rfl
        · exact paths seg member path fd

theorem StoreInv.opened {config : NvmeStoreConfig} {files : Files} {openIo : OpenIo}
    (ok : (openStore config files openIo).1 = .kOk) (small : blockCapacity config < 2 ^ 31)
    (bound : (openStore config files openIo).2.nextSegmentId < 2 ^ 32) :
    StoreInv (openStore config files openIo).2 .idle false [] := by
  rcases open_store_cases ok with ⟨listing, seg, b, rest, listed, current, pool, opened⟩
  rcases scan_frame listing (constructed config files) with ⟨blocks, configIs, _, queue, flushing⟩
  rcases scan_ids listing (constructed config files) (by simp [constructed])
    (by simp [constructed]) with ⟨ids, paths⟩
  let scanned := listing.foldl scanSegment (constructed config files)
  have idsBelow : ∀ other ∈ scanned.segments,
      other.id < scanned.nextSegmentId ∨ other.id = 2 ^ 32 - 1 := ids
  have distinct : (b :: rest).Nodup := by
    rw [← pool, List.nodup_reverse]
    exact List.nodup_range
  cases allowed : openIo.segment.opened with
  | false =>
      have missing : (withSegments config files listing openIo.segment).activeSegment = none :=
        (create_refused scanned openIo.segment allowed).2
      rw [currentSegment, missing] at current
      contradiction
  | true =>
      rcases create_opened scanned openIo.segment allowed with ⟨segments, activeIs⟩
      have nextIs : (withSegments config files listing openIo.segment).nextSegmentId =
          scanned.nextSegmentId + 1 := create_next scanned openIo.segment
      have room : scanned.nextSegmentId + 1 < 2 ^ 32 := by
        rw [opened] at bound
        exact nextIs ▸ bound
      have reduced : scanned.freshSegment.id = scanned.nextSegmentId := Nat.mod_eq_of_lt (by omega)
      have unused : ∀ other ∈ scanned.segments, other.id ≠ scanned.freshSegment.id := by
        intro other member
        rw [reduced]
        rcases idsBelow other member with below | last <;> omega
      have segmentsAre : (withSegments config files listing openIo.segment).segments =
          scanned.segments ++ [scanned.freshSegment] := segments
      have currentIs : seg = scanned.freshSegment := by
        have position : (withSegments config files listing openIo.segment).activeSegment =
            some scanned.segments.length := activeIs
        rw [currentSegment, position, segmentsAre] at current
        simpa using current.symm
      have waiting : StoreInv
          { withSegments config files listing openIo.segment with
            freePool := b :: rest
            flushRunning := true } .idle true [] := by
        have noBlock : (withSegments config files listing openIo.segment).activeBlock = none := by
          rw [withSegments, create_active_block]
          exact scan_active_block listing _
        have noQueue : (withSegments config files listing openIo.segment).flushQueue = [] := by
          rw [withSegments, create_flush_queue, queue]
          rfl
        have noFlush : (withSegments config files listing openIo.segment).flushingBlock = none := by
          rw [withSegments, create_flushing_block, flushing]
          rfl
        have noPending : pendingBlocks
            { withSegments config files listing openIo.segment with
              freePool := b :: rest
              flushRunning := true } = [] := by
          simp [pendingBlocks, noBlock, noQueue, noFlush]
        refine
          { running := rfl
            capacity := ?_
            smallBlocks := ?_
            roles := ?_
            flushing := noFlush
            ids := ?_
            paths := ?_
            shapes := by simp
            known := by simp
            blocks := by simp [noPending]
            placed := by simp
            written := by simp
            frontier := ?_ }
        · intro c
          have capacity : ((scanned.createNewSegment openIo.segment).blocks c).capacity =
              blockCapacity (scanned.createNewSegment openIo.segment).config := by
            rw [create_blocks, create_config, blocks, configIs]
            rfl
          exact capacity
        · have sameConfig : (scanned.createNewSegment openIo.segment).config = config := by
            rw [create_config, configIs]
            rfl
          have smallAfter : blockCapacity (scanned.createNewSegment openIo.segment).config < 2 ^ 31 := by
            rw [sameConfig]
            exact small
          exact smallAfter
        · intro c
          have once := List.nodup_iff_count_le_one.1 distinct c
          simpa [holders, FlushPc.block, noQueue] using once
        · intro other member
          simp only [segmentsAre, List.mem_append, List.mem_singleton] at member
          simp only [nextIs]
          rcases member with before | rfl
          · have known := idsBelow other before
            omega
          · exact .inl (by omega)
        · intro other member path fd
          simp only [segmentsAre, List.mem_append, List.mem_singleton] at member
          rcases member with before | rfl
          · exact paths other before path fd
          · cases fd
            exact Nat.mod_mod _ _
        · refine ⟨seg, ⟨current, ?_, by simp, by simp [noPending]⟩, by simp⟩
          rw [currentIs]
          refine ⟨_, rfl, ?_⟩
          have found := created_segment_fd (s := scanned) allowed unused scanned.freshSegment.id
          rw [if_pos rfl] at found
          exact found
      have ready := waiting.rotated b rest rfl current (by
        rw [currentIs]
        simp [freshSegment, extentLimit])
      rw [opened]
      exact ready

end Moves

end BlobStore

end AttentionDB
