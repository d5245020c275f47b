import AttentionDB.Storage.BlobStoreSystem

/-!
# What a section of a write can do

One case list for each section of `write`, and the fields of the store that
each building block leaves alone. The invariants below are derived from these
lists and never unfold the sections again.
-/

namespace AttentionDB.BlobStore

set_option autoImplicit false

variable {s after : BlobStore} {b : Nat} {request : WriteRequest} {io : SegmentIo}
  {outcome : WriteOutcome}

theorem to_int32_small (n : Nat) (small : n < 2 ^ 31) : toInt32 n = n := by
  have value : (BitVec.ofNat 32 n).toNat = n := by
    rw [BitVec.toNat_ofNat]
    omega
  rw [toInt32, BitVec.toInt_eq_toNat_of_lt (by omega), value]

/-! ## Fields that stay -/

section Frame

variable (s b io)

@[simp] theorem create_blocks : (s.createNewSegment io).blocks = s.blocks := by
  unfold createNewSegment
  split <;> rfl

@[simp] theorem create_config : (s.createNewSegment io).config = s.config := by
  unfold createNewSegment
  split <;> rfl

@[simp] theorem create_active_block : (s.createNewSegment io).activeBlock = s.activeBlock := by
  unfold createNewSegment
  split <;> rfl

@[simp] theorem create_flush_queue : (s.createNewSegment io).flushQueue = s.flushQueue := by
  unfold createNewSegment
  split <;> rfl

@[simp] theorem create_free_pool : (s.createNewSegment io).freePool = s.freePool := by
  unfold createNewSegment
  split <;> rfl

@[simp] theorem create_flushing_block :
    (s.createNewSegment io).flushingBlock = s.flushingBlock := by
  unfold createNewSegment
  split <;> rfl

@[simp] theorem create_flush_running :
    (s.createNewSegment io).flushRunning = s.flushRunning := by
  unfold createNewSegment
  split <;> rfl

@[simp] theorem create_next : (s.createNewSegment io).nextSegmentId = s.nextSegmentId + 1 := by
  unfold createNewSegment
  split <;> rfl

/-- The segment part of a rotation creates a segment or does nothing. -/
theorem segment_for_block_cases : s.segmentForBlock b io = s.createNewSegment io ∨
    (s.segmentForBlock b io = s ∧ ∃ seg, s.currentSegment = some seg ∧
      seg.writeOffset + (s.blocks b).capacity ≤ s.config.segmentSize.toNat) := by
  unfold segmentForBlock
  split
  · exact .inl rfl
  · rename_i seg current
    split
    · exact .inl rfl
    · exact .inr ⟨rfl, seg, current, by omega⟩

theorem segment_for_entry_cases (diskSize : Nat) :
    s.segmentForEntry diskSize io = s.createNewSegment io ∨
      (s.segmentForEntry diskSize io = s ∧ ∃ seg, s.currentSegment = some seg ∧
        seg.writeOffset + diskSize ≤ s.config.segmentSize.toNat) := by
  unfold segmentForEntry
  split
  · exact .inl rfl
  · rename_i seg current
    split
    · exact .inl rfl
    · exact .inr ⟨rfl, seg, current, by omega⟩

@[simp] theorem segment_for_block_blocks : (s.segmentForBlock b io).blocks = s.blocks := by
  rcases segment_for_block_cases s b io with same | same <;> simp [same]

@[simp] theorem segment_for_block_config : (s.segmentForBlock b io).config = s.config := by
  rcases segment_for_block_cases s b io with same | same <;> simp [same]

@[simp] theorem segment_for_block_active_block :
    (s.segmentForBlock b io).activeBlock = s.activeBlock := by
  rcases segment_for_block_cases s b io with same | same <;> simp [same]

@[simp] theorem segment_for_block_flush_queue :
    (s.segmentForBlock b io).flushQueue = s.flushQueue := by
  rcases segment_for_block_cases s b io with same | same <;> simp [same]

@[simp] theorem segment_for_block_free_pool : (s.segmentForBlock b io).freePool = s.freePool := by
  rcases segment_for_block_cases s b io with same | same <;> simp [same]

@[simp] theorem segment_for_block_flushing_block :
    (s.segmentForBlock b io).flushingBlock = s.flushingBlock := by
  rcases segment_for_block_cases s b io with same | same <;> simp [same]

end Frame

/-! ## Segments -/

section Segments

variable (s io)

def freshSegment (s : BlobStore) : SegmentInfo :=
  { id := s.nextSegmentId % 2 ^ 32
    fd := some (.canonical (s.nextSegmentId % 2 ^ 32))
    writeOffset := kSegmentHeaderSize
    entryCount := 0
    liveCount := 0 }

theorem create_opened (opened : io.opened = true) :
    (s.createNewSegment io).segments = s.segments ++ [s.freshSegment] ∧
      (s.createNewSegment io).activeSegment = some s.segments.length := by
  simp [createNewSegment, opened, freshSegment]

theorem create_refused (refused : io.opened = false) :
    (s.createNewSegment io).segments = s.segments ∧
      (s.createNewSegment io).activeSegment = none := by
  simp [createNewSegment, refused]

/-- The current segment is the one at the active position. -/
theorem current_segment_at {active : Nat} (current : s.activeSegment = some active) :
    s.currentSegment = s.segments[active]? := by
  rw [currentSegment, current]
  rfl

def FreshId (s : BlobStore) : Prop := ∀ seg ∈ s.segments, seg.id ≠ s.nextSegmentId % 2 ^ 32

/-- Looking up a segment after one of them was changed. -/
theorem modify_lookup {segments : List SegmentInfo} {change : SegmentInfo → SegmentInfo} {i k : Nat}
    {seg : SegmentInfo} : (segments.modify i change)[k]? = some seg ↔
      ∃ old, segments[k]? = some old ∧ seg = if i = k then change old else old := by
  rw [List.getElem?_modify]
  cases segments[k]? with
  | none => simp
  | some old =>
      simp only [Option.map_eq_map, Option.map_some, Option.some.injEq, exists_eq_left']
      split <;> exact eq_comm

/-- Looking up a segment after the active one was advanced. -/
theorem advanced_lookup {segments : List SegmentInfo} {active k diskSize : Nat} {seg : SegmentInfo} :
    (segments.modify active (·.advance diskSize))[k]? = some seg ↔
      ∃ old, segments[k]? = some old ∧
        seg = if active = k then old.advance diskSize else old :=
  modify_lookup

/-- Every segment was there before the active one was advanced. -/
theorem advanced_member {segments : List SegmentInfo} {active diskSize : Nat} {other : SegmentInfo}
    (member : other ∈ segments.modify active (·.advance diskSize)) :
    ∃ old ∈ segments, other.id = old.id ∧ other.fd = old.fd := by
  rcases List.mem_iff_getElem?.1 member with ⟨k, found⟩
  rcases advanced_lookup.1 found with ⟨old, listed, rfl⟩
  refine ⟨old, List.mem_of_getElem? listed, ?_⟩
  split <;> exact ⟨rfl, rfl⟩

@[simp] theorem advance_id (seg : SegmentInfo) (diskSize : Nat) :
    (seg.advance diskSize).id = seg.id := rfl

@[simp] theorem advance_fd (seg : SegmentInfo) (diskSize : Nat) :
    (seg.advance diskSize).fd = seg.fd := rfl

@[simp] theorem advance_write_offset (seg : SegmentInfo) (diskSize : Nat) :
    (seg.advance diskSize).writeOffset = seg.writeOffset + diskSize := rfl

end Segments

/-! ## Opening -/

section Opening

variable {config : NvmeStoreConfig} {files : Files} {openIo : OpenIo}

/-- The scan only adds segments and raises the next id. -/
theorem scan_frame (listing : List ScanEntry) (s : BlobStore) :
    (listing.foldl scanSegment s).blocks = s.blocks ∧
      (listing.foldl scanSegment s).config = s.config ∧
      (listing.foldl scanSegment s).files = s.files ∧
      (listing.foldl scanSegment s).flushQueue = s.flushQueue ∧
      (listing.foldl scanSegment s).flushingBlock = s.flushingBlock := by
  induction listing generalizing s with
  | nil => simp
  | cons entry listing ih =>
      rcases ih (s.scanSegment entry) with ⟨blocks, config, files, queue, flushing⟩
      have one : (s.scanSegment entry).blocks = s.blocks ∧ (s.scanSegment entry).config = s.config ∧
          (s.scanSegment entry).files = s.files ∧
          (s.scanSegment entry).flushQueue = s.flushQueue ∧
          (s.scanSegment entry).flushingBlock = s.flushingBlock := by
        unfold scanSegment
        simp only
        split <;> simp
      simp only [List.foldl_cons]
      rw [blocks, config, files, queue, flushing]
      exact one

theorem scan_active_block (listing : List ScanEntry) (s : BlobStore) :
    (listing.foldl scanSegment s).activeBlock = s.activeBlock := by
  induction listing generalizing s with
  | nil => rfl
  | cons entry listing ih =>
      rw [List.foldl_cons, ih]
      unfold scanSegment
      simp only
      split <;> rfl

/-- The store with all existing segments known and the first new one created. -/
def withSegments (config : NvmeStoreConfig) (files : Files) (listing : List ScanEntry)
    (io : SegmentIo) : BlobStore :=
  (listing.foldl scanSegment (constructed config files)).createNewSegment io

/-- A store that `open` returned `kOk` for: the scan, a new segment, and the
last block of the pool active at the start of that segment. -/
theorem open_store_cases (ok : (openStore config files openIo).1 = .kOk) :
    ∃ listing seg b rest, openIo.listing = some listing ∧
      (withSegments config files listing openIo.segment).currentSegment = some seg ∧
      (List.range config.writeBlockPoolSize.toNat).reverse = b :: rest ∧
      (openStore config files openIo).2 =
        { (withSegments config files listing openIo.segment).resetBlock b seg with
          freePool := rest
          activeBlock := some b
          flushRunning := true } := by
  unfold openStore takeBlock at ok ⊢
  cases listed : openIo.listing with
  | none =>
      simp only [listed] at ok
      split at ok <;> contradiction
  | some listing =>
      simp only [listed] at ok ⊢
      split at ok
      · contradiction
      · rename_i hasPath
        rw [if_neg hasPath]
        cases current : (withSegments config files listing openIo.segment).currentSegment with
        | none =>
            simp only [withSegments] at current
            simp only [current] at ok
            contradiction
        | some seg =>
            have same := current
            simp only [withSegments] at same
            simp only [same] at ok ⊢
            split at ok
            · rename_i allocated
              rw [if_pos allocated]
              cases pool : (List.range config.writeBlockPoolSize.toNat).reverse with
              | nil =>
                  simp only [pool] at ok
                  contradiction
              | cons b rest => exact ⟨listing, seg, b, rest, rfl, current, rfl, rfl⟩
            · contradiction

end Opening

/-! ## The parts of a rotation -/

def appended (s : BlobStore) (b active : Nat) (request : WriteRequest) : BlobStore :=
  { s with
    writeSequence := s.writeSequence + 1
    blocks := Function.update s.blocks b (s.appendToBlock (s.blocks b) request)
    segments := s.segments.modify active (·.advance (entryDiskSize request.data.length)) }

def queued (s : BlobStore) (b : Nat) : BlobStore := { s with flushQueue := s.flushQueue ++ [b] }

def withNextBlock (s : BlobStore) (b : Nat) (rest : List Nat) (io : SegmentIo) : BlobStore :=
  ({ s with freePool := rest, activeBlock := some b } : BlobStore).segmentForBlock b io

section Parts

variable (s b io) (active : Nat) (rest : List Nat) (seg : SegmentInfo) (request : WriteRequest)

@[simp] theorem appended_active_block : (s.appended b active request).activeBlock = s.activeBlock := rfl

@[simp] theorem appended_flush_queue : (s.appended b active request).flushQueue = s.flushQueue := rfl

@[simp] theorem appended_free_pool : (s.appended b active request).freePool = s.freePool := rfl

@[simp] theorem appended_flushing_block :
    (s.appended b active request).flushingBlock = s.flushingBlock := rfl

@[simp] theorem appended_block :
    (s.appended b active request).blocks b = s.appendToBlock (s.blocks b) request := by
  simp [appended]

theorem appended_other {c : Nat} (other : c ≠ b) :
    (s.appended b active request).blocks c = s.blocks c := by
  simp [appended, other]

theorem appended_capacity (c : Nat) :
    ((s.appended b active request).blocks c).capacity = (s.blocks c).capacity := by
  by_cases same : c = b
  · rw [same, appended_block]
    rfl
  · rw [appended_other s b active request same]

theorem appended_offset (c : Nat) :
    ((s.appended b active request).blocks c).segmentOffset = (s.blocks c).segmentOffset := by
  by_cases same : c = b
  · rw [same, appended_block]
    rfl
  · rw [appended_other s b active request same]

variable {s active seg} in
theorem appended_segment (current : s.activeSegment = some active)
    (found : s.segments[active]? = some seg) :
    (s.appended b active request).currentSegment =
      some (seg.advance (entryDiskSize request.data.length)) := by
  rw [current_segment_at (s.appended b active request) current]
  exact advanced_lookup.2 ⟨seg, found, by rw [if_pos rfl]⟩

@[simp] theorem queued_blocks : (s.queued b).blocks = s.blocks := rfl

@[simp] theorem queued_flush_queue : (s.queued b).flushQueue = s.flushQueue ++ [b] := rfl

@[simp] theorem queued_free_pool : (s.queued b).freePool = s.freePool := rfl

@[simp] theorem queued_flushing_block : (s.queued b).flushingBlock = s.flushingBlock := rfl

@[simp] theorem next_block_blocks : (s.withNextBlock b rest io).blocks = s.blocks := by
  simp [withNextBlock]

@[simp] theorem next_block_active_block : (s.withNextBlock b rest io).activeBlock = some b := by
  simp [withNextBlock]

@[simp] theorem next_block_flush_queue : (s.withNextBlock b rest io).flushQueue = s.flushQueue := by
  simp [withNextBlock]

@[simp] theorem next_block_free_pool : (s.withNextBlock b rest io).freePool = rest := by
  simp [withNextBlock]

@[simp] theorem next_block_flushing_block :
    (s.withNextBlock b rest io).flushingBlock = s.flushingBlock := by
  simp [withNextBlock]

@[simp] theorem reset_block_active_block : (s.resetBlock b seg).activeBlock = s.activeBlock := rfl

@[simp] theorem reset_block_flush_queue : (s.resetBlock b seg).flushQueue = s.flushQueue := rfl

@[simp] theorem reset_block_free_pool : (s.resetBlock b seg).freePool = s.freePool := rfl

@[simp] theorem reset_block_flushing_block :
    (s.resetBlock b seg).flushingBlock = s.flushingBlock := rfl

@[simp] theorem reset_block_block : (s.resetBlock b seg).blocks b =
    (s.blocks b).reset seg.id seg.writeOffset seg.fd := by
  simp [resetBlock, setBlock]

theorem reset_block_other {c : Nat} (other : c ≠ b) :
    (s.resetBlock b seg).blocks c = s.blocks c := by
  simp [resetBlock, setBlock, other]

theorem reset_block_capacity (c : Nat) :
    ((s.resetBlock b seg).blocks c).capacity = (s.blocks c).capacity := by
  by_cases same : c = b
  · rw [same, reset_block_block]
    rfl
  · rw [reset_block_other s b seg same]

end Parts

/-! ## The sections -/

theorem append_entry_eq (s : BlobStore) (b active : Nat) (request : WriteRequest)
    (current : s.activeSegment = some active) :
    s.appendEntry b request =
      some (.stored (blockLocation (s.blocks b) request.data.length), s.appended b active request) := by
  simp only [appendEntry, current, appended]

theorem append_entry_cases (run : s.appendEntry b request = some (outcome, after)) :
    ∃ active, s.activeSegment = some active ∧
      outcome = .stored (blockLocation (s.blocks b) request.data.length) ∧
      after = s.appended b active request := by
  unfold appendEntry at run
  split at run
  · contradiction
  · rename_i active current
    simp only [Option.some.injEq, Prod.mk.injEq] at run
    exact ⟨active, current, run.1.symm, run.2.symm⟩

/-- The ways out of `acquire_block` and what follows it: asleep, shut down,
no segment for the block, or the entry appended to the fresh block. -/
inductive AcquireCases (s : BlobStore) (request : WriteRequest) (io : SegmentIo) :
    WriteOutcome → BlobStore → Prop where
  | sleeps (empty : s.freePool = []) (running : s.flushRunning = true) :
      AcquireCases s request io .waiting s
  | stopped (empty : s.freePool = []) (halted : s.flushRunning = false) :
      AcquireCases s request io (.failed .kIOError) { s with activeBlock := none }
  | noSegment (b : Nat) (rest : List Nat) (free : s.freePool = b :: rest)
      (missing : ∀ seg, (s.withNextBlock b rest io).currentSegment = some seg → seg.fd = none) :
      AcquireCases s request io (.failed .kIOError) (s.withNextBlock b rest io)
  | appends (b : Nat) (rest : List Nat) (seg : SegmentInfo) (active : Nat)
      (free : s.freePool = b :: rest)
      (current : (s.withNextBlock b rest io).activeSegment = some active)
      (found : (s.withNextBlock b rest io).segments[active]? = some seg)
      (usable : seg.fd ≠ none) :
      AcquireCases s request io
        (.stored (blockLocation ((s.blocks b).reset seg.id seg.writeOffset seg.fd)
          request.data.length))
        (((s.withNextBlock b rest io).resetBlock b seg).appended b active request)

theorem acquire_cases (run : s.acquireAndAppend request io = some (outcome, after)) :
    AcquireCases s request io outcome after := by
  unfold acquireAndAppend takeBlock at run
  cases free : s.freePool with
  | nil =>
      rw [free] at run
      simp only at run
      split at run
      · rename_i running
        cases run
        exact .sleeps free running
      · rename_i halted
        cases run
        have stopped : AcquireCases s request io (.failed .kIOError) { s with activeBlock := none } :=
          .stopped free (by simpa using halted)
        rw [free] at stopped
        exact stopped
  | cons b rest =>
      rw [free] at run
      simp only at run
      split at run
      · rename_i missing
        cases run
        refine .noSegment b rest free ?_
        intro seg current
        rw [withNextBlock, missing] at current
        contradiction
      · rename_i seg current
        split at run
        · rename_i noFd
          cases run
          refine .noSegment b rest free ?_
          intro other same
          rw [withNextBlock, current] at same
          cases same
          exact noFd
        · rename_i usable
          rcases append_entry_cases run with ⟨active, activeIs, rfl, rfl⟩
          have position : (s.withNextBlock b rest io).activeSegment = some active := activeIs
          have found : (s.withNextBlock b rest io).segments[active]? = some seg := by
            have same : (s.withNextBlock b rest io).currentSegment = some seg := current
            rw [current_segment_at _ position] at same
            exact same
          have written : AcquireCases s request io _ _ :=
            .appends b rest seg active free position found usable
          have sameLocation : ((s.withNextBlock b rest io).resetBlock b seg).blocks b =
              (s.blocks b).reset seg.id seg.writeOffset seg.fd := by
            simp
          rw [← sameLocation] at written
          exact written

inductive EnterCases (s : BlobStore) (request : WriteRequest) (io : SegmentIo) :
    WriteOutcome → BlobStore → Prop where
  | refused (status : Status) (bad : status ≠ .kOk) : EnterCases s request io (.failed status) s
  | goesDirect (b : Nat) (isActive : s.activeBlock = some b)
      (long : (s.blocks b).capacity < entryDiskSize request.data.length)
      (short : request.data.length ≤ 2 ^ 32 - 1 - kEntryHeaderSize) :
      EnterCases s request io .direct s
  | rotates (b : Nat) (isActive : s.activeBlock = some b)
      (fits : entryDiskSize request.data.length ≤ (s.blocks b).capacity)
      (full : (s.blocks b).capacity < (s.blocks b).pos + entryDiskSize request.data.length)
      (short : request.data.length ≤ 2 ^ 32 - 1 - kEntryHeaderSize)
      {outcome : WriteOutcome} {after : BlobStore}
      (rest : AcquireCases (s.queued b) request io outcome after) :
      EnterCases s request io outcome after
  | appends (b active : Nat) (isActive : s.activeBlock = some b)
      (room : (s.blocks b).pos + entryDiskSize request.data.length ≤ (s.blocks b).capacity)
      (short : request.data.length ≤ 2 ^ 32 - 1 - kEntryHeaderSize)
      (current : s.activeSegment = some active) :
      EnterCases s request io (.stored (blockLocation (s.blocks b) request.data.length))
        (s.appended b active request)

theorem enter_cases (run : s.writeEnter request io = some (outcome, after)) :
    EnterCases s request io outcome after := by
  unfold writeEnter at run
  simp only at run
  split at run
  · cases run
    exact .refused _ (by decide)
  · rename_i short
    split at run
    · cases run
      exact .refused _ (by decide)
    · rename_i b isActive
      split at run
      · rename_i long
        cases run
        exact .goesDirect b isActive long (by omega)
      · rename_i fits
        split at run
        · rename_i full
          -- a block without entries has room for the entry, so it is never the one retired
          have used : 0 < (s.blocks b).pos := by omega
          rw [retireBlock, if_pos used] at run
          exact .rotates b isActive (by omega) full (by omega) (acquire_cases run)
        · rename_i room
          rcases append_entry_cases run with ⟨active, current, rfl, rfl⟩
          exact .appends b active isActive (by omega) (by omega) current

theorem write_enter_appends (s : BlobStore) (b active : Nat) (request : WriteRequest) (io : SegmentIo)
    (isActive : s.activeBlock = some b)
    (short : request.data.length ≤ 2 ^ 32 - 1 - kEntryHeaderSize)
    (room : (s.blocks b).pos + entryDiskSize request.data.length ≤ (s.blocks b).capacity)
    (current : s.activeSegment = some active) :
    s.writeEnter request io =
      some (.stored (blockLocation (s.blocks b) request.data.length), s.appended b active request) := by
  unfold writeEnter
  simp only [isActive]
  rw [if_neg (by omega), if_neg (by omega), if_neg (by omega), append_entry_eq s b active _ current]

/-- A writer that finds no free block queues its own and goes to sleep. -/
theorem write_enter_sleeps (isActive : s.activeBlock = some b)
    (short : request.data.length ≤ 2 ^ 32 - 1 - kEntryHeaderSize)
    (fits : entryDiskSize request.data.length ≤ (s.blocks b).capacity)
    (full : (s.blocks b).capacity < (s.blocks b).pos + entryDiskSize request.data.length)
    (empty : s.freePool = []) (running : s.flushRunning = true) :
    s.writeEnter request io = some (.waiting, s.queued b) := by
  have used : 0 < (s.blocks b).pos := by omega
  unfold writeEnter
  simp only [isActive]
  rw [if_neg (by omega), if_neg (by omega), if_pos full, retireBlock, if_pos used]
  simp [acquireAndAppend, takeBlock, empty, running, queued]

def turnedTo (s : BlobStore) (b c : Nat) (rest : List Nat) : BlobStore :=
  { s with flushQueue := s.flushQueue ++ [b], freePool := rest, activeBlock := some c }

/-- A writer whose entry does not fit the rest of the active block, with a free
block at hand and a segment for it. -/
theorem write_enter_turns {c active : Nat} {rest : List Nat} {seg : SegmentInfo} {next : BlobStore}
    (isActive : s.activeBlock = some b)
    (short : request.data.length ≤ 2 ^ 32 - 1 - kEntryHeaderSize)
    (fits : entryDiskSize request.data.length ≤ (s.blocks b).capacity)
    (full : (s.blocks b).capacity < (s.blocks b).pos + entryDiskSize request.data.length)
    (free : s.freePool = c :: rest) (sought : (s.turnedTo b c rest).segmentForBlock c io = next)
    (current : next.activeSegment = some active) (found : next.segments[active]? = some seg)
    (usable : seg.fd ≠ none) :
    s.writeEnter request io =
      some (.stored (blockLocation ((s.blocks c).reset seg.id seg.writeOffset seg.fd)
          request.data.length),
        (next.resetBlock c seg).appended c active request) := by
  have used : 0 < (s.blocks b).pos := by omega
  have chosen : next.currentSegment = some seg := (current_segment_at next current).trans found
  have taken : ({ s with flushQueue := s.flushQueue ++ [b] } : BlobStore).takeBlock =
      some (c, { s with flushQueue := s.flushQueue ++ [b], freePool := rest }) := by
    rw [takeBlock, free]
  have blocks : next.blocks = s.blocks := by
    rw [← sought, segment_for_block_blocks]
    rfl
  have appends := append_entry_eq (next.resetBlock c seg) c active request current
  rw [reset_block_block, blocks] at appends
  unfold writeEnter
  simp only [isActive]
  rw [if_neg (by omega), if_neg (by omega), if_pos full, retireBlock, if_pos used,
    acquireAndAppend, taken]
  have sameStore : ({ s with flushQueue := s.flushQueue ++ [b], freePool := rest, activeBlock := some c } :
      BlobStore) = s.turnedTo b c rest := rfl
  dsimp only
  rw [sameStore, sought, chosen]
  dsimp only
  rw [if_neg usable]
  exact appends

/-- The same with room for a whole block in the active segment. -/
theorem write_enter_rotates {c active : Nat} {rest : List Nat} {seg : SegmentInfo}
    (isActive : s.activeBlock = some b)
    (short : request.data.length ≤ 2 ^ 32 - 1 - kEntryHeaderSize)
    (fits : entryDiskSize request.data.length ≤ (s.blocks b).capacity)
    (full : (s.blocks b).capacity < (s.blocks b).pos + entryDiskSize request.data.length)
    (free : s.freePool = c :: rest) (current : s.activeSegment = some active)
    (found : s.segments[active]? = some seg) (usable : seg.fd ≠ none)
    (room : seg.writeOffset + (s.blocks c).capacity ≤ s.config.segmentSize.toNat) :
    s.writeEnter request io =
      some (.stored (blockLocation ((s.blocks c).reset seg.id seg.writeOffset seg.fd)
          request.data.length),
        ((s.turnedTo b c rest).resetBlock c seg).appended c active request) := by
  have chosen : (s.turnedTo b c rest).currentSegment = some seg := by
    rw [currentSegment, turnedTo, current]
    exact found
  have stays : (s.turnedTo b c rest).segmentForBlock c io = s.turnedTo b c rest := by
    unfold segmentForBlock
    rw [chosen]
    exact if_neg (Nat.not_lt.2 room)
  exact write_enter_turns isActive short fits full free stays current found usable

/-- The direct path: a segment is sought, the entry is written at its end, and
the end moves if the write succeeded. -/
theorem write_direct_cases {result : IoResult}
    (run : s.writeDirect request io result = some (outcome, after)) :
    ∃ active seg files,
      (s.segmentForEntry (entryDiskSize request.data.length) io).activeSegment = some active ∧
      (s.segmentForEntry (entryDiskSize request.data.length) io).segments[active]? = some seg ∧
      ((outcome = .failed .kIOError ∧
          after = { s.segmentForEntry (entryDiskSize request.data.length) io with
            writeSequence := (s.segmentForEntry (entryDiskSize request.data.length) io).writeSequence + 1
            files := files }) ∨
        (outcome = .stored
            { segmentId := seg.id
              offset := seg.writeOffset
              length := request.data.length % 2 ^ 32
              diskSize := entryDiskSize request.data.length % 2 ^ 32 } ∧
          after = { s.segmentForEntry (entryDiskSize request.data.length) io with
            writeSequence := (s.segmentForEntry (entryDiskSize request.data.length) io).writeSequence + 1
            files := files
            segments := (s.segmentForEntry (entryDiskSize request.data.length) io).segments.modify active
              (·.advance (entryDiskSize request.data.length)) })) := by
  unfold writeDirect at run
  simp only at run
  split at run
  · contradiction
  · rename_i active current
    split at run
    · contradiction
    · rename_i seg found
      split at run
      · cases run
        exact ⟨active, seg, _, current, found, .inl ⟨rfl, rfl⟩⟩
      · cases run
        exact ⟨active, seg, _, current, found, .inr ⟨rfl, rfl⟩⟩

theorem write_direct_places (s : BlobStore) (request : WriteRequest) (io : SegmentIo) (i : Nat)
    (seg : SegmentInfo)
    (room : ∃ last, s.currentSegment = some last ∧
      last.writeOffset + entryDiskSize request.data.length ≤ s.config.segmentSize.toNat)
    (current : s.activeSegment = some i) (found : s.segments[i]? = some seg) {path : SegmentPath}
    (opened : seg.fd = some path) (small : entryDiskSize request.data.length < 2 ^ 31) :
    ∃ files, s.writeDirect request io .complete = some
      (.stored
        { segmentId := seg.id
          offset := seg.writeOffset
          length := request.data.length % 2 ^ 32
          diskSize := entryDiskSize request.data.length % 2 ^ 32 },
        { s with
          writeSequence := s.writeSequence + 1
          files := files
          segments := s.segments.modify i (·.advance (entryDiskSize request.data.length)) }) := by
  rcases room with ⟨last, currentIs, fits⟩
  have stays : s.segmentForEntry (entryDiskSize request.data.length) io = s := by
    unfold segmentForEntry
    rw [currentIs]
    simp only
    rw [if_neg (by omega)]
  have positive : ¬toInt32 (s.directBytes request).length < 0 := by
    have length : (s.directBytes request).length = entryDiskSize request.data.length := by
      simp [directBytes]
    rw [length, to_int32_small _ small]
    omega
  unfold writeDirect
  simp only [stays, current, found, opened, syncWrite]
  rw [if_neg positive]
  exact ⟨_, rfl⟩

/-- The direct path leaves the blocks and the four places of a block alone. -/
theorem write_direct_frame {result : IoResult}
    (run : s.writeDirect request io result = some (outcome, after)) :
    after.blocks = s.blocks ∧ after.activeBlock = s.activeBlock ∧ after.flushQueue = s.flushQueue ∧
      after.freePool = s.freePool ∧ after.flushingBlock = s.flushingBlock := by
  rcases write_direct_cases run with ⟨active, seg, files, _, _, ⟨_, rfl⟩ | ⟨_, rfl⟩⟩ <;>
    rcases segment_for_entry_cases s io (entryDiskSize request.data.length) with same | ⟨same, _⟩ <;>
    simp [same]

/-! ## The counter and the configuration -/

theorem segment_for_block_next (s : BlobStore) (b : Nat) (io : SegmentIo) :
    s.nextSegmentId ≤ (s.segmentForBlock b io).nextSegmentId := by
  rcases segment_for_block_cases s b io with created | ⟨stays, _⟩
  · rw [created, create_next]
    omega
  · rw [stays]

theorem acquire_next (cases : AcquireCases s request io outcome after) :
    s.nextSegmentId ≤ after.nextSegmentId := by
  cases cases with
  | sleeps | stopped => exact Nat.le_refl _
  | noSegment b rest free missing =>
      exact segment_for_block_next { s with freePool := rest, activeBlock := some b } b io
  | appends b rest seg active free current found usable =>
      exact segment_for_block_next { s with freePool := rest, activeBlock := some b } b io

theorem acquire_config (cases : AcquireCases s request io outcome after) :
    after.config = s.config := by
  cases cases with
  | sleeps | stopped => rfl
  | noSegment b rest free missing =>
      exact segment_for_block_config { s with freePool := rest, activeBlock := some b } b io
  | appends b rest seg active free current found usable =>
      exact segment_for_block_config { s with freePool := rest, activeBlock := some b } b io

theorem enter_monotone (cases : EnterCases s request io outcome after) :
    s.nextSegmentId ≤ after.nextSegmentId ∧ after.config = s.config := by
  cases cases with
  | refused | goesDirect | appends => exact ⟨Nat.le_refl _, rfl⟩
  | rotates b isActive fits full short rest =>
      exact ⟨acquire_next (s := s.queued b) rest, acquire_config (s := s.queued b) rest⟩

theorem write_direct_monotone {result : IoResult}
    (run : s.writeDirect request io result = some (outcome, after)) :
    s.nextSegmentId ≤ after.nextSegmentId ∧ after.config = s.config := by
  rcases write_direct_cases run with ⟨active, seg, files, _, _, ⟨_, rfl⟩ | ⟨_, rfl⟩⟩ <;>
    rcases segment_for_entry_cases s io (entryDiskSize request.data.length) with same | ⟨same, _⟩ <;>
    simp [same]

theorem flush_step_next {pc pcAfter : FlushPc} {step : FlushStep}
    (run : s.flushStep pc step = some (pcAfter, after)) :
    after.nextSegmentId = s.nextSegmentId := by
  unfold flushStep flushPop at run
  split at run
  · split at run
    · contradiction
    · split at run <;> cases run <;> rfl
  · cases run
    rfl
  · cases run
    rfl
  · contradiction

theorem open_store_config {config : NvmeStoreConfig} {files : Files} {openIo : OpenIo}
    (ok : (openStore config files openIo).1 = .kOk) :
    (openStore config files openIo).2.config = config := by
  rcases open_store_cases ok with ⟨listing, seg, b, rest, _, _, _, opened⟩
  rcases scan_frame listing (constructed config files) with ⟨_, configIs, _, _, _⟩
  have same : (withSegments config files listing openIo.segment).config = config := by
    rw [withSegments, create_config, configIs]
    rfl
  rw [opened]
  exact same

/-- The flush thread only moves blocks and writes files. -/
theorem flush_step_frame {pc pcAfter : FlushPc} {step : FlushStep}
    (run : s.flushStep pc step = some (pcAfter, after)) :
    after.blocks = s.blocks ∧ after.config = s.config ∧ after.segments = s.segments ∧
      after.activeSegment = s.activeSegment ∧ after.activeBlock = s.activeBlock := by
  unfold flushStep flushPop at run
  split at run
  · split at run
    · contradiction
    · split at run <;> cases run <;> simp
  · cases run
    simp [flushWrite]
  · cases run
    simp [flushRelease]
  · contradiction

/-! ## Pending blocks -/

/-- The flush thread takes blocks out of the pending ones only. -/
theorem flush_step_pending {pc pcAfter : FlushPc} {step : FlushStep} {after : BlobStore}
    (run : s.flushStep pc step = some (pcAfter, after)) :
    ∀ b ∈ after.pendingBlocks, b ∈ s.pendingBlocks := by
  intro b member
  unfold flushStep flushPop at run
  unfold pendingBlocks at member ⊢
  split at run
  · split at run
    · contradiction
    · rename_i head rest queue
      rw [queue]
      split at run
      · cases run
        simp only [List.mem_append, List.mem_cons] at member ⊢
        rcases member with earlier | waiting
        · exact .inl earlier
        · exact .inr (.inr waiting)
      · cases run
        simp only [List.mem_append, List.mem_cons, Option.toList_some, List.not_mem_nil,
          or_false] at member ⊢
        rcases member with (active | flushing) | waiting
        · exact .inl (.inl active)
        · exact .inr (.inl flushing)
        · exact .inr (.inr waiting)
  · cases run
    exact member
  · cases run
    simp only [flushRelease, Option.toList_none, List.append_nil, List.mem_append] at member ⊢
    rcases member with active | waiting
    · exact .inl (.inl active)
    · exact .inr waiting
  · contradiction

end AttentionDB.BlobStore

namespace AttentionDB

open BlobStore

/-! ## A pool of one block -/

def singleBlockConfig : NvmeStoreConfig := { writeBlockSizeMb := 1, writeBlockPoolSize := 1 }

def singleBlockStore : BlobStore := (openStore singleBlockConfig (fun _ => File.empty) {}).2

def probeKey : StorageKey :=
  { modelId := 1, tenantId := 1, chunkHash := 1, layerGroupId := 0, chunkIndex := 0 }

def emptyRequest : WriteRequest := { key := probeKey, data := [], checksum := 0 }

def oneEntrySystem : StoreSystem :=
  ({ store := singleBlockStore } : StoreSystem).afterSection 0 emptyRequest
    (.stored (blockLocation (singleBlockStore.blocks 0) 0), singleBlockStore.appended 0 0 emptyRequest)

theorem single_block_store_started : storeMachine.start { store := singleBlockStore } :=
  ⟨singleBlockConfig, fun _ => File.empty, {}, by decide, rfl⟩

theorem one_entry_moved : storeMachine.exec { store := singleBlockStore }
    (.writeBegin 0 emptyRequest {}) = some oneEntrySystem := by
  have entered := write_enter_appends singleBlockStore 0 0 emptyRequest {} rfl (by decide)
    (by decide) rfl
  simp only [storeMachine, StoreSystem.exec, entered, Option.map_some]
  rfl

end AttentionDB
