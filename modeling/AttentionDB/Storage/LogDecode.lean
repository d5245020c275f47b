import AttentionDB.Storage.OlderSegments
import AttentionDB.Storage.ReadYourWrites
import AttentionDB.Storage.SegmentScan

/-!
# The log decodes to what was written

One caller writes through blocks, and the flush thread writes the blocks out;
`close` hands it the last one. While ids last, every segment that the store has
created is a row of entries from its header to its write offset. Once no block
waits any more, the row is in the file, and the scan of `gc_compact_segment`
visits exactly its entries. The segments that `open` found get no entries; what
the scan visits there is from earlier runs.
-/

namespace AttentionDB

open ByteMap GuardedRuns BlobStore Rows

set_option autoImplicit false

/-! ## Scanning a row of entries -/

/-- Both reads transfer what the file has, and the entry buffer is there. -/
structure ScanIo.Honoured (io : ScanIo) : Prop where
  header : io.header = .complete
  allocated : io.allocated = true
  entry : io.entry = .complete

def PlacedBlob.events (p : PlacedBlob) : List ScanEvent :=
  [.header, .entry p.offset p.size p.request]

section Row

variable {file : File} {io : Nat → ScanIo} {offset : Nat} {request : WriteRequest}

theorem FileHolds.padded_size (holds : FileHolds file offset request) (ok : RequestOk request) :
    paddedSizeAt file.data offset = entryDiskSize request.data.length := by
  rcases holds.entry.header with ⟨sequence, header⟩
  exact padded_size_of header ok.small

/-- A read of the whole entry transfers all of it. -/
theorem FileHolds.sync_read (holds : FileHolds file offset request) (ok : RequestOk request)
    {at_offset : ScanIo} (honoured : at_offset.Honoured) :
    file.syncRead offset (paddedSizeAt file.data offset) at_offset.entryRead =
      (toInt32 (entryDiskSize request.data.length),
        slice file.data offset (entryDiskSize request.data.length)) := by
  have inside := holds.inside
  have whole : min (entryDiskSize request.data.length) (file.size - offset) =
      entryDiskSize request.data.length := by
    omega
  have read : at_offset.entryRead = .complete := by
    simp [ScanIo.entryRead, honoured.allocated, honoured.entry]
  rw [read, holds.padded_size ok]
  simp only [File.syncRead, File.pread, whole, slice_length]

theorem FileHolds.passes (holds : FileHolds file offset request) (ok : RequestOk request)
    {at_offset : ScanIo} (honoured : at_offset.Honoured) : HeaderPasses file offset at_offset := by
  have inside := holds.inside
  have fits := entry_fits request.data.length ok.short
  refine
    { honoured := honoured.header
      inFile := by omega
      nonzero := ?_
      enough := ?_ }
  · rw [holds.padded_size ok]
    exact Nat.ne_of_gt ok.positive
  · rw [holds.sync_read ok honoured, holds.padded_size ok]

theorem FileHolds.call (holds : FileHolds file offset request) (ok : RequestOk request)
    {at_offset : ScanIo} (honoured : at_offset.Honoured) :
    entryCall (entryBuffer file offset at_offset) = request := by
  have fits := entry_fits request.data.length ok.short
  have start : EntryOf file.data (offset + 0) request := holds.entry
  have read : EntryOf (entryBuffer file offset at_offset) 0 request := by
    unfold entryBuffer
    rw [holds.sync_read ok honoured]
    exact start.patch_copy at_offset.memory 0 (entryDiskSize request.data.length) (by omega)
  simp only [entryCall, read.key, read.checksum, read.blob_size ok.short, read.blob]

/-- The scan of a row visits its items one after the other and ends behind them. -/
theorem walk_row {items : List PlacedBlob} {start stop : Nat}
    (row : Row PlacedBlob.offset PlacedBlob.size start stop items)
    (holds : ∀ p ∈ items, RequestOk p.request ∧ FileHolds file p.offset p.request)
    (honoured : ∀ offset, (io offset).Honoured) (fuel : Nat) (enough : items.length < fuel) :
    gcWalk file stop io fuel start = some (items.flatMap PlacedBlob.events) := by
  induction row generalizing fuel with
  | nil here =>
      cases fuel with
      | zero => simp at enough
      | succ fuel => simp [gcWalk]
  | @cons p items stop rest ih =>
      cases fuel with
      | zero => simp at enough
      | succ fuel =>
          rcases holds p List.mem_cons_self with ⟨ok, inFile⟩
          have padded : paddedSizeAt file.data p.offset = p.size := inFile.padded_size ok
          have positive : 0 < p.size := ok.positive
          have later := ih (fun q member => holds q (List.mem_cons_of_mem _ member)) fuel
            (by simpa using enough)
          have below : p.offset < stop := by
            have longer := rest.start_le_stop
            omega
          have passes := inFile.passes ok (honoured p.offset)
          rcases walk_cases file stop io p.offset with ⟨_, _, stuck, _⟩ | ⟨_, goesOn⟩
          · exact absurd ⟨below, passes, rfl⟩ (stuck _)
          · have size : (io p.offset).bufferSize p.size = p.size := by
              simp [ScanIo.bufferSize, (honoured p.offset).allocated]
            rw [goesOn fuel, padded, later, inFile.call ok (honoured p.offset), size]
            rfl

end Row

/-! ## One caller and the flush thread -/

/-- A store with its threads, the segments that `open` found, the requests of
the returned writes in the order of the writes, and where each was placed. -/
structure LogRun where
  system : StoreSystem
  found : List SegmentInfo := []
  placed : List PlacedBlob := []

/-- A step of a thread of the store, or the first section of `close`. -/
inductive LogLabel where
  | store (label : StoreLabel)
  | retire

namespace LogRun

def store (run : LogRun) : BlobStore := run.system.store

/-- The segments that the store has created since it was opened. -/
def created (run : LogRun) : List SegmentInfo := run.store.segments.drop run.found.length

def exec (run : LogRun) : LogLabel → Option LogRun
  | .store label =>
      (run.system.exec label).map fun after =>
        { run with system := after, placed := run.placed ++ run.system.newlyPlaced label after }
  | .retire =>
      match run.system.writers 0 with
      | .idle =>
          some { run with
            system := { run.system with store := { run.store.retireActive with flushRunning := false } } }
      | _ => none

end LogRun

def logMachine : Machine LogRun LogLabel where
  start run := ∃ config files io listing,
    (openStore config files io).1 = .kOk ∧ io.listing = some listing ∧
      run =
        { system := { store := (openStore config files io).2 }
          found := (listing.foldl scanSegment (constructed config files)).segments }
  exec := LogRun.exec

def bufferedLog (run : LogRun) : LogLabel → Prop
  | .store (.writeBegin t request _) =>
      t = 0 ∧ entryDiskSize request.data.length ≤ blockCapacity run.store.config
  | .store (.flush (.write result)) =>
      ∀ b ∈ run.system.flush.block, StoreSystem.blockWritten run.store b result = true
  | _ => True

/-- Every block that waits to be written is empty. -/
def AllFlushed (s : BlobStore) : Prop := ∀ b ∈ s.pendingBlocks, (s.blocks b).pos = 0

/-! ## Segments that only this run has filled -/

/-- Ids are taken in their order from `floor` on, and a segment in which
nothing was placed ends at its header. -/
structure SegmentsOk (floor : Nat) (s : BlobStore) (placed : List PlacedBlob) : Prop where
  distinct : (s.segments.map (·.id)).Nodup
  begun : floor ≤ s.nextSegmentId
  above : ∀ seg ∈ s.segments, floor ≤ seg.id
  below : ∀ seg ∈ s.segments, seg.id < s.nextSegmentId
  homes : ∀ p ∈ placed, p.segmentId ∈ s.segments.map (·.id)
  unused : ∀ seg ∈ s.segments, placedIn placed seg.id = [] →
    seg.fd = some (.canonical seg.id) ∧ seg.writeOffset = kSegmentHeaderSize
  active : ∀ i, s.activeSegment = some i → i < s.segments.length

section Segments

variable {s after : BlobStore} {flush : FlushPc} {unwritten : List Ack} {placed : List PlacedBlob}
  {request : WriteRequest} {io : SegmentIo} {outcome : WriteOutcome} {seg : SegmentInfo}
  {b i floor : Nat}

theorem SegmentsOk.congr (segmentsOk : SegmentsOk floor s placed) (segments : after.segments = s.segments)
    (next : after.nextSegmentId = s.nextSegmentId) (active : after.activeSegment = s.activeSegment) :
    SegmentsOk floor after placed := by
  constructor
  · rw [segments]
    exact segmentsOk.distinct
  · rw [next]
    exact segmentsOk.begun
  · rw [segments]
    exact segmentsOk.above
  · rw [segments, next]
    exact segmentsOk.below
  · rw [segments]
    exact segmentsOk.homes
  · rw [segments]
    exact segmentsOk.unused
  · rw [segments, active]
    exact segmentsOk.active

theorem SegmentsOk.create (segmentsOk : SegmentsOk floor s placed) (room : s.nextSegmentId < 2 ^ 32) :
    SegmentsOk floor (s.createNewSegment io) placed := by
  have begun := segmentsOk.begun
  have reduced : s.freshSegment.id = s.nextSegmentId := Nat.mod_eq_of_lt room
  constructor
  · cases opened : io.opened with
    | false =>
        rw [(create_refused s io opened).1]
        exact segmentsOk.distinct
    | true =>
        rw [(create_opened s io opened).1, List.map_append, List.map_cons, List.map_nil,
          List.nodup_append_comm]
        refine List.nodup_cons.2 ⟨?_, segmentsOk.distinct⟩
        intro member
        rcases List.mem_map.1 member with ⟨other, listed, same⟩
        have older := segmentsOk.below other listed
        omega
  · rw [create_next]
    omega
  · intro other member
    rcases created_member member with old | rfl
    · exact segmentsOk.above other old
    · omega
  · intro other member
    rw [create_next]
    rcases created_member member with old | rfl
    · have older := segmentsOk.below other old
      omega
    · omega
  · intro p known
    have home := segmentsOk.homes p known
    cases opened : io.opened with
    | false =>
        rw [(create_refused s io opened).1]
        exact home
    | true =>
        rw [(create_opened s io opened).1, List.map_append]
        exact List.mem_append_left _ home
  · intro other member empty
    rcases created_member member with old | rfl
    · exact segmentsOk.unused other old empty
    · exact ⟨rfl, rfl⟩
  · intro i current
    cases opened : io.opened with
    | false =>
        rw [(create_refused s io opened).2] at current
        contradiction
    | true =>
        rcases create_opened s io opened with ⟨segments, active⟩
        rw [active] at current
        cases current
        simp [segments]

/-- The active segment took an entry. -/
theorem SegmentsOk.advance (segmentsOk : SegmentsOk floor s placed) (found : s.segments[i]? = some seg)
    {p : PlacedBlob} {size : Nat} (same : p.segmentId = seg.id)
    (segments : after.segments = s.segments.modify i (·.advance size))
    (next : after.nextSegmentId = s.nextSegmentId) (active : after.activeSegment = s.activeSegment) :
    SegmentsOk floor after (placed ++ [p]) := by
  constructor
  · rw [segments, modify_advance_ids]
    exact segmentsOk.distinct
  · rw [next]
    exact segmentsOk.begun
  · intro other member
    rw [segments] at member
    rcases advanced_member member with ⟨old, listed, id, _⟩
    rw [id]
    exact segmentsOk.above old listed
  · intro other member
    rw [segments] at member
    rw [next]
    rcases advanced_member member with ⟨old, listed, id, _⟩
    rw [id]
    exact segmentsOk.below old listed
  · intro q known
    rw [segments, modify_advance_ids]
    rcases List.mem_append.1 known with before | new
    · exact segmentsOk.homes q before
    · rw [List.mem_singleton.1 new, same]
      exact List.mem_map_of_mem (List.mem_of_getElem? found)
  · intro other member empty
    rw [segments] at member
    rcases List.mem_iff_getElem?.1 member with ⟨k, foundOther⟩
    rcases advanced_lookup.1 foundOther with ⟨old, foundOld, rfl⟩
    by_cases isActive : i = k
    · subst isActive
      have sameOld : old = seg := Option.some.inj (foundOld.symm.trans found)
      subst sameOld
      rw [if_pos rfl, advance_id, placed_in_snoc_same same] at empty
      simp at empty
    · rw [if_neg isActive] at empty ⊢
      have other : p.segmentId ≠ old.id := fun id =>
        isActive (same_position segmentsOk.distinct found foundOld (same.symm.trans id))
      rw [placed_in_snoc_other other] at empty
      exact segmentsOk.unused old (List.mem_of_getElem? foundOld) empty
  · intro k current
    rw [active] at current
    rw [segments, List.length_modify]
    exact segmentsOk.active k current

theorem SegmentsOk.seek (segmentsOk : SegmentsOk floor s placed) (room : s.nextSegmentId < 2 ^ 32)
    (b : Nat) (rest : List Nat) : SegmentsOk floor (s.withNextBlock b rest io) placed := by
  have taken : SegmentsOk floor { s with freePool := rest, activeBlock := some b } placed :=
    segmentsOk.congr rfl rfl rfl
  unfold withNextBlock
  rcases segment_for_block_cases { s with freePool := rest, activeBlock := some b } b io with
    created | ⟨stays, _⟩
  · rw [created]
    exact taken.create room
  · rw [stays]
    exact taken

theorem SegmentsOk.acquire (segmentsOk : SegmentsOk floor s placed) (room : s.nextSegmentId < 2 ^ 32)
    (cases : AcquireCases s request io outcome after) (block : Option Nat) :
    SegmentsOk floor after (placed ++ placedBy request block outcome) := by
  cases cases with
  | sleeps empty running => simpa [placedBy] using segmentsOk
  | stopped empty halted =>
      have same : SegmentsOk floor { s with activeBlock := none } placed := segmentsOk.congr rfl rfl rfl
      simpa [placedBy] using same
  | noSegment b rest free missing => simpa [placedBy] using segmentsOk.seek room b rest
  | appends b rest seg i free current found usable =>
      have sought : SegmentsOk floor (s.withNextBlock b rest io) placed := segmentsOk.seek room b rest
      exact sought.advance found rfl rfl rfl rfl

/-! ## The active block -/

/-- Between two writes the active block is in no other role, and its cursor is
the end of the active segment, if there is one. -/
def Ready (s : BlobStore) : Prop :=
  ∀ b, s.activeBlock = some b → otherRoles s b = 0 ∧
    ∀ seg, s.currentSegment = some seg → AppendsAtEnd s b seg

theorem ready_appended (isActive : s.activeBlock = some b) (alone : otherRoles s b = 0)
    (current : s.activeSegment = some i) (found : s.segments[i]? = some seg)
    (atEnd : AppendsAtEnd s b seg) : Ready (s.appended b i request) := by
  intro c isActiveAfter
  have same : b = c := Option.some.inj (isActive.symm.trans isActiveAfter)
  subst same
  refine ⟨alone, ?_⟩
  intro other currentAfter
  have isSame : other = seg.advance (entryDiskSize request.data.length) := by
    simp only [currentSegment, appended, current, Option.bind_some, List.getElem?_modify, if_true, found,
      Option.map_eq_map, Option.map_some, Option.some.injEq] at currentAfter
    exact currentAfter.symm
  have cursor := atEnd.cursor
  rw [isSame]
  constructor
  · rw [appended_block]
    exact atEnd.segment
  · rw [appended_block, advance_write_offset, ← cursor]
    exact (Nat.add_assoc _ _ _).symm

def WriterReady (s : BlobStore) : WriterPc → Prop
  | .idle => Ready s
  | .waiting request =>
      Handed s ∧ RequestOk request ∧ entryDiskSize request.data.length ≤ blockCapacity s.config
  | .direct _ => False

/-- The block taken off the pool, and the segment for it. -/
theorem PlacedInv.ready_acquired (inv : PlacedInv s flush unwritten placed) (handed : Handed s)
    (room : s.nextSegmentId < 2 ^ 32) (segmentsOk : SegmentsOk floor s placed)
    (cases : AcquireCases s request io outcome after) (awake : outcome ≠ .waiting) : Ready after := by
  cases cases with
  | sleeps empty running => exact absurd rfl awake
  | stopped empty halted =>
      intro b isActive
      contradiction
  | noSegment b rest free missing =>
      rcases inv.seek free handed room (segmentsOk.seek room b rest).distinct with ⟨sought, alone⟩
      intro c isActive
      rw [next_block_active_block] at isActive
      cases isActive
      refine ⟨alone, ?_⟩
      intro seg current
      have row := (sought.rows.active seg current).2
      have noFile := missing seg current
      rw [row.fd] at noFile
      contradiction
  | appends b rest seg i free current found usable =>
      have alone : otherRoles (s.withNextBlock b rest io) b = 0 :=
        (inv.seek free handed room (segmentsOk.seek room b rest).distinct).2
      have atEnd : AppendsAtEnd ((s.withNextBlock b rest io).resetBlock b seg) b seg := by
        constructor <;> simp [WriteBlock.reset]
      exact ready_appended (next_block_active_block s b io rest) alone current found atEnd

/-! ## The descriptors of the blocks -/

/-- The descriptor of a block is that of its segment. -/
def OwnFiles (s : BlobStore) : Prop :=
  ∀ b path, (s.blocks b).segmentFd = some path → path = .canonical (s.blocks b).segmentId

theorem OwnFiles.congr (own : OwnFiles s) (blocks : after.blocks = s.blocks) : OwnFiles after := by
  intro b
  rw [blocks]
  exact own b

theorem OwnFiles.reset (own : OwnFiles s) (fd : seg.fd = some (.canonical seg.id)) :
    OwnFiles (s.resetBlock b seg) := by
  intro c path opened
  by_cases same : c = b
  · subst same
    rw [reset_block_block] at opened ⊢
    exact (Option.some.inj (fd.symm.trans opened)).symm
  · rw [reset_block_other s b seg same] at opened ⊢
    exact own c path opened

theorem OwnFiles.appended (own : OwnFiles s) : OwnFiles (s.appended b i request) := by
  intro c path opened
  by_cases same : c = b
  · subst same
    rw [appended_block] at opened ⊢
    exact own c path opened
  · rw [appended_other s b i request same] at opened ⊢
    exact own c path opened

theorem PlacedInv.own_acquired (inv : PlacedInv s flush unwritten placed) (handed : Handed s)
    (room : s.nextSegmentId < 2 ^ 32) (segmentsOk : SegmentsOk floor s placed) (own : OwnFiles s)
    (cases : AcquireCases s request io outcome after) : OwnFiles after := by
  cases cases with
  | sleeps empty running => exact own
  | stopped empty halted => exact own
  | noSegment b rest free missing => exact own.congr (next_block_blocks s b io rest)
  | appends b rest seg i free current found usable =>
      have distinct : ((s.withNextBlock b rest io).segments.map (·.id)).Nodup :=
        (segmentsOk.seek room b rest).distinct
      have sought := (inv.seek free handed room distinct).1
      have row := (sought.rows.active seg (current_segment_found current found)).2
      exact ((own.congr (next_block_blocks s b io rest)).reset row.fd).appended

end Segments

/-! ## What every section keeps -/

structure LogOk (floor : Nat) (s : BlobStore) (flush : FlushPc) (unwritten : List Ack)
    (placed : List PlacedBlob) (writer : WriterPc) : Prop where
  blobs : PlacedInv s flush unwritten placed
  segments : SegmentsOk floor s placed
  files : OwnFiles s
  writer : WriterReady s writer

section Sections

variable {s after : BlobStore} {flush : FlushPc} {unwritten : List Ack} {placed : List PlacedBlob}
  {request : WriteRequest} {io : SegmentIo} {outcome : WriteOutcome} {writer : WriterPc}
  {b i floor : Nat}

theorem PlacedInv.log_acquired (inv : PlacedInv s flush unwritten placed)
    (segmentsOk : SegmentsOk floor s placed) (own : OwnFiles s) (handed : Handed s) (ok : RequestOk request)
    (fits : entryDiskSize request.data.length ≤ blockCapacity s.config) (room : s.nextSegmentId < 2 ^ 32)
    (cases : AcquireCases s request io outcome after) :
    LogOk floor after flush (StoreSystem.recorded unwritten request outcome after)
      (placed ++ placedBy request after.activeBlock outcome) (StoreSystem.pcAfter request outcome) := by
  have segments := segmentsOk.acquire room cases after.activeBlock
  rcases inv.acquire handed ok fits room cases segments.distinct with ⟨placedAfter, handedAfter⟩
  refine ⟨placedAfter, segments, inv.own_acquired handed room segmentsOk own cases, ?_⟩
  have awake := inv.ready_acquired handed room segmentsOk cases
  cases outcome with
  | stored loc => exact awake (by simp)
  | failed status => exact awake (by simp)
  | waiting =>
      refine ⟨handedAfter rfl, ok, ?_⟩
      rw [acquire_config cases]
      exact fits
  | direct =>
      -- `acquire_block` never leads to the direct path
      cases cases

theorem LogOk.enter (log : LogOk floor s flush unwritten placed .idle)
    (buffered : entryDiskSize request.data.length ≤ blockCapacity s.config)
    (small : blockCapacity s.config < 2 ^ 31) (room : s.nextSegmentId < 2 ^ 32)
    (cases : EnterCases s request io outcome after) :
    LogOk floor after flush (StoreSystem.recorded unwritten request outcome after)
      (placed ++ placedBy request after.activeBlock outcome) (StoreSystem.pcAfter request outcome) := by
  have ready : Ready s := log.writer
  have request_ok : request.data.length ≤ 2 ^ 32 - 1 - kEntryHeaderSize → RequestOk request := by
    intro short
    unfold kEntryHeaderSize at short
    exact ⟨by omega, by omega⟩
  cases cases with
  | refused status bad =>
      refine ⟨?_, ?_, log.files, ready⟩
      · simpa [placedBy, StoreSystem.recorded] using log.blobs
      · simpa [placedBy] using log.segments
  | goesDirect b isActive long short =>
      rw [(log.blobs.rows.spans b).capacity] at long
      omega
  | rotates b isActive fits full short rest =>
      rcases log.blobs.queued isActive (ready b isActive).1 with ⟨queued, handed⟩
      have segments : SegmentsOk floor (s.queued b) placed := log.segments.congr rfl rfl rfl
      have files : OwnFiles (s.queued b) := log.files.congr rfl
      exact queued.log_acquired segments files handed (request_ok short) buffered room rest
  | appends b i isActive roomLeft short current =>
      rcases ready b isActive with ⟨alone, ends⟩
      have inside := log.segments.active i current
      have found : s.segments[i]? = some s.segments[i] := List.getElem?_eq_getElem inside
      have atEnd := ends s.segments[i] (current_segment_found current found)
      have done := log.blobs.append isActive alone current found atEnd (request_ok short) roomLeft
      have active : (s.appended b i request).activeBlock = some b := isActive
      refine ⟨?_, ?_, log.files.appended, ready_appended isActive alone current found atEnd⟩
      · simp only [StoreSystem.recorded, placedBy, active]
        exact done
      · exact log.segments.advance found atEnd.segment rfl rfl rfl

/-- Roles, cursors and segments as they were. -/
theorem WriterReady.keep (ready : WriterReady s writer) (blocks : after.blocks = s.blocks)
    (config : after.config = s.config) (segments : after.segments = s.segments)
    (activeSegment : after.activeSegment = s.activeSegment) (active : after.activeBlock = s.activeBlock)
    (roles : ∀ b, otherRoles after b = otherRoles s b) : WriterReady after writer := by
  cases writer with
  | idle =>
      have idle : Ready s := ready
      intro b isActive
      rcases idle b (active.symm.trans isActive) with ⟨alone, ends⟩
      refine ⟨(roles b).trans alone, ?_⟩
      intro seg current
      have currentBefore : s.currentSegment = some seg := by
        rw [currentSegment, activeSegment, segments] at current
        exact current
      have atEnd := ends seg currentBefore
      constructor
      · rw [blocks]
        exact atEnd.segment
      · rw [blocks]
        exact atEnd.cursor
  | waiting request =>
      rcases ready with ⟨handed, ok, fits⟩
      refine ⟨handed.keep active roles, ok, ?_⟩
      rw [config]
      exact fits
  | direct request => exact ready.elim

theorem LogOk.flush_step {system : StoreSystem}
    (log : LogOk floor system.store system.flush system.unwritten placed writer) {step : FlushStep} {pc : FlushPc}
    (succeeds : ∀ result b, step = .write result → system.flush = .writing b →
      StoreSystem.blockWritten system.store b result = true)
    (ran : system.store.flushStep system.flush step = some (pc, after)) :
    LogOk floor after pc (system.unwrittenAfter step) placed writer := by
  rcases flush_step_frame ran with ⟨blocks, config, segments, activeSegment, activeBlock⟩
  have roles := flush_step_roles log.blobs.flushing ran
  have written : ∀ result b, step = .write result → system.flush = .writing b →
      StoreSystem.blockWritten system.store b result = true ∧
        ((system.store.blocks b).pos ≠ 0 → ∀ path, (system.store.blocks b).segmentFd = some path →
          path = .canonical (system.store.blocks b).segmentId) :=
    fun result b isWrite writing => ⟨succeeds result b isWrite writing, fun _ => log.files b⟩
  exact
    { blobs := log.blobs.flush_step written ran
      files := log.files.congr blocks
      segments := log.segments.congr segments (flush_step_next ran) activeSegment
      writer := log.writer.keep blocks config segments activeSegment activeBlock roles }

/-- The flush thread is told to stop. -/
theorem LogOk.halt (log : LogOk floor s flush unwritten placed writer) :
    LogOk floor { s with flushRunning := false } flush unwritten placed writer where
  blobs := { log.blobs with
    rows := log.blobs.rows.congr rfl rfl rfl rfl rfl
    roles := log.blobs.roles
    buffered := log.blobs.buffered
    stored := log.blobs.stored }
  segments := log.segments.congr rfl rfl rfl
  files := log.files.congr rfl
  writer := log.writer.keep rfl rfl rfl rfl rfl fun _ => rfl

/-- The first section of `close` queues the active block. -/
theorem LogOk.retire (log : LogOk floor s flush unwritten placed .idle) :
    LogOk floor { s.retireActive with flushRunning := false } flush unwritten placed .idle := by
  have ready : Ready s := log.writer
  apply LogOk.halt
  unfold retireActive
  split
  · exact log
  · rename_i b isActive
    split
    · rcases log.blobs.queued isActive (ready b isActive).1 with ⟨queued, handed⟩
      refine ⟨?_, log.segments.congr rfl rfl rfl, log.files.congr rfl, ?_⟩
      · refine { queued with
          rows := queued.rows.congr rfl rfl rfl rfl rfl
          roles := queued.roles
          buffered := ?_
          stored := queued.stored }
        intro p member waits
        rcases queued.buffered p member waits with ⟨c, block, keeps, holds⟩
        refine ⟨c, block, ?_, holds⟩
        rcases keeps with inQueue | writing | active
        · exact .inl inQueue
        · exact .inr (.inl writing)
        · exact absurd active.2 (handed c active.1)
      · intro c isActiveAfter
        contradiction
    · exact log

/-- Nothing was placed in a store without segments. -/
theorem rows_without_segments (config : NvmeStoreConfig) (files : Files) (next : Nat) :
    RowsInv (withoutSegments config files next) [] := by
  refine
    { distinct := by simp [withoutSegments, constructed]
      paths := by simp [withoutSegments, constructed]
      requests := by simp
      created := by simp
      rows := by simp [placedIn]
      active := ?_
      spans := ?_
      blocks := by simp }
  · intro seg current
    contradiction
  · intro b
    constructor <;> simp [withoutSegments, constructed, kSegmentHeaderSize]

/-- The first segment was created and the first block of the pool is active. -/
theorem LogOk.first_block {config : NvmeStoreConfig} {files : Files} {seg : SegmentInfo} {count : Nat}
    {rest : List Nat} (small : floor < 2 ^ 32)
    (current : ((withoutSegments config files floor).createNewSegment io).currentSegment = some seg)
    (pool : (List.range count).reverse = b :: rest) :
    LogOk floor
      { ((withoutSegments config files floor).createNewSegment io).resetBlock b seg with
        freePool := rest, activeBlock := some b, flushRunning := true } .idle [] [] .idle := by
  have bare : SegmentsOk floor (withoutSegments config files floor) [] := by
    constructor <;> simp [withoutSegments, constructed]
  have segments : SegmentsOk floor ((withoutSegments config files floor).createNewSegment io) [] :=
    bare.create small
  have rows := (rows_without_segments config files floor).create small segments.distinct
  have noQueue : ((withoutSegments config files floor).createNewSegment io).flushQueue = [] := by
    rw [create_flush_queue]
    rfl
  have noFlush : ((withoutSegments config files floor).createNewSegment io).flushingBlock = none := by
    rw [create_flushing_block]
    rfl
  have unopened : OwnFiles ((withoutSegments config files floor).createNewSegment io) := by
    intro c path opened
    rw [create_blocks] at opened
    contradiction
  refine ⟨PlacedInv.first_block rows current noQueue noFlush pool, segments.congr rfl rfl rfl,
    (unopened.reset (rows.active seg current).2.fd).congr rfl, ?_⟩
  intro c isActive
  have same : b = c := Option.some.inj isActive
  subst same
  have distinct : (b :: rest).Nodup := by
    rw [← pool, List.nodup_reverse]
    exact List.nodup_range
  constructor
  · have notFree := (List.nodup_cons.1 distinct).1
    simp only [otherRoles, reset_block_flush_queue, reset_block_flushing_block, noQueue, noFlush,
      List.count_nil, Option.toList_none, List.count_eq_zero_of_not_mem notFree]
  · intro other currentAfter
    have same : other = seg := Option.some.inj (currentAfter.symm.trans current)
    subst same
    constructor <;> simp [WriteBlock.reset]

end Sections

/-! ## Runs -/

section Runs

variable {run after : LogRun} {label : LogLabel}

/-- The scan leaves the next id above the ids that it found; the id after the
last one wraps to 0. -/
def FoundBelow (found : List SegmentInfo) (floor : Nat) : Prop :=
  ∀ old ∈ found, old.id < floor ∨ old.id = 2 ^ 32 - 1

theorem scan_found_below (listing : List ScanEntry) (s : BlobStore)
    (below : FoundBelow s.segments s.nextSegmentId) :
    FoundBelow (listing.foldl scanSegment s).segments (listing.foldl scanSegment s).nextSegmentId := by
  induction listing generalizing s with
  | nil => exact below
  | cons entry listing ih =>
      rw [List.foldl_cons]
      apply ih
      intro old member
      unfold scanSegment at member ⊢
      dsimp only at member ⊢
      split at member
      · rename_i opened
        rw [if_pos opened]
        dsimp only at member ⊢
        rcases List.mem_append.1 member with before | new
        · rcases below old before with smaller | last
          · exact .inl (Nat.lt_of_lt_of_le smaller (Nat.le_max_left _ _))
          · exact .inr last
        · rw [List.mem_singleton.1 new]
          dsimp only
          omega
      · rename_i refused
        rw [if_neg refused]
        rcases below old member with smaller | last
        · exact .inl (Nat.lt_of_lt_of_le smaller (Nat.le_max_left _ _))
        · exact .inr last

/-- The store is one without older segments, behind those that `open` found.
Only the first writer ever leaves its idle state. -/
structure LogInv (run : LogRun) : Prop where
  log : ∃ own floor, run.store = own.behind run.found ∧ FoundBelow run.found floor ∧
    LogOk floor own run.system.flush run.system.unwritten run.placed (run.system.writers 0)
  others : ∀ t, t ≠ 0 → run.system.writers t = .idle

/-- Ids have not wrapped, and a block is shorter than 2 GiB. -/
def LogBound (run : LogRun) : Prop :=
  run.store.nextSegmentId < 2 ^ 32 ∧ blockCapacity run.store.config < 2 ^ 31

theorem log_bound_earlier (moved : logMachine.exec run label = some after) (bound : LogBound after) :
    LogBound run := by
  cases label with
  | store label =>
      simp only [logMachine, LogRun.exec, Option.map_eq_some_iff] at moved
      rcases moved with ⟨system, stepped, rfl⟩
      rcases store_step_monotone stepped with ⟨grows, config⟩
      rcases bound with ⟨few, small⟩
      simp only [LogRun.store, config] at few small
      exact ⟨Nat.lt_of_le_of_lt grows few, small⟩
  | retire =>
      simp only [logMachine, LogRun.exec] at moved
      split at moved
      · cases moved
        have same : run.store.retireActive.nextSegmentId = run.store.nextSegmentId ∧
            run.store.retireActive.config = run.store.config := by
          unfold retireActive
          split
          · exact ⟨rfl, rfl⟩
          · split <;> exact ⟨rfl, rfl⟩
        rcases bound with ⟨few, small⟩
        simp only [LogRun.store] at few small same
        rw [same.1] at few
        rw [same.2] at small
        exact ⟨few, small⟩
      · contradiction

theorem LogInv.section {label : StoreLabel} {request : WriteRequest} {outcome : WriteOutcome}
    {own : BlobStore} {t floor : Nat} (others : ∀ u, u ≠ 0 → run.system.writers u = .idle)
    (below : FoundBelow run.found floor) (first : t = 0)
    (isRequest : run.system.requestOf label = some request)
    (log : LogOk floor own run.system.flush (StoreSystem.recorded run.system.unwritten request outcome own)
      (run.placed ++ placedBy request own.activeBlock outcome) (StoreSystem.pcAfter request outcome)) :
    LogInv
      { run with
        system := run.system.afterSection t request (outcome, own.behind run.found)
        placed := run.placed ++ run.system.newlyPlaced label
          (run.system.afterSection t request (outcome, own.behind run.found)) } := by
  subst first
  rw [newly_placed_section run.system isRequest]
  have recorded : StoreSystem.recorded run.system.unwritten request outcome (own.behind run.found) =
      StoreSystem.recorded run.system.unwritten request outcome own := by
    cases outcome <;> rfl
  constructor
  · refine ⟨own, floor, ?_, below, ?_⟩
    · simp [LogRun.store]
    · simpa [recorded] using log
  · intro u other
    simp [Function.update_of_ne other, others u other]

/-- A step of a reader changes nothing that the caller knows. -/
theorem LogInv.reader (inv : LogInv run) (label : StoreLabel) {system : StoreSystem}
    (store : system.store = run.system.store) (flush : system.flush = run.system.flush)
    (writers : system.writers = run.system.writers) (acked : system.acked = run.system.acked)
    (unwritten : system.unwritten = run.system.unwritten) :
    LogInv { run with system, placed := run.placed ++ run.system.newlyPlaced label system } := by
  rw [newly_placed_nothing run.system label acked, List.append_nil]
  constructor
  · simp only [LogRun.store, store, flush, writers, unwritten]
    exact inv.log
  · simp only [writers]
    exact inv.others

/-- The flush thread steps as it would without the older segments. -/
theorem LogInv.flush (inv : LogInv run) {step : FlushStep} {pc : FlushPc} {store : BlobStore}
    (succeeds : ∀ result b, step = .write result → run.system.flush = .writing b →
      StoreSystem.blockWritten run.system.store b result = true)
    (ran : run.system.store.flushStep run.system.flush step = some (pc, store)) :
    LogInv
      { run with
        system :=
          { run.system with flush := pc, store, unwritten := run.system.unwrittenAfter step } } := by
  obtain ⟨⟨own, floor, behind, below, log⟩, others⟩ := inv
  have isStore : run.system.store = own.behind run.found := behind
  rw [isStore, behind_flush_step] at ran
  rcases Option.map_eq_some_iff.1 ran with ⟨⟨ownPc, ownAfter⟩, ranOwn, same⟩
  simp only [Prod.mk.injEq] at same
  obtain ⟨rfl, rfl⟩ := same
  let alone : StoreSystem := { run.system with store := own }
  have unwritten : run.system.unwrittenAfter step = alone.unwrittenAfter step := by
    unfold StoreSystem.unwrittenAfter
    rw [isStore]
    rfl
  have logAlone : LogOk floor alone.store alone.flush alone.unwritten run.placed (run.system.writers 0) :=
    log
  refine ⟨⟨ownAfter, floor, rfl, below, ?_⟩, others⟩
  simp only [unwritten]
  refine logAlone.flush_step ?_ ranOwn
  intro result b isWrite writing
  have complete := succeeds result b isWrite writing
  rw [isStore] at complete
  exact complete

theorem LogInv.step (inv : LogInv run) (allowed : bufferedLog run label)
    (moved : logMachine.exec run label = some after) (bound : LogBound run) : LogInv after := by
  have kept := inv
  obtain ⟨⟨own, floor, behind, below, log⟩, others⟩ := inv
  have isStore : run.system.store = own.behind run.found := behind
  rcases bound with ⟨few, small⟩
  rw [behind] at few small
  cases label with
  | retire =>
      simp only [logMachine, LogRun.exec] at moved
      split at moved
      · rename_i idle
        cases moved
        rw [idle] at log
        refine ⟨⟨{ own.retireActive with flushRunning := false }, floor, ?_, below, ?_⟩, others⟩
        · simp only [LogRun.store, isStore, behind_retire]
          rfl
        · simp only [idle]
          exact log.retire
      · contradiction
  | store label =>
      simp only [logMachine, LogRun.exec, Option.map_eq_some_iff] at moved
      rcases moved with ⟨system, stepped, rfl⟩
      cases label with
      | writeBegin t request io =>
          rcases allowed with ⟨first, buffered⟩
          rcases StoreSystem.write_begin_step stepped with ⟨outcome, store, idle, entered, rfl⟩
          rw [first] at idle
          rw [idle] at log
          rw [isStore, behind_enter] at entered
          rcases Option.map_eq_some_iff.1 entered with ⟨⟨outcome, ownAfter⟩, enteredOwn, same⟩
          cases same
          rw [behind] at buffered
          have isRequest : run.system.requestOf (.writeBegin t request io) = some request := rfl
          apply LogInv.section others below first isRequest
          exact log.enter buffered small few (enter_cases enteredOwn)
      | writeResume t io =>
          rcases StoreSystem.write_resume_step stepped with ⟨request, outcome, store, waiting, resumed, rfl⟩
          have first : t = 0 := by
            by_contra other
            rw [others t other] at waiting
            contradiction
          have isRequest : run.system.requestOf (.writeResume t io) = some request := by
            simp [StoreSystem.requestOf, waiting]
          rw [first] at waiting
          rw [waiting] at log
          rcases log.writer with ⟨handed, ok, fits⟩
          rw [isStore, behind_acquire] at resumed
          rcases Option.map_eq_some_iff.1 resumed with ⟨⟨outcome, ownAfter⟩, resumedOwn, same⟩
          cases same
          apply LogInv.section others below first isRequest
          exact log.blobs.log_acquired log.segments log.files handed ok fits few (acquire_cases resumedOwn)
      | writeDirect t io result =>
          rcases StoreSystem.write_direct_step stepped with ⟨request, _, _, direct, _, _⟩
          by_cases first : t = 0
          · rw [first] at direct
            rw [direct] at log
            exact log.writer.elim
          · rw [others t first] at direct
            contradiction
      | flush step =>
          rcases StoreSystem.flush_thread_step stepped with ⟨pc, store, ran, rfl⟩
          have nothing : run.system.newlyPlaced (.flush step)
              { run.system with flush := pc, store, unwritten := run.system.unwrittenAfter step } = [] :=
            newly_placed_nothing run.system _ rfl
          rw [nothing, List.append_nil]
          apply kept.flush _ ran
          intro result b isWrite writing
          subst isWrite
          exact allowed b (by rw [writing]; rfl)
      | readBegin r loc bufLen | readPending r | readLookup r | readDisk r readOk =>
          rcases StoreSystem.reader_step rfl stepped with ⟨reader, pc, rfl⟩
          exact kept.reader _ rfl rfl rfl rfl rfl

theorem LogInv.opened {config : NvmeStoreConfig} {files : Files} {openIo : OpenIo}
    {listing : List ScanEntry} (ok : (openStore config files openIo).1 = .kOk)
    (listed : openIo.listing = some listing) :
    LogInv
      { system := { store := (openStore config files openIo).2 }
        found := (listing.foldl scanSegment (constructed config files)).segments } := by
  rcases open_behind ok listed with ⟨seg, b, rest, current, pool, opened⟩
  have room := (scan_segments listing (constructed config files) (by simp [constructed])
    (by simp [constructed])).2.1
  have below := scan_found_below listing (constructed config files) (by simp [FoundBelow, constructed])
  exact ⟨⟨_, _, opened, below, LogOk.first_block room current pool⟩, fun _ _ => rfl⟩

theorem log_inv {run : LogRun} (reached : ReachWithin logMachine bufferedLog run) (bound : LogBound run) :
    LogInv run := by
  have bounded := reached.invariant_under LogBound LogInv
  apply bounded _ _ _ bound
  · intro before label after moved boundAfter
    exact log_bound_earlier moved boundAfter
  · intro start initial
    rcases initial with ⟨config, files, io, listing, ok, listed, rfl⟩
    exact LogInv.opened ok listed
  · intro before label after boundAfter inv allowed moved
    exact inv.step allowed moved (log_bound_earlier moved boundAfter)

end Runs

/-! ## Flushed segments -/

section Decode

variable {s : BlobStore} {flush : FlushPc} {unwritten : List Ack} {placed : List PlacedBlob}
  {writer : WriterPc} {seg : SegmentInfo} {floor : Nat}

/-- A blob that waits for its write lies in a pending block. -/
theorem PlacedInv.flushed (inv : PlacedInv s flush unwritten placed) (flushed : AllFlushed s)
    {p : PlacedBlob} (member : p ∈ placed) : p.ack ∉ unwritten := by
  intro waits
  rcases inv.buffered p member waits with ⟨b, _, keeps, holds⟩
  have pending : b ∈ s.pendingBlocks := by
    unfold pendingBlocks
    rw [inv.flushing]
    rcases keeps with inQueue | writing | active
    · exact List.mem_append_right _ inQueue
    · simp [writing, FlushPc.block]
    · simp [active.1]
  have empty := flushed b pending
  have start := holds.start
  have stop := holds.stop
  have positive := inv.rows.positive member
  omega

theorem LogOk.row (log : LogOk floor s flush unwritten placed writer) (member : seg ∈ s.segments) :
    SegmentRow placed seg := by
  by_cases empty : placedIn placed seg.id = []
  · rcases log.segments.unused seg member empty with ⟨fd, offset⟩
    refine ⟨fd, ?_⟩
    rw [empty, offset]
    exact .nil kSegmentHeaderSize
  · exact log.blobs.rows.rows seg member empty

theorem LogOk.decodes (log : LogOk floor s flush unwritten placed writer) (flushed : AllFlushed s)
    (member : seg ∈ s.segments) {io : Nat → ScanIo} (honoured : ∀ offset, (io offset).Honoured)
    (fuel : Nat) (enough : seg.writeOffset - kSegmentHeaderSize < fuel) :
    gcWalk (s.files (.canonical seg.id)) seg.writeOffset io fuel kSegmentHeaderSize =
      some ((placedIn placed seg.id).flatMap PlacedBlob.events) := by
  have row := (log.row member).row
  have rows := log.blobs.rows
  have few := row.length_le fun p inSegment => rows.positive (placed_in_iff.1 inSegment).1
  apply walk_row row _ honoured fuel (by omega)
  intro p inSegment
  rcases placed_in_iff.1 inSegment with ⟨known, same⟩
  have written := log.blobs.flushed flushed known
  have stored := log.blobs.stored p known written ⟨seg, member, same.symm⟩
  rw [same] at stored
  exact ⟨rows.requests p known, stored⟩

end Decode

/-- After any run of buffered writes, once no block waits any more, the scan of
every segment that the store has created visits exactly the entries that were
placed in it, in the order of their writes, at their offsets and with their
requests. Nothing was placed in a segment that `open` found. -/
theorem log_decodes {run : LogRun} (reached : ReachWithin logMachine bufferedLog run)
    (few : run.store.nextSegmentId < 2 ^ 32) (small : blockCapacity run.store.config < 2 ^ 31)
    (flushed : AllFlushed run.store) {io : Nat → ScanIo} (honoured : ∀ offset, (io offset).Honoured) :
    (∀ seg ∈ run.created, ∃ path, seg.fd = some path ∧
      ∀ fuel, seg.writeOffset - kSegmentHeaderSize < fuel →
        gcWalk (run.store.files path) seg.writeOffset io fuel kSegmentHeaderSize =
          some ((placedIn run.placed seg.id).flatMap fun p =>
            [.header, .entry p.ack.loc.offset (entryDiskSize p.request.data.length) p.request])) ∧
      ∀ seg ∈ run.found, placedIn run.placed seg.id = [] := by
  obtain ⟨own, floor, behind, below, log⟩ := (log_inv reached ⟨few, small⟩).log
  rw [behind] at few flushed
  constructor
  · intro seg member
    rw [LogRun.created, behind, BlobStore.behind, List.drop_left] at member
    refine ⟨_, (log.row member).fd, ?_⟩
    intro fuel enough
    rw [behind]
    exact log.decodes flushed member honoured fuel enough
  · intro old member
    apply placed_in_eq_nil
    intro p known same
    rcases List.mem_map.1 (log.segments.homes p known) with ⟨seg, listed, id⟩
    have above := log.segments.above seg listed
    have lower := log.segments.below seg listed
    have last : own.nextSegmentId < 2 ^ 32 := few
    rcases below old member with smaller | wrapped
    · omega
    · omega

/-! ## Two entries in one block -/

instance (run : LogRun) : DecidablePred (bufferedLog run)
  | .store (.writeBegin _ _ _) => inferInstanceAs (Decidable (_ ∧ _))
  | .store (.flush (.write _)) => inferInstanceAs (Decidable (∀ b ∈ run.system.flush.block, _))
  | .store (.flush .pop) | .store (.flush .release) | .retire => isTrue trivial
  | .store (.writeResume _ _) | .store (.writeDirect _ _ _) => isTrue trivial
  | .store (.readBegin _ _ _) | .store (.readPending _) | .store (.readLookup _) => isTrue trivial
  | .store (.readDisk _ _) => isTrue trivial

def twoEntryLabels : List LogLabel :=
  [.store (.writeBegin 0 (smallRequest 1) {}), .store (.writeBegin 0 emptyRequest {}), .retire,
    .store (.flush .pop), .store (.flush (.write .complete)), .store (.flush .release)]

def openedRun : LogRun := { system := openedSystem }

def twoEntryRun : LogRun := last logMachine openedRun twoEntryLabels

def oldEntry : ScanEntry := { path := .canonical 0 }

def reopenedLog : LogRun :=
  { system :=
      { store := (openStore twoBlockConfig twoEntryRun.store.files { listing := some [oldEntry] }).2 }
    found := ([oldEntry].foldl scanSegment (constructed twoBlockConfig twoEntryRun.store.files)).segments }

def secondRun : LogRun := last logMachine reopenedLog twoEntryLabels

theorem second_run_reached : ReachWithin logMachine bufferedLog secondRun := by
  have started : ReachWithin logMachine bufferedLog reopenedLog :=
    .start ⟨twoBlockConfig, twoEntryRun.store.files, { listing := some [oldEntry] }, [oldEntry],
      by decide +kernel, rfl, rfl⟩
  exact started.to_last (fun _ => True) (fun run label => decide (bufferedLog run label))
    (fun _ _ _ allowed => of_decide_eq_true allowed) (fun _ _ _ _ _ _ => trivial) trivial twoEntryLabels
    (by decide +kernel)

theorem second_run_flushed : AllFlushed secondRun.store := by
  have none : secondRun.store.pendingBlocks = [] := by decide +kernel
  intro b member
  rw [none] at member
  contradiction

def oldSegment : SegmentInfo :=
  { id := 0, fd := some (.canonical 0), writeOffset := 12288, entryCount := 0, liveCount := 0 }

def newSegment : SegmentInfo :=
  { id := 1, fd := some (.canonical 1), writeOffset := 12288, entryCount := 2, liveCount := 2 }

/-- The scan of the new segment finds the two entries, the second of them
without a blob, and none of them is in the old segment. -/
theorem log_decodes_two_entries :
    (∃ path, newSegment.fd = some path ∧ ∀ fuel, newSegment.writeOffset - kSegmentHeaderSize < fuel →
      gcWalk (secondRun.store.files path) newSegment.writeOffset (fun _ => {}) fuel kSegmentHeaderSize =
        some [.header, .entry 4096 4096 (smallRequest 1), .header, .entry 8192 4096 emptyRequest]) ∧
      placedIn secondRun.placed oldSegment.id = [] := by
  have placed : ((placedIn secondRun.placed newSegment.id).flatMap fun p =>
      [ScanEvent.header,
        .entry p.ack.loc.offset (entryDiskSize p.request.data.length) p.request]) =
      [.header, .entry 4096 4096 (smallRequest 1), .header, .entry 8192 4096 emptyRequest] := by
    decide +kernel
  rw [← placed]
  have honoured : ∀ offset : Nat, ((fun _ => {} : Nat → ScanIo) offset).Honoured :=
    fun _ => ⟨rfl, rfl, rfl⟩
  have decoded := log_decodes second_run_reached (by decide +kernel) (by decide +kernel) second_run_flushed
    honoured
  exact ⟨decoded.1 newSegment (by decide +kernel), decoded.2 oldSegment (by decide +kernel)⟩

/-- The scan of the old segment finds the entries of the first run, although no
write of the second run is there. -/
theorem old_entries_visited :
    ∃ run, ReachWithin logMachine bufferedLog run ∧ run.store.nextSegmentId < 2 ^ 32 ∧
      blockCapacity run.store.config < 2 ^ 31 ∧ AllFlushed run.store ∧
      ∃ seg ∈ run.store.segments, ∃ path, seg.fd = some path ∧
        seg.writeOffset - kSegmentHeaderSize < 8193 ∧
        gcWalk (run.store.files path) seg.writeOffset (fun _ => {}) 8193 kSegmentHeaderSize =
          some [.header, .entry 4096 4096 (smallRequest 1), .header, .entry 8192 4096 emptyRequest] ∧
        (placedIn run.placed seg.id).flatMap (fun p =>
          [ScanEvent.header,
            .entry p.ack.loc.offset (entryDiskSize p.request.data.length) p.request]) = [] :=
  ⟨secondRun, second_run_reached, by decide +kernel, by decide +kernel, second_run_flushed, oldSegment,
    by decide +kernel, .canonical 0, rfl, by decide, by decide +kernel, by decide +kernel⟩

end AttentionDB
