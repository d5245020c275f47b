import AttentionDB.Storage.ReadYourWrites
import AttentionDB.Storage.SegmentRows

/-!
# Where the limit on a segment holds

A rotation tests whether a whole block still fits below `segment_size`, the
direct path whether its entry does. Neither test is made when the segment is
new, and `open` makes none. So every entry ends below the limit exactly when a
block fits behind the header of a segment, apart from configurations in which
no block takes an entry that the limit is about.
-/

namespace AttentionDB

open GuardedRuns BlobStore

set_option autoImplicit false

/-- The location ends below `segment_size`, if an entry of its size could at
all. -/
def WithinLimit (config : NvmeStoreConfig) (loc : BlobLocation) : Prop :=
  loc.diskSize + kSegmentHeaderSize ≤ config.segmentSize.toNat →
    loc.offset + loc.diskSize ≤ config.segmentSize.toNat

/-- The sections of one caller whose writes all succeed. -/
def oneCallerSucceeds (system : StoreSystem) : StoreLabel → Prop
  | .writeBegin t request io => t = 0 ∧
      ∀ status after, system.store.writeEnter request io ≠ some (.failed status, after)
  | .writeResume t io => t = 0 ∧ ∀ request, system.writers t = .waiting request →
      ∀ status after, system.store.acquireAndAppend request io ≠ some (.failed status, after)
  | .writeDirect t io result => t = 0 ∧ ∀ request, system.writers t = .direct request →
      ∀ status after, system.store.writeDirect request io result ≠ some (.failed status, after)
  | _ => True

/-- Every location that a write returns in such a run is within the limit. -/
def RespectsLimit (config : NvmeStoreConfig) : Prop :=
  ∀ system, ReachWithin storeMachine oneCallerSucceeds system → system.store.config = config →
    ∀ ack ∈ system.acked, WithinLimit config ack.loc

/-- The store opens with blocks that fit behind the header of a segment; or it
does not open, has blocks without room, a limit in the header, or one in the
first entry, where only a location of `disk_size` 2^32 mod 2^32 = 0 counts. -/
def FitsLimit (config : NvmeStoreConfig) : Prop :=
  kSegmentHeaderSize + blockCapacity config ≤ config.segmentSize.toNat ∨
    config.paths = [] ∨ config.writeBlockPoolSize = 0 ∨ blockCapacity config = 0 ∨
    config.segmentSize.toNat < kSegmentHeaderSize ∨
    (config.segmentSize.toNat < kSegmentHeaderSize + kAlignment ∧ blockCapacity config ≤ 2 ^ 32)

/-! ## Where an entry may be placed -/

/-- A start where a block fits below the limit, or that was not tested. -/
def StartsWell (config : NvmeStoreConfig) (start : Nat) : Prop :=
  start ≤ kSegmentHeaderSize ∨ start + blockCapacity config ≤ config.segmentSize.toNat

/-- In a block with such a start, or where the direct path has found room. -/
inductive PlacedAt (config : NvmeStoreConfig) (loc : BlobLocation) : Prop where
  | block (start pos len : Nat) (short : len < 2 ^ 32)
      (fits : pos + entryDiskSize len ≤ blockCapacity config) (starts : StartsWell config start)
      (offset : loc.offset = start + pos) (diskSize : loc.diskSize = entryDiskSize len % 2 ^ 32)
  | direct (len : Nat)
      (room : loc.offset = kSegmentHeaderSize ∨
        loc.offset + entryDiskSize len ≤ config.segmentSize.toNat)
      (diskSize : loc.diskSize = entryDiskSize len % 2 ^ 32)

/-- The blocks of the store, apart from its history. -/
structure BlocksWell (s : BlobStore) : Prop where
  capacity : ∀ b, (s.blocks b).capacity = blockCapacity s.config
  starts : ∀ b, StartsWell s.config (s.blocks b).segmentOffset

structure PlacesWell (system : StoreSystem) : Prop where
  blocks : BlocksWell system.store
  placed : ∀ ack ∈ system.acked, PlacedAt system.store.config ack.loc
  waiting : ∀ t request, system.writers t = .waiting request →
    request.data.length ≤ 2 ^ 32 - 1 - kEntryHeaderSize ∧
      entryDiskSize request.data.length ≤ blockCapacity system.store.config

/-- The limit is kept wherever such placements keep it. -/
theorem PlacedAt.within {config : NvmeStoreConfig} {loc : BlobLocation} (placed : PlacedAt config loc)
    (fits : kSegmentHeaderSize + blockCapacity config ≤ config.segmentSize.toNat ∨
      blockCapacity config = 0 ∨ config.segmentSize.toNat < kSegmentHeaderSize ∨
      (config.segmentSize.toNat < kSegmentHeaderSize + kAlignment ∧ blockCapacity config ≤ 2 ^ 32)) :
    WithinLimit config loc := by
  intro possible
  have header : kSegmentHeaderSize = 4096 := rfl
  have alignment : kAlignment = 4096 := rfl
  cases placed with
  | direct len room diskSize =>
      have least := Nat.mod_le (entryDiskSize len) (2 ^ 32)
      omega
  | block start pos len short inBlock starts offset diskSize =>
      have least := Nat.mod_le (entryDiskSize len) (2 ^ 32)
      have size := entry_fits len short
      have aligned := entry_disk_size_aligned len short
      rw [alignment] at aligned
      rcases fits with room | none | below | ⟨first, small⟩
      · rcases starts with start_low | start_fits <;> omega
      · unfold kEntryHeaderSize at size
        omega
      · omega
      · -- the location has size 0, so the entry has 2^32 bytes and fills the block
        have whole : entryDiskSize len = 2 ^ 32 := by
          unfold kEntryHeaderSize at size
          omega
        rcases starts with start_low | start_fits <;> omega

section Steps

variable {system after : StoreSystem} {s store : BlobStore} {request : WriteRequest} {io : SegmentIo}
  {outcome : WriteOutcome} {seg : SegmentInfo}

theorem created_starts (current : (s.createNewSegment io).currentSegment = some seg) :
    seg.writeOffset = kSegmentHeaderSize := by
  rw [created_current current]
  rfl

/-- The segment for a block starts it well. -/
theorem next_block_starts (capacity : ∀ b, (s.blocks b).capacity = blockCapacity s.config) (b : Nat)
    (rest : List Nat) (current : (s.withNextBlock b rest io).currentSegment = some seg) :
    StartsWell s.config seg.writeOffset := by
  unfold withNextBlock at current
  rcases segment_for_block_cases { s with freePool := rest, activeBlock := some b } b io with
    created | ⟨stays, old, oldCurrent, room⟩
  · rw [created] at current
    exact .inl (Nat.le_of_eq (created_starts current))
  · rw [stays, oldCurrent] at current
    cases current
    have sameRoom : seg.writeOffset + (s.blocks b).capacity ≤ s.config.segmentSize.toNat := room
    rw [capacity b] at sameRoom
    exact .inr sameRoom

theorem segment_for_entry_starts {diskSize : Nat}
    (current : (s.segmentForEntry diskSize io).currentSegment = some seg) :
    seg.writeOffset = kSegmentHeaderSize ∨ seg.writeOffset + diskSize ≤ s.config.segmentSize.toNat := by
  rcases segment_for_entry_cases s io diskSize with created | ⟨stays, old, oldCurrent, room⟩
  · rw [created] at current
    exact .inl (created_starts current)
  · rw [stays, oldCurrent] at current
    cases current
    exact .inr room

theorem BlocksWell.appended (well : BlocksWell s) (b i : Nat) (request : WriteRequest) :
    BlocksWell (s.appended b i request) := by
  constructor
  · intro c
    rw [appended_capacity]
    exact well.capacity c
  · intro c
    rw [appended_offset]
    exact well.starts c

theorem BlocksWell.reset (well : BlocksWell s) (b : Nat) (starts : StartsWell s.config seg.writeOffset) :
    BlocksWell (s.resetBlock b seg) := by
  constructor
  · intro c
    rw [reset_block_capacity]
    exact well.capacity c
  · intro c
    by_cases same : c = b
    · subst same
      rw [reset_block_block]
      exact starts
    · rw [reset_block_other s b seg same]
      exact well.starts c

theorem next_block_config (s : BlobStore) (b : Nat) (rest : List Nat) (io : SegmentIo) :
    (s.withNextBlock b rest io).config = s.config := by
  simp [withNextBlock]

theorem BlocksWell.acquire (well : BlocksWell s) (short : request.data.length < 2 ^ 32)
    (fits : entryDiskSize request.data.length ≤ blockCapacity s.config)
    (cases : AcquireCases s request io outcome store) :
    BlocksWell store ∧ ∀ loc, outcome = .stored loc → PlacedAt s.config loc := by
  cases cases with
  | sleeps empty running => exact ⟨well, by simp⟩
  | stopped empty halted => exact ⟨⟨well.capacity, well.starts⟩, by simp⟩
  | noSegment b rest free missing =>
      refine ⟨?_, by simp⟩
      constructor
      · rw [next_block_blocks, next_block_config]
        exact well.capacity
      · rw [next_block_blocks, next_block_config]
        exact well.starts
  | appends b rest seg i free current found usable =>
      have starts := next_block_starts well.capacity b rest (current_segment_found current found)
      have sought : BlocksWell (s.withNextBlock b rest io) := by
        constructor
        · rw [next_block_blocks, next_block_config]
          exact well.capacity
        · rw [next_block_blocks, next_block_config]
          exact well.starts
      have startsThere : StartsWell (s.withNextBlock b rest io).config seg.writeOffset := by
        rw [next_block_config]
        exact starts
      refine ⟨(sought.reset b startsThere).appended b i request, ?_⟩
      intro loc stored
      cases stored
      exact .block seg.writeOffset 0 request.data.length short (by omega) starts rfl rfl

theorem BlocksWell.enter (well : BlocksWell s) (cases : EnterCases s request io outcome store) :
    BlocksWell store ∧ (∀ loc, outcome = .stored loc → PlacedAt s.config loc) ∧
      (outcome = .waiting → request.data.length ≤ 2 ^ 32 - 1 - kEntryHeaderSize ∧
        entryDiskSize request.data.length ≤ blockCapacity s.config) := by
  have header : kEntryHeaderSize = 64 := rfl
  cases cases with
  | refused status bad => exact ⟨well, by simp, by simp⟩
  | goesDirect b isActive long short => exact ⟨well, by simp, by simp⟩
  | rotates b isActive fits full short rest =>
      rw [well.capacity b] at fits
      have queued : BlocksWell (s.queued b) := ⟨well.capacity, well.starts⟩
      rcases queued.acquire (by omega) fits rest with ⟨kept, placed⟩
      exact ⟨kept, placed, fun _ => ⟨short, fits⟩⟩
  | appends b i isActive room short current =>
      refine ⟨well.appended b i request, ?_, by simp⟩
      intro loc stored
      cases stored
      rw [well.capacity b] at room
      exact .block (s.blocks b).segmentOffset (s.blocks b).pos request.data.length (by omega) room
        (well.starts b) rfl rfl

/-- A section on the buffered path. -/
theorem PlacesWell.section (well : PlacesWell system) (t : Nat) (config : store.config = system.store.config)
    (blocks : BlocksWell store) (placed : ∀ loc, outcome = .stored loc → PlacedAt system.store.config loc)
    (waits : outcome = .waiting → request.data.length ≤ 2 ^ 32 - 1 - kEntryHeaderSize ∧
      entryDiskSize request.data.length ≤ blockCapacity system.store.config) :
    PlacesWell (system.afterSection t request (outcome, store)) := by
  constructor
  · rw [StoreSystem.after_section_store]
    exact blocks
  · rw [StoreSystem.after_section_store, StoreSystem.after_section_acked, config]
    intro ack member
    cases outcome with
    | stored loc =>
        rcases List.mem_cons.1 member with rfl | old
        · exact placed loc rfl
        · exact well.placed ack old
    | failed | waiting | direct => exact well.placed ack member
  · rw [StoreSystem.after_section_store, StoreSystem.after_section_writers, config]
    intro u other pc
    by_cases same : u = t
    · subst same
      rw [Function.update_self] at pc
      cases outcome with
      | waiting =>
          cases pc
          exact waits rfl
      | stored | failed | direct => contradiction
    · rw [Function.update_of_ne same] at pc
      exact well.waiting u other pc

theorem PlacesWell.direct (well : PlacesWell system) (t : Nat) {result : IoResult}
    (run : system.store.writeDirect request io result = some (outcome, store)) :
    PlacesWell (system.afterDirect t request (outcome, store)) := by
  have config := (write_direct_monotone run).2
  have frame := (write_direct_frame run).1
  have blocks : BlocksWell store := by
    constructor
    · rw [frame, config]
      exact well.blocks.capacity
    · rw [frame, config]
      exact well.blocks.starts
  have placed : ∀ loc, outcome = .stored loc → PlacedAt system.store.config loc := by
    intro loc stored
    rcases write_direct_cases run with ⟨active, seg, files, current, found, ⟨failed, _⟩ | ⟨isStored, _⟩⟩
    · rw [failed] at stored
      contradiction
    · rw [isStored] at stored
      cases stored
      exact .direct request.data.length
        (segment_for_entry_starts (current_segment_found current found)) rfl
  constructor
  · rw [StoreSystem.after_direct_store]
    exact blocks
  · rw [StoreSystem.after_direct_store, config]
    intro ack member
    cases outcome with
    | stored loc =>
        rcases List.mem_cons.1 member with rfl | old
        · exact placed loc rfl
        · exact well.placed ack old
    | failed | waiting | direct => exact well.placed ack member
  · rw [StoreSystem.after_direct_store, StoreSystem.after_direct_writers, config]
    intro u other pc
    by_cases same : u = t
    · subst same
      rw [Function.update_self] at pc
      contradiction
    · rw [Function.update_of_ne same] at pc
      exact well.waiting u other pc

theorem PlacesWell.step (well : PlacesWell system) {label : StoreLabel}
    (moved : storeMachine.exec system label = some after) : PlacesWell after := by
  have header : kEntryHeaderSize = 64 := rfl
  have config := (store_step_monotone moved).2
  cases label with
  | writeBegin t request io =>
      rcases StoreSystem.write_begin_step moved with ⟨outcome, store, _, entered, rfl⟩
      rw [StoreSystem.after_section_store] at config
      rcases well.blocks.enter (enter_cases entered) with ⟨blocks, placed, waits⟩
      exact well.section t config blocks placed waits
  | writeResume t io =>
      rcases StoreSystem.write_resume_step moved with ⟨request, outcome, store, waiting, resumed, rfl⟩
      rw [StoreSystem.after_section_store] at config
      rcases well.waiting t request waiting with ⟨short, fits⟩
      rcases well.blocks.acquire (by omega) fits (acquire_cases resumed) with ⟨blocks, placed⟩
      exact well.section t config blocks placed fun _ => ⟨short, fits⟩
  | writeDirect t io result =>
      rcases StoreSystem.write_direct_step moved with ⟨_, outcome, store, _, written, rfl⟩
      exact well.direct t written
  | flush step =>
      rcases StoreSystem.flush_thread_step moved with ⟨pc, store, ran, rfl⟩
      have blocks := (flush_step_frame ran).1
      simp only at config
      constructor
      · constructor
        · rw [blocks, config]
          exact well.blocks.capacity
        · rw [blocks, config]
          exact well.blocks.starts
      · rw [config]
        exact well.placed
      · rw [config]
        exact well.waiting
  | readBegin r loc bufLen | readPending r | readLookup r | readDisk r readOk =>
      simp only [storeMachine] at moved
      rcases StoreSystem.reader_step rfl moved with ⟨reader, pc, rfl⟩
      exact ⟨well.blocks, well.placed, well.waiting⟩

end Steps

theorem PlacesWell.opened {config : NvmeStoreConfig} {files : Files} {openIo : OpenIo}
    (ok : (openStore config files openIo).1 = .kOk) :
    PlacesWell { store := (openStore config files openIo).2 } := by
  rcases open_store_cases ok with ⟨listing, seg, b, rest, _, current, _, opened⟩
  rcases scan_frame listing (constructed config files) with ⟨blocks, configIs, _⟩
  have untouched : BlocksWell (withSegments config files listing openIo.segment) := by
    constructor
    · rw [withSegments, create_blocks, create_config, blocks, configIs]
      exact fun _ => rfl
    · rw [withSegments, create_blocks, blocks]
      exact fun _ => .inl (Nat.zero_le _)
  have start : seg.writeOffset = kSegmentHeaderSize := created_starts current
  have reset := untouched.reset b (.inl (Nat.le_of_eq start))
  refine ⟨?_, by simp, by simp⟩
  rw [opened]
  exact ⟨reset.capacity, reset.starts⟩

/-- Only a store with a path and a block opens. -/
theorem open_store_possible {config : NvmeStoreConfig} {files : Files} {openIo : OpenIo}
    (ok : (openStore config files openIo).1 = .kOk) :
    config.paths ≠ [] ∧ config.writeBlockPoolSize ≠ 0 := by
  rcases open_store_cases ok with ⟨_, _, b, rest, _, _, pool, _⟩
  constructor
  · intro noPath
    simp [openStore, noPath] at ok
  · intro noBlock
    simp [noBlock] at pool

theorem opened_config {system : StoreSystem} (reached : Reach storeMachine system) :
    system.store.config.paths ≠ [] ∧ system.store.config.writeBlockPoolSize ≠ 0 := by
  apply reached.invariant fun system =>
    system.store.config.paths ≠ [] ∧ system.store.config.writeBlockPoolSize ≠ 0
  · intro start initial
    rcases initial with ⟨config, files, io, ok, rfl⟩
    rw [open_store_config ok]
    exact open_store_possible ok
  · intro before label after possible _ moved
    rw [(store_step_monotone moved).2]
    exact possible

theorem places_well {system : StoreSystem} (reached : Reach storeMachine system) : PlacesWell system := by
  apply reached.invariant PlacesWell
  · intro start initial
    rcases initial with ⟨config, files, io, ok, rfl⟩
    exact PlacesWell.opened ok
  · intro before label after well _ moved
    exact well.step moved

/-! ## Filling the first block -/

/-- A run of one caller that has filled the first block of the store up to
`pos`. -/
structure Filling (config : NvmeStoreConfig) (system : StoreSystem) (pos : Nat) : Prop where
  reached : ReachWithin storeMachine oneCallerSucceeds system
  configIs : system.store.config = config
  idle : system.writers 0 = .idle
  block : ∃ b i, system.store.activeBlock = some b ∧ system.store.activeSegment = some i ∧
    (system.store.blocks b).segmentOffset = kSegmentHeaderSize ∧
    (system.store.blocks b).pos = pos ∧
    (system.store.blocks b).capacity = blockCapacity config

section Filling

variable {config : NvmeStoreConfig} {system : StoreSystem} {pos : Nat}

theorem filling_opened (hasPath : config.paths ≠ []) (hasBlock : config.writeBlockPoolSize ≠ 0) :
    Filling config { store := (openStore config (fun _ => File.empty) {}).2 } 0 := by
  have some_blocks : (List.range config.writeBlockPoolSize.toNat).reverse ≠ [] := by
    have positive : config.writeBlockPoolSize.toNat ≠ 0 := by
      intro none
      exact hasBlock (UInt32.toNat_inj.1 (by simpa using none))
    simpa using positive
  have ok : (openStore config (fun _ => File.empty) {}).1 = .kOk := by
    cases pool : (List.range config.writeBlockPoolSize.toNat).reverse with
    | nil => exact absurd pool some_blocks
    | cons b rest =>
        simp [openStore, hasPath, createNewSegment, constructed, currentSegment, takeBlock, pool]
  have well := PlacesWell.opened ok
  rcases open_store_cases ok with ⟨listing, seg, b, rest, _, current, _, opened⟩
  have configIs := open_store_config ok
  have start : seg.writeOffset = kSegmentHeaderSize := created_starts current
  refine ⟨.start ⟨config, _, {}, ok, rfl⟩, configIs, rfl, ?_⟩
  have capacity := well.blocks.capacity b
  simp only [configIs] at capacity
  cases active : (withSegments config (fun _ => File.empty) listing ({} : OpenIo).segment).activeSegment with
  | none =>
      rw [currentSegment, active] at current
      contradiction
  | some i =>
      refine ⟨b, i, ?_, ?_, ?_, ?_, capacity⟩
      · rw [opened]
      · rw [opened]
        exact active
      · rw [opened]
        simp [WriteBlock.reset, start]
      · rw [opened]
        simp [WriteBlock.reset]

/-- One more entry that still fits the block. -/
theorem Filling.append (fill : Filling config system pos) (request : WriteRequest)
    (short : request.data.length ≤ 2 ^ 32 - 1 - kEntryHeaderSize)
    (room : pos + entryDiskSize request.data.length ≤ blockCapacity config) :
    ∃ after, Filling config after (pos + entryDiskSize request.data.length) ∧
      ∃ ack ∈ after.acked, ack.loc.offset = kSegmentHeaderSize + pos ∧
        ack.loc.diskSize = entryDiskSize request.data.length % 2 ^ 32 := by
  rcases fill.block with ⟨b, i, isActive, current, offset, cursor, capacity⟩
  have wrote : system.store.writeEnter request {} =
      some (.stored (blockLocation (system.store.blocks b) request.data.length),
        system.store.appended b i request) :=
    write_enter_appends system.store b i request {} isActive short (by omega) current
  have moved : storeMachine.exec system (.writeBegin 0 request {}) =
      some (system.afterSection 0 request
        (.stored (blockLocation (system.store.blocks b) request.data.length),
          system.store.appended b i request)) := by
    simp only [storeMachine, StoreSystem.exec, fill.idle, wrote, Option.map_some]
  have allowed : oneCallerSucceeds system (.writeBegin 0 request {}) := by
    refine ⟨rfl, ?_⟩
    intro status after failed
    rw [wrote] at failed
    cases failed
  refine ⟨_, ⟨.next fill.reached allowed moved, fill.configIs, ?_, b, i, isActive, current, ?_, ?_, ?_⟩, ?_⟩
  · simp [StoreSystem.pcAfter]
  · simp only [StoreSystem.after_section_store, appended_block]
    exact offset
  · simp only [StoreSystem.after_section_store, appended_block]
    exact congrArg (· + entryDiskSize request.data.length) cursor
  · simp only [StoreSystem.after_section_store, appended_block]
    exact capacity
  · refine ⟨_, List.mem_cons_self, ?_, rfl⟩
    simp only [blockLocation, offset, cursor]

theorem empty_entry_size : entryDiskSize emptyRequest.data.length = 4096 := by decide

theorem empty_entries_fill (hasPath : config.paths ≠ []) (hasBlock : config.writeBlockPoolSize ≠ 0)
    (n : Nat) (room : n * 4096 ≤ blockCapacity config) : ∃ system, Filling config system (n * 4096) := by
  induction n with
  | zero =>
      rw [Nat.zero_mul]
      exact ⟨_, filling_opened hasPath hasBlock⟩
  | succ n ih =>
      rw [Nat.succ_mul] at room ⊢
      rcases ih (Nat.le_of_add_right_le room) with ⟨system, fill⟩
      have grown : n * 4096 + entryDiskSize emptyRequest.data.length ≤ blockCapacity config := by
        rw [empty_entry_size]
        exact room
      rcases fill.append emptyRequest (by decide) grown with ⟨after, filled, _⟩
      rw [empty_entry_size] at filled
      exact ⟨after, filled⟩

/-- The last entry of the first block ends where the block does. -/
theorem full_block_exceeds (hasPath : config.paths ≠ []) (hasBlock : config.writeBlockPoolSize ≠ 0)
    (positive : blockCapacity config ≠ 0) :
    ∃ system, Filling config system (blockCapacity config) ∧ ∃ ack ∈ system.acked,
      ack.loc.diskSize = 4096 ∧
        ack.loc.offset + ack.loc.diskSize = kSegmentHeaderSize + blockCapacity config := by
  have whole : ∃ n, blockCapacity config = n * 4096 + 4096 := by
    refine ⟨config.writeBlockSizeMb.toNat * 256 - 1, ?_⟩
    unfold blockCapacity at positive ⊢
    omega
  rcases whole with ⟨n, size⟩
  rcases empty_entries_fill hasPath hasBlock n (by omega) with ⟨system, fill⟩
  rcases fill.append emptyRequest (by decide) (by rw [empty_entry_size]; omega) with
    ⟨after, filled, ack, member, offset, diskSize⟩
  rw [empty_entry_size] at filled diskSize
  rw [← size] at filled
  exact ⟨after, filled, ack, member, diskSize, by omega⟩

/-- In a block of more than 4 GiB an entry of 2^32 bytes, whose location says
0 bytes, may come second. -/
theorem huge_entry_exceeds (hasPath : config.paths ≠ []) (hasBlock : config.writeBlockPoolSize ≠ 0)
    (huge : 2 ^ 32 < blockCapacity config) :
    ∃ system, ReachWithin storeMachine oneCallerSucceeds system ∧ system.store.config = config ∧
      ∃ ack ∈ system.acked, ack.loc.diskSize = 0 ∧ ack.loc.offset = kSegmentHeaderSize + kAlignment := by
  have room : 2 ^ 32 + 4096 ≤ blockCapacity config := by
    unfold blockCapacity at huge ⊢
    omega
  rcases empty_entries_fill hasPath hasBlock 1 (by omega) with ⟨system, fill⟩
  let request : WriteRequest :=
    { key := probeKey, data := List.replicate (2 ^ 32 - 65) 0, checksum := 0 }
  have length : request.data.length = 2 ^ 32 - 65 := List.length_replicate
  have size : entryDiskSize request.data.length = 2 ^ 32 := by
    rw [length, entry_disk_size_eq _ (by omega)]
    decide
  rcases fill.append request (by rw [length]; decide) (by rw [size]; omega) with
    ⟨after, filled, ack, member, offset, diskSize⟩
  rw [size] at diskSize
  exact ⟨after, filled.reached, filled.configIs, ack, member, diskSize, offset⟩

end Filling

/-! ## The limit -/

/-- The returned locations stay below `segment_size` in every run of one caller
exactly for the configurations in which the first block does. -/
theorem segment_limit_iff (config : NvmeStoreConfig) : RespectsLimit config ↔ FitsLimit config := by
  constructor
  · intro respects
    by_contra misfit
    unfold FitsLimit at misfit
    push Not at misfit
    rcases misfit with ⟨noRoom, hasPath, hasBlock, positive, above, first⟩
    have header : kSegmentHeaderSize = 4096 := rfl
    have alignment : kAlignment = 4096 := rfl
    by_cases beyond : kSegmentHeaderSize + kAlignment ≤ config.segmentSize.toNat
    · rcases full_block_exceeds hasPath hasBlock positive with ⟨system, fill, ack, member, size, stop⟩
      have within := respects system fill.reached fill.configIs ack member (by omega)
      omega
    · rcases huge_entry_exceeds hasPath hasBlock (first (by omega)) with
        ⟨system, reached, configIs, ack, member, size, offset⟩
      have within := respects system reached configIs ack member (by omega)
      omega
  · intro fits system reached configIs ack member
    have anyway : Reach storeMachine system := reached.weaken fun _ _ _ => trivial
    have placed := (places_well anyway).placed ack member
    have possible := opened_config anyway
    rw [configIs] at placed possible
    rcases fits with room | noPath | noBlock | rest
    · exact placed.within (.inl room)
    · exact absurd noPath possible.1
    · exact absurd noBlock possible.2
    · exact placed.within (.inr rest)

def megabyteSegmentConfig : NvmeStoreConfig := { segmentSize := 2 ^ 20 }

/-- The first block of that store is filled past the end of its segment. -/
theorem small_segment_exceeded : ∃ system, ReachWithin storeMachine oneCallerSucceeds system ∧
    system.store.config = megabyteSegmentConfig ∧ ∃ ack ∈ system.acked,
      ack.loc.diskSize = 4096 ∧ ack.loc.offset + ack.loc.diskSize = 8392704 ∧
        ¬WithinLimit megabyteSegmentConfig ack.loc := by
  rcases full_block_exceeds (by decide) (by decide) (by decide : blockCapacity megabyteSegmentConfig ≠ 0) with
    ⟨system, fill, ack, member, size, stop⟩
  have limit : megabyteSegmentConfig.segmentSize.toNat = 1048576 := by decide
  have capacity : kSegmentHeaderSize + blockCapacity megabyteSegmentConfig = 8392704 := by decide
  rw [capacity] at stop
  refine ⟨system, fill.reached, fill.configIs, ack, member, size, stop, ?_⟩
  intro within
  have below := within (by rw [size, limit]; decide)
  omega

end AttentionDB
