import AttentionDB.Storage.BlockOwnership
import AttentionDB.Storage.GcRuns

/-!
# Garbage collection and the blobs it removes

A compaction removes its segment at the end of its walk, wherever the walk
ended. In runs whose appends go to the end of the active segment and whose
compactions begin when every blob of their segment was written, no removal
loses a blob. A compaction that begins earlier removes a segment whose blobs
are still in a write block.
-/

namespace AttentionDB

open GuardedRuns BlobStore Rows

set_option autoImplicit false

/-! ## Opening -/

section Opening

variable {config : NvmeStoreConfig} {files : Files} {openIo : OpenIo}

/-- The scan gives every segment the id that its file name has. -/
theorem scan_segments (listing : List ScanEntry) (s : BlobStore)
    (paths : ∀ seg ∈ s.segments, ∃ path, seg.fd = some path ∧ path.parsedId % 2 ^ 32 = seg.id)
    (room : s.nextSegmentId < 2 ^ 32) :
    (∀ seg ∈ (listing.foldl scanSegment s).segments,
      ∃ path, seg.fd = some path ∧ path.parsedId % 2 ^ 32 = seg.id) ∧
      (listing.foldl scanSegment s).nextSegmentId < 2 ^ 32 ∧
      (listing.foldl scanSegment s).activeSegment = s.activeSegment := by
  induction listing generalizing s with
  | nil => exact ⟨paths, room, rfl⟩
  | cons entry listing ih =>
      have next : (s.scanSegment entry).nextSegmentId < 2 ^ 32 := by
        unfold scanSegment
        simp only
        split
        all_goals
          simp only
          omega
      have active : (s.scanSegment entry).activeSegment = s.activeSegment := by
        unfold scanSegment
        simp only
        split <;> rfl
      have named : ∀ seg ∈ (s.scanSegment entry).segments,
          ∃ path, seg.fd = some path ∧ path.parsedId % 2 ^ 32 = seg.id := by
        intro seg member
        unfold scanSegment at member
        simp only at member
        split at member
        · rcases List.mem_append.1 member with before | new
          · exact paths seg before
          · rw [List.mem_singleton] at new
            rw [new]
            exact ⟨entry.path, rfl, rfl⟩
        · exact paths seg member
      rw [List.foldl_cons]
      rcases ih (s.scanSegment entry) named next with ⟨pathsAfter, roomAfter, activeAfter⟩
      exact ⟨pathsAfter, roomAfter, activeAfter.trans active⟩

/-- The scanned segments hold nothing that a write of this run placed. -/
theorem scanned_rows (listing : List ScanEntry)
    (distinct : ((listing.foldl scanSegment (constructed config files)).segments.map (·.id)).Nodup) :
    RowsInv (listing.foldl scanSegment (constructed config files)) [] := by
  rcases scan_frame listing (constructed config files) with ⟨blocks, configIs, _, _, _⟩
  rcases scan_segments listing (constructed config files) (by simp [constructed])
    (by simp [constructed]) with ⟨paths, _, active⟩
  refine
    { distinct
      paths
      requests := by simp
      created := by simp
      rows := by simp [placedIn]
      active := ?_
      spans := ?_
      blocks := by simp }
  · intro seg current
    rw [currentSegment, active] at current
    contradiction
  · intro b
    have span : BlockSpan (constructed config files) ((constructed config files).blocks b) := by
      constructor <;> simp [constructed, kSegmentHeaderSize]
    rw [blocks]
    refine { span with
      capacity := ?_
      created := by simp [constructed, kSegmentHeaderSize]
      named := by simp [constructed, kSegmentHeaderSize] }
    rw [configIs]
    rfl

/-- The first block of the pool starts at the end of the active segment. -/
theorem PlacedInv.first_block {s : BlobStore} {seg : SegmentInfo} {b count : Nat} {rest : List Nat}
    (rows : RowsInv s []) (current : s.currentSegment = some seg) (queue : s.flushQueue = [])
    (flushing : s.flushingBlock = none) (pool : (List.range count).reverse = b :: rest) :
    PlacedInv { s.resetBlock b seg with freePool := rest, activeBlock := some b, flushRunning := true }
      .idle [] [] := by
  have distinct : (b :: rest).Nodup := by
    rw [← pool, List.nodup_reverse]
    exact List.nodup_range
  refine
    { rows := (rows.reset current).congr rfl rfl rfl rfl rfl
      roles := ?_
      flushing := flushing
      issued := by simp
      buffered := by simp
      stored := by simp }
  intro c
  have once := List.nodup_iff_count_le_one.1 distinct c
  simp only [otherRoles, reset_block_flush_queue, reset_block_flushing_block, queue, flushing,
    List.count_nil, Option.toList_none, List.count_cons] at once ⊢
  omega

theorem PlacedInv.opened (ok : (openStore config files openIo).1 = .kOk)
    (distinct : ((openStore config files openIo).2.segments.map (·.id)).Nodup) :
    PlacedInv (openStore config files openIo).2 .idle [] [] := by
  rcases open_store_cases ok with ⟨listing, seg, b, rest, listed, current, pool, opened⟩
  rcases scan_frame listing (constructed config files) with ⟨_, _, _, queue, flushing⟩
  rcases scan_segments listing (constructed config files) (by simp [constructed])
    (by simp [constructed]) with ⟨_, room, _⟩
  let scanned := listing.foldl scanSegment (constructed config files)
  have distinctCreated : ((scanned.createNewSegment openIo.segment).segments.map (·.id)).Nodup := by
    rw [opened] at distinct
    exact distinct
  have distinctScanned : (scanned.segments.map (·.id)).Nodup := by
    cases allowed : openIo.segment.opened with
    | true =>
        rw [(create_opened scanned openIo.segment allowed).1, List.map_append] at distinctCreated
        exact (List.nodup_append.1 distinctCreated).1
    | false =>
        rw [(create_refused scanned openIo.segment allowed).1] at distinctCreated
        exact distinctCreated
  have rows : RowsInv (withSegments config files listing openIo.segment) [] :=
    (scanned_rows listing distinctScanned).create room distinctCreated
  have noQueue : (withSegments config files listing openIo.segment).flushQueue = [] := by
    rw [withSegments, create_flush_queue, queue]
    rfl
  have noFlush : (withSegments config files listing openIo.segment).flushingBlock = none := by
    rw [withSegments, create_flushing_block, flushing]
    rfl
  rw [opened]
  exact PlacedInv.first_block rows current noQueue noFlush pool

theorem GcInv.opened (ok : (openStore config files openIo).1 = .kOk) (numbers : SegmentPath → Nat) :
    GcInv { system := { store := (openStore config files openIo).2 }, numbers } := by
  refine { live := ?_, removals := by simp }
  intro distinct
  refine { placed := PlacedInv.opened ok distinct, writers := ?_, pc := trivial }
  constructor <;> simp

end Opening

/-! ## One step -/

section Steps

variable {trigger : Rat} {gc after : GcSystem} {label : GcLabel} {segmentId : Nat}

theorem gc_remove_frame {s store : BlobStore} (run : s.gcRemove segmentId = some store) :
    store.config = s.config ∧ store.activeBlock = s.activeBlock ∧
      ∀ b, otherRoles store b = otherRoles s b := by
  rcases gc_remove_cases run with ⟨rfl, _⟩ | ⟨k, gone, _, _, _, rfl⟩
  · exact ⟨rfl, rfl, fun _ => rfl⟩
  · rcases delete_file_pool (s := s) gone.fd with ⟨active, queue, flushing, free⟩
    refine ⟨delete_file_config gone.fd, active, ?_⟩
    intro b
    simp only [otherRoles, queue, flushing, free]

/-- A step of the GC thread that only moves it on. -/
theorem GcInv.set_pc (inv : GcInv gc) (live : GcLive gc) {pc : GcPc} (ok : GcPcOk gc pc) :
    GcInv { gc with gc := pc } := by
  have leaves : LeavesWalk gc { gc with gc := pc } [] :=
    { placed := (List.append_nil _).symm
      unwritten := fun _ member => .inl member
      seals := fun _ _ sealed => ⟨sealed, by simp⟩ }
  exact
    { live := fun _ => { placed := live.placed, writers := live.writers, pc := leaves.pc_ok ok }
      removals := inv.removals }

theorem GcLive.removal_loses_none (live : GcLive gc) {scan : GcScan} {rest : List Nat}
    (pc : gc.gc = .removing scan rest) : ∀ removal ∈ gc.removalOf scan, removal.LosesNoBlob := by
  intro removal member
  have ok := live.pc
  rw [pc] at ok
  unfold GcSystem.removalOf at member
  split at member
  · rw [List.mem_singleton.1 member]
    intro request isPlaced
    have nonempty : placedIn gc.placed scan.segmentId ≠ [] := by
      intro none
      simp [none] at isPlaced
    rw [ok.2 nonempty]
  · contradiction

theorem GcInv.gc_step (inv : GcInv gc) (live : GcLive gc) {step : GcStep}
    (walks : walksWhole gc (.gc step)) (moved : gc.gcStep trigger gc.gc step = some after) :
    GcInv after := by
  have ok := live.pc
  unfold GcSystem.gcStep at moved
  split at moved
  · cases moved
    exact inv.set_pc live trivial
  · rename_i segmentId rest pc
    split at moved
    · cases moved
      exact inv.set_pc live trivial
    · rename_i scan found
      cases moved
      have isNext : gc.gc.candidate = some segmentId := by
        rw [pc]
        rfl
      rcases live.walk_begins found (walks segmentId isNext) with ⟨walk, walked⟩
      exact inv.set_pc live ⟨walk, fun nonempty => ⟨_, walked nonempty⟩⟩
  · rename_i scan rest readOk pc
    have success : readOk = true := walks
    subst success
    rw [pc] at ok
    rcases ok with ⟨walk, walked⟩
    split at moved
    · rename_i before
      split at moved
      · rename_i stopped
        cases moved
        refine inv.set_pc live ⟨walk, ?_⟩
        intro nonempty
        rcases walked nonempty with ⟨todo, here⟩
        rcases (live.walk_header walk here).1 before with ⟨p, rest, _, read⟩
        rw [stopped] at read
        contradiction
      · rename_i paddedSize read
        cases moved
        refine inv.set_pc live ⟨walk, ?_⟩
        intro nonempty
        rcases walked nonempty with ⟨todo, here⟩
        rcases (live.walk_header walk here).1 before with ⟨p, rest, rfl, expected⟩
        rw [read] at expected
        exact ⟨p, rest, here, Option.some.inj expected⟩
    · rename_i reached
      cases moved
      refine inv.set_pc live ⟨walk, ?_⟩
      intro nonempty
      rcases walked nonempty with ⟨todo, here⟩
      exact (live.walk_header walk here).2 reached
  · rename_i scan paddedSize rest readOk pc
    have success : readOk = true := walks
    subst success
    rw [pc] at ok
    rcases ok with ⟨walk, walked⟩
    split at moved
    · rename_i stopped
      cases moved
      refine inv.set_pc live ⟨walk, ?_⟩
      intro nonempty
      rcases walked nonempty with ⟨p, todo, here, rfl⟩
      rw [(live.walk_entry walk here).1] at stopped
      contradiction
    · rename_i call read
      cases moved
      refine inv.set_pc live ⟨walk.moved rfl rfl rfl, ?_⟩
      intro nonempty
      rcases walked nonempty with ⟨p, todo, here, rfl⟩
      rcases live.walk_entry walk here with ⟨expected, next⟩
      rw [expected] at read
      cases read
      exact ⟨todo, next⟩
  · rename_i scan rest pc
    rw [Option.map_eq_some_iff] at moved
    rcases moved with ⟨store, removed, rfl⟩
    rcases gc_remove_frame removed with ⟨config, active, roles⟩
    refine { live := ?_, removals := ?_ }
    · intro _
      exact
        { placed := live.placed.remove removed
          writers := live.writers.keep config active roles
          pc := trivial }
    · intro removal member
      rcases List.mem_append.1 member with new | old
      · exact live.removal_loses_none pc removal new
      · exact inv.removals removal old
  · contradiction

theorem GcInv.mark_dead (inv : GcInv gc) (live : GcLive gc) (loc : BlobLocation) :
    GcInv (gc.setStore (gc.store.markDead loc)) := by
  have frame : (gc.store.markDead loc).config = gc.store.config ∧
      (gc.store.markDead loc).activeBlock = gc.store.activeBlock ∧
      ∀ b, otherRoles (gc.store.markDead loc) b = otherRoles gc.store b := by
    rcases mark_dead_cases gc.store loc with same | ⟨i, change, marked, _⟩
    · rw [same]
      exact ⟨rfl, rfl, fun _ => rfl⟩
    · rw [marked]
      exact ⟨rfl, rfl, fun _ => rfl⟩
  rcases frame with ⟨config, active, roles⟩
  have leaves : LeavesWalk gc (gc.setStore (gc.store.markDead loc)) [] :=
    { placed := (List.append_nil _).symm
      unwritten := fun _ member => .inl member
      seals := fun _ _ sealed => ⟨sealed.mark_dead loc, by simp⟩ }
  exact
    { live := fun _ =>
        { placed := live.placed.mark_dead loc
          writers := live.writers.keep config active roles
          pc := leaves.pc_ok live.pc }
      removals := inv.removals }

theorem GcInv.step (inv : GcInv gc) (allowed : gcGuard gc label)
    (moved : (gcMachine trigger).exec gc label = some after) : GcInv after := by
  have live := inv.live allowed.2.1.distinct
  cases label with
  | store label fd =>
      have ran : gc.exec trigger (.store label fd) = some after := moved
      obtain ⟨system, ran, same⟩ := gc_store_step ran
      have stepped : (system.store.segments.map (·.id)).Nodup →
          GcLive { gc with system, placed := gc.placed ++ gc.system.newlyPlaced label system } := by
        intro distinct
        have stepped := live.store_step allowed ran distinct
        exact
          { placed := stepped.placed
            writers := stepped.writers
            pc := stepped.leaves.pc_ok live.pc }
      rcases same with rfl | ⟨path, _, _, rfl⟩
      · exact { live := stepped, removals := inv.removals }
      · exact { live := fun distinct => (stepped distinct).numbered fd path, removals := inv.removals }
  | markDead loc =>
      cases moved
      exact inv.mark_dead live loc
  | gc step => exact inv.gc_step live allowed.2.2 moved

end Steps

instance (s : BlobStore) (b : Nat) (seg : SegmentInfo) : Decidable (AppendsAtEnd s b seg) :=
  decidable_of_iff ((s.blocks b).segmentId = seg.id ∧
    (s.blocks b).segmentOffset + (s.blocks b).pos = seg.writeOffset)
    ⟨fun both => ⟨both.1, both.2⟩, fun atEnd => ⟨atEnd.segment, atEnd.cursor⟩⟩

instance (s : BlobStore) (request : WriteRequest) : Decidable (AppendsCleanly s request) :=
  inferInstanceAs (Decidable (∀ b ∈ s.activeBlock,
    entryDiskSize request.data.length ≤ (s.blocks b).capacity → otherRoles s b = 0 ∧
      ((s.blocks b).pos + entryDiskSize request.data.length ≤ (s.blocks b).capacity →
        ∃ seg ∈ s.currentSegment, AppendsAtEnd s b seg)))

instance (request : WriteRequest) : Decidable (RequestOk request) :=
  decidable_of_iff (request.data.length < 2 ^ 32 ∧ entryDiskSize request.data.length < 2 ^ 32)
    ⟨fun both => ⟨both.1, both.2⟩, fun ok => ⟨ok.short, ok.small⟩⟩

instance (s : BlobStore) : Decidable (IdsFresh s) :=
  decidable_of_iff ((s.segments.map (·.id)).Nodup ∧ s.nextSegmentId < 2 ^ 32)
    ⟨fun both => ⟨both.1, both.2⟩, fun fresh => ⟨fresh.distinct, fresh.room⟩⟩

instance (gc : GcSystem) : DecidablePred (pwritesSucceed gc)
  | .store (.writeBegin _ _ io) _ => inferInstanceAs (Decidable (io.header = .complete))
  | .store (.writeResume _ io) _ => inferInstanceAs (Decidable (io.header = .complete))
  | .store (.writeDirect _ io result) _ =>
      inferInstanceAs (Decidable (io.header = .complete ∧ result = .complete))
  | .store (.flush (.write result)) _ => inferInstanceAs (Decidable
      (∀ b ∈ gc.system.flush.block, StoreSystem.blockWritten gc.store b result = true))
  | .store (.flush .pop) _ | .store (.flush .release) _ => isTrue trivial
  | .store (.readBegin _ _ _) _ | .store (.readPending _) _ | .store (.readLookup _) _ => isTrue trivial
  | .store (.readDisk _ _) _ | .markDead _ | .gc _ => isTrue trivial

instance (gc : GcSystem) : DecidablePred (walksWhole gc)
  | .store (.writeBegin _ request _) _ => inferInstanceAs (Decidable (AppendsCleanly gc.store request ∧
      (request.data.length ≤ 2 ^ 32 - 1 - kEntryHeaderSize → RequestOk request)))
  | .store (.flush (.write _)) _ => inferInstanceAs (Decidable (∀ b ∈ gc.system.flush.block,
      ∃ seg ∈ gc.store.segments, seg.id = (gc.store.blocks b).segmentId))
  | .gc .lookup => inferInstanceAs (Decidable (∀ segmentId ∈ gc.gc.candidate,
      ∀ ack ∈ gc.system.unwritten, ack.loc.segmentId ≠ segmentId))
  | .gc (.readHeader readOk) | .gc (.readEntry readOk) => inferInstanceAs (Decidable (readOk = true))
  | .gc .collect | .gc .remove | .markDead _ => isTrue trivial
  | .store (.writeResume _ _) _ | .store (.writeDirect _ _ _) _ => isTrue trivial
  | .store (.flush .pop) _ | .store (.flush .release) _ => isTrue trivial
  | .store (.readBegin _ _ _) _ | .store (.readPending _) _ | .store (.readLookup _) _ => isTrue trivial
  | .store (.readDisk _ _) _ => isTrue trivial

instance (gc : GcSystem) : DecidablePred (gcGuard gc) := fun label =>
  inferInstanceAs (Decidable (pwritesSucceed gc label ∧ IdsFresh gc.store ∧ walksWhole gc label))

def twoBlockConfig : NvmeStoreConfig :=
  { segmentSize := 2 ^ 20, writeBlockSizeMb := 1, writeBlockPoolSize := 2 }

def smallRequest (byte : UInt8) : WriteRequest := { key := probeKey, data := [byte], checksum := 7 }

def smallLocation (index : Nat) : BlobLocation :=
  { segmentId := 0, offset := 4096 * index, length := 1, diskSize := 4096 }

end AttentionDB
