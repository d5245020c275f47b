import AttentionDB.Storage.WriteSections

/-!
# Who holds a write block

A write block is the active block, waits in the flush queue, is being flushed,
or lies in the free pool. Two events break this: a writer that sleeps in
`acquire_block`, because `active_block_` keeps pointing to the block it has
just queued, and a block write that fails, because the block is released with
its entries unwritten. In runs without these two events every block has at most
one role and every unwritten entry is in a block that is active, queued or
being flushed.
-/

namespace AttentionDB

open GuardedRuns BlobStore

set_option autoImplicit false

def roleCount (store : BlobStore) (b : Nat) : Nat :=
  store.activeBlock.toList.count b + store.flushQueue.count b +
    store.flushingBlock.toList.count b + store.freePool.count b

def isPending (store : BlobStore) (b : Nat) : Prop :=
  store.activeBlock = some b ∨ b ∈ store.flushQueue ∨ store.flushingBlock = some b

/-- Write-block ownership: one role at most, and no unwritten entry in a block
that is neither active, nor queued, nor being flushed. -/
def BlocksOwned (system : StoreSystem) : Prop :=
  (∀ b, roleCount system.store b ≤ 1) ∧
    ∀ ack ∈ system.unwritten, ∀ b, ack.block = some b → isPending system.store b

def RotatesFreely (store : BlobStore) (request : WriteRequest) : Prop :=
  ∀ b, store.activeBlock = some b → request.data.length ≤ 2 ^ 32 - 1 - kEntryHeaderSize →
    entryDiskSize request.data.length ≤ (store.blocks b).capacity →
    (store.blocks b).capacity < (store.blocks b).pos + entryDiskSize request.data.length →
    store.freePool ≠ []

/-- The steps after which ownership holds: rotations that need not wait, and
block writes that succeed. -/
def ownershipGuard (system : StoreSystem) : StoreLabel → Prop
  | .writeBegin _ request _ => RotatesFreely system.store request
  | .flush (.write result) =>
      ∀ b, system.flush = .writing b → StoreSystem.blockWritten system.store b result = true
  | _ => True

/-- A block in which an unwritten entry may be. Once its write is through, a
block holds none although it is still `flushing_block_`. -/
def mayHold (store : BlobStore) (flush : FlushPc) (b : Nat) : Prop :=
  store.activeBlock = some b ∨ b ∈ store.flushQueue ∨ flush = .writing b

structure OwnershipInv (system : StoreSystem) : Prop where
  roles : ∀ b, roleCount system.store b ≤ 1
  flushing : system.store.flushingBlock = FlushPc.block system.flush
  awake : ∀ t request, system.writers t ≠ .waiting request
  held : ∀ ack ∈ system.unwritten, ∃ b, ack.block = some b ∧
    mayHold system.store system.flush b ∧ system.store.covers ack.loc b = true

/-! ## Single moves -/

theorem may_hold_not_free {store : BlobStore} {flush : FlushPc} {b : Nat}
    (roles : ∀ b, roleCount store b ≤ 1) (flushing : store.flushingBlock = FlushPc.block flush)
    (holds : mayHold store flush b) : b ∉ store.freePool := by
  intro free
  have once := roles b
  have inPool := List.count_pos_iff.2 free
  unfold roleCount at once
  rcases holds with active | queued | writing
  · have activeOnce : store.activeBlock.toList.count b = 1 := by simp [active]
    omega
  · have inQueue := List.count_pos_iff.2 queued
    omega
  · have flushOnce : store.flushingBlock.toList.count b = 1 := by
      simp [flushing, writing, FlushPc.block]
    omega

/-- Moving the active block to the queue and a free block in its place keeps
the number of roles of every block. -/
theorem role_count_rotation {store : BlobStore} {b next : Nat} {rest : List Nat} (c : Nat)
    (active : store.activeBlock = some b) (free : store.freePool = next :: rest)
    {after : BlobStore} (activeAfter : after.activeBlock = some next)
    (queueAfter : after.flushQueue = store.flushQueue ++ [b])
    (flushingAfter : after.flushingBlock = store.flushingBlock) (freeAfter : after.freePool = rest) :
    roleCount after c = roleCount store c := by
  unfold roleCount
  rw [active, free, activeAfter, queueAfter, flushingAfter, freeAfter]
  simp only [Option.toList_some, List.count_append, List.count_cons, List.count_nil]
  omega

theorem covers_congr (left right : BlobStore) {b : Nat} (loc : BlobLocation)
    (same : left.blocks b = right.blocks b) : left.covers loc b = right.covers loc b := by
  unfold covers
  rw [same]

/-- Appending to a block never uncovers an entry. -/
theorem covers_appended {store : BlobStore} {b active c : Nat} {request : WriteRequest}
    {loc : BlobLocation} (covered : store.covers loc c = true) :
    (store.appended b active request).covers loc c = true := by
  by_cases same : c = b
  · subst same
    simp only [covers, Bool.and_eq_true, decide_eq_true_eq] at covered ⊢
    simp only [appended_block, appendToBlock]
    omega
  · have other : (store.appended b active request).blocks c = store.blocks c := by
      simp [appended, same]
    rw [covers_congr _ store loc other]
    exact covered

theorem covers_new (store : BlobStore) (b active : Nat) (request : WriteRequest)
    (short : request.data.length < 2 ^ 32) :
    (store.appended b active request).covers
      (blockLocation (store.blocks b) request.data.length) b = true := by
  have fits := entry_fits request.data.length short
  unfold kEntryHeaderSize at fits
  simp only [covers, appended_block, appendToBlock, blockLocation, Bool.and_eq_true,
    decide_eq_true_eq]
  refine ⟨⟨trivial, Nat.le_add_right _ _⟩, ?_⟩
  omega

/-! ## One step -/

section Steps

variable {system : StoreSystem} {t : Nat} {request : WriteRequest} {io : SegmentIo}

theorem OwnershipInv.set_writer (inv : OwnershipInv system) (pc : WriterPc)
    (awake : ∀ request, pc ≠ .waiting request) : OwnershipInv (system.setWriter t pc) := by
  refine { roles := inv.roles, flushing := inv.flushing, awake := ?_, held := inv.held }
  intro other request
  by_cases same : other = t
  · subst same
    simpa [StoreSystem.setWriter] using awake request
  · simpa [StoreSystem.setWriter, same] using inv.awake other request

/-- Held entries stay held when a block that holds none is reset. -/
theorem OwnershipInv.held_after_rotation (inv : OwnershipInv system) {b next : Nat}
    {rest : List Nat} (active : system.store.activeBlock = some b)
    (free : system.store.freePool = next :: rest) {after : BlobStore}
    (queueAfter : after.flushQueue = system.store.flushQueue ++ [b])
    (blocksAfter : ∀ c, c ≠ next → after.blocks c = system.store.blocks c) :
    ∀ ack ∈ system.unwritten, ∃ c, ack.block = some c ∧ mayHold after system.flush c ∧
      after.covers ack.loc c = true := by
  intro ack member
  rcases inv.held ack member with ⟨c, block, holds, covered⟩
  have notFree := may_hold_not_free inv.roles inv.flushing holds
  have different : c ≠ next := by
    intro same
    exact notFree (by simp [free, same])
  refine ⟨c, block, ?_, ?_⟩
  · rcases holds with activeC | queued | writing
    · rw [active] at activeC
      cases activeC
      exact .inr (.inl (by simp [queueAfter]))
    · exact .inr (.inl (by simp [queueAfter, queued]))
    · exact .inr (.inr writing)
  · rw [covers_congr after system.store ack.loc (blocksAfter c different)]
    exact covered

theorem OwnershipInv.write_begin (inv : OwnershipInv system) (free : RotatesFreely system.store request)
    {outcome : WriteOutcome} {after : BlobStore} (cases : EnterCases system.store request io outcome after) :
    OwnershipInv (system.afterSection t request (outcome, after)) := by
  cases cases with
  | refused status => exact inv.set_writer .idle (by simp)
  | goesDirect b isActive long short => exact inv.set_writer (.direct request) (by simp)
  | rotates b isActive fits full short rest =>
      have notEmpty := free b isActive short fits full
      cases rest with
      | sleeps empty running => exact absurd empty notEmpty
      | stopped empty halted => exact absurd empty notEmpty
      | noSegment next pool freeIs missing =>
          have base := inv.set_writer (t := t) .idle (by simp)
          refine { roles := ?_, flushing := ?_, awake := base.awake, held := ?_ }
          · intro c
            rw [StoreSystem.after_section_store, role_count_rotation c isActive freeIs] <;>
              simp [inv.roles c]
          · rw [StoreSystem.after_section_store, StoreSystem.after_section_flush,
              next_block_flushing_block]
            exact inv.flushing
          · rw [StoreSystem.after_section_store, StoreSystem.after_section_flush]
            exact inv.held_after_rotation isActive freeIs (by simp) (by simp)
      | appends next pool seg active freeIs current found usable =>
          have base := inv.set_writer (t := t) .idle (by simp)
          refine { roles := ?_, flushing := ?_, awake := base.awake, held := ?_ }
          · intro c
            rw [StoreSystem.after_section_store, role_count_rotation c isActive freeIs] <;>
              simp [inv.roles c]
          · rw [StoreSystem.after_section_store, StoreSystem.after_section_flush,
              appended_flushing_block, reset_block_flushing_block, next_block_flushing_block]
            exact inv.flushing
          · rw [StoreSystem.after_section_store, StoreSystem.after_section_flush]
            intro ack member
            rcases List.mem_cons.1 member with rfl | old
            · refine ⟨next, by simp, .inl (by simp), ?_⟩
              have new := covers_new
                (((system.store.queued b).withNextBlock next pool io).resetBlock next seg) next
                active request (by unfold kEntryHeaderSize at short; omega)
              rw [reset_block_block, next_block_blocks] at new
              exact new
            · apply inv.held_after_rotation isActive freeIs (by simp) _ ack old
              intro c different
              rw [appended_other _ _ _ _ different, reset_block_other _ _ _ different,
                next_block_blocks, queued_blocks]
  | appends b active isActive room short current =>
      have base := inv.set_writer (t := t) .idle (by simp)
      refine { roles := inv.roles, flushing := inv.flushing, awake := base.awake, held := ?_ }
      intro ack member
      rcases List.mem_cons.1 member with rfl | old
      · exact ⟨b, isActive, .inl isActive,
          covers_new _ _ _ _ (by unfold kEntryHeaderSize at short; omega)⟩
      · rcases inv.held ack old with ⟨c, block, holds, covered⟩
        exact ⟨c, block, holds, covers_appended covered⟩

theorem OwnershipInv.write_direct (inv : OwnershipInv system) {result : IoResult}
    {outcome : WriteOutcome} {after : BlobStore}
    (run : system.store.writeDirect request io result = some (outcome, after)) :
    OwnershipInv (system.afterDirect t request (outcome, after)) := by
  have base := inv.set_writer (t := t) .idle (by simp)
  rcases write_direct_frame run with ⟨blocks, active, queue, free, flushing⟩
  refine { roles := ?_, flushing := ?_, awake := ?_, held := ?_ }
  · intro b
    simpa only [StoreSystem.after_direct_store, roleCount, active, queue, free, flushing]
      using inv.roles b
  · rw [StoreSystem.after_direct_store, StoreSystem.after_direct_flush, flushing]
    exact inv.flushing
  · rw [StoreSystem.after_direct_writers]
    exact base.awake
  · rw [StoreSystem.after_direct_store, StoreSystem.after_direct_flush,
      StoreSystem.after_direct_unwritten]
    intro ack member
    rcases inv.held ack member with ⟨c, block, holds, covered⟩
    refine ⟨c, block, ?_, ?_⟩
    · simpa only [mayHold, active, queue] using holds
    · rw [covers_congr after system.store ack.loc (by rw [blocks])]
      exact covered

theorem OwnershipInv.flush_step (inv : OwnershipInv system) {step : FlushStep}
    (written : ∀ result b, step = .write result → system.flush = .writing b →
      StoreSystem.blockWritten system.store b result = true)
    {pc : FlushPc} {after : BlobStore}
    (run : system.store.flushStep system.flush step = some (pc, after)) :
    OwnershipInv { system with flush := pc, store := after, unwritten := system.unwrittenAfter step } := by
  unfold flushStep at run
  split at run
  · -- the thread takes the front of the queue
    rename_i pcWas
    unfold flushPop at run
    split at run
    · contradiction
    · rename_i b rest queue
      have flushingWas : system.store.flushingBlock = none := by
        rw [inv.flushing, pcWas]
        rfl
      split at run
      · rename_i emptyBlock
        cases run
        refine { roles := ?_, flushing := ?_, awake := inv.awake, held := ?_ }
        · intro c
          have once := inv.roles c
          simp only [roleCount, queue, List.count_cons] at once ⊢
          omega
        · exact flushingWas
        · intro ack member
          rcases inv.held ack member with ⟨c, block, holds, covered⟩
          have notB : c ≠ b := by
            intro same
            subst same
            simp only [covers, Bool.and_eq_true, decide_eq_true_eq] at covered
            omega
          refine ⟨c, block, ?_, covered⟩
          rcases holds with active | queued | writing
          · exact .inl active
          · rw [queue] at queued
            rcases List.mem_cons.1 queued with same | later
            · exact absurd same notB
            · exact .inr (.inl later)
          · rw [pcWas] at writing
            cases writing
      · cases run
        refine { roles := ?_, flushing := rfl, awake := inv.awake, held := ?_ }
        · intro c
          have once := inv.roles c
          simp only [roleCount, queue, flushingWas, List.count_cons, Option.toList_some,
            Option.toList_none, List.count_nil] at once ⊢
          omega
        · intro ack member
          rcases inv.held ack member with ⟨c, block, holds, covered⟩
          refine ⟨c, block, ?_, covered⟩
          rcases holds with active | queued | writing
          · exact .inl active
          · rw [queue] at queued
            rcases List.mem_cons.1 queued with same | later
            · exact .inr (.inr (by rw [same]))
            · exact .inr (.inl later)
          · rw [pcWas] at writing
            cases writing
  · -- the block is written, and with it every entry it holds
    rename_i b result pcWas
    cases run
    have whole := written result b rfl pcWas
    have left : system.unwrittenAfter (.write result) = system.unwritten.filter fun ack =>
        !(ack.block = some b && system.store.covers ack.loc b) := by
      simp only [StoreSystem.unwrittenAfter, pcWas, whole, if_true]
    refine { roles := inv.roles, flushing := ?_, awake := inv.awake, held := ?_ }
    · have flushingWas := inv.flushing
      rw [pcWas] at flushingWas
      exact flushingWas
    · intro ack member
      rw [left, List.mem_filter] at member
      rcases inv.held ack member.1 with ⟨c, block, holds, covered⟩
      refine ⟨c, block, ?_, covered⟩
      rcases holds with active | queued | writing
      · exact .inl active
      · exact .inr (.inl queued)
      · rw [pcWas] at writing
        cases writing
        have gone := member.2
        simp [block, covered] at gone
  · -- the block returns to the pool
    rename_i b pcWas
    cases run
    have flushingWas := inv.flushing
    rw [pcWas] at flushingWas
    refine { roles := ?_, flushing := rfl, awake := inv.awake, held := ?_ }
    · intro c
      have once := inv.roles c
      simp only [roleCount, flushRelease, flushingWas, FlushPc.block, List.count_cons,
        Option.toList_some, Option.toList_none, List.count_nil] at once ⊢
      omega
    · intro ack member
      rcases inv.held ack member with ⟨c, block, holds, covered⟩
      refine ⟨c, block, ?_, covered⟩
      rcases holds with active | queued | writing
      · exact .inl active
      · exact .inr (.inl queued)
      · rw [pcWas] at writing
        cases writing
  · contradiction

theorem OwnershipInv.step (inv : OwnershipInv system) {label : StoreLabel}
    (allowed : ownershipGuard system label) {after : StoreSystem}
    (moved : storeMachine.exec system label = some after) : OwnershipInv after := by
  cases label with
  | writeBegin t request io =>
      rcases StoreSystem.write_begin_step moved with ⟨outcome, store, _, entered, rfl⟩
      exact inv.write_begin allowed (enter_cases entered)
  | writeResume t io =>
      rcases StoreSystem.write_resume_step moved with ⟨request, _, _, pcWas, _, _⟩
      exact absurd pcWas (inv.awake t request)
  | writeDirect t io result =>
      rcases StoreSystem.write_direct_step moved with ⟨_, outcome, store, _, written, rfl⟩
      exact inv.write_direct written
  | flush step =>
      rcases StoreSystem.flush_thread_step moved with ⟨pc, store, ran, rfl⟩
      apply inv.flush_step _ ran
      intro result b isWrite pcWas
      subst isWrite
      exact allowed b pcWas
  | readBegin r loc bufLen | readPending r | readLookup r | readDisk r readOk =>
      simp only [storeMachine] at moved
      rcases StoreSystem.reader_step rfl moved with ⟨reader, pc, rfl⟩
      exact { roles := inv.roles, flushing := inv.flushing, awake := inv.awake, held := inv.held }

end Steps

theorem OwnershipInv.opened {config : NvmeStoreConfig} {files : Files} {io : OpenIo}
    (ok : (openStore config files io).1 = .kOk) :
    OwnershipInv { store := (openStore config files io).2 } := by
  rcases open_store_cases ok with ⟨listing, seg, b, rest, _, _, pool, opened⟩
  rcases scan_frame listing (constructed config files) with ⟨_, _, _, queue, flushing⟩
  have distinct : (b :: rest).Nodup := by
    rw [← pool, List.nodup_reverse]
    exact List.nodup_range
  have noQueue : (withSegments config files listing io.segment).flushQueue = [] := by
    rw [withSegments, create_flush_queue, queue]
    rfl
  have noFlush : (withSegments config files listing io.segment).flushingBlock = none := by
    rw [withSegments, create_flushing_block, flushing]
    rfl
  rw [opened]
  refine { roles := ?_, flushing := noFlush, awake := by simp, held := by simp }
  · intro c
    have once := List.nodup_iff_count_le_one.1 distinct c
    simp only [roleCount, reset_block_flush_queue, reset_block_flushing_block, noQueue, noFlush,
      List.count_cons, Option.toList_some, Option.toList_none, List.count_nil] at once ⊢
    omega

theorem OwnershipInv.owned {system : StoreSystem} (inv : OwnershipInv system) :
    BlocksOwned system := by
  refine ⟨inv.roles, ?_⟩
  intro ack member b block
  rcases inv.held ack member with ⟨c, holder, holds, _⟩
  rw [block] at holder
  cases holder
  rcases holds with active | queued | writing
  · exact .inl active
  · exact .inr (.inl queued)
  · exact .inr (.inr (by rw [inv.flushing, writing]; rfl))

/-- In every run in which no rotation has to wait for a free block and every
block write succeeds, the write blocks are owned. -/
theorem blocks_owned {system : StoreSystem}
    (reached : ReachWithin storeMachine ownershipGuard system) : BlocksOwned system := by
  apply OwnershipInv.owned
  apply reached.invariant OwnershipInv
  · intro start initial
    rcases initial with ⟨config, files, io, ok, rfl⟩
    exact OwnershipInv.opened ok
  · intro before label after inv allowed moved
    exact inv.step allowed moved

/-! ## A writer that sleeps -/

def blockRequest : WriteRequest :=
  { key := probeKey, data := List.replicate (2 ^ 20 - 64) 0, checksum := 0 }

theorem block_request_length : blockRequest.data.length = 2 ^ 20 - 64 := List.length_replicate

theorem block_request_disk_size : entryDiskSize blockRequest.data.length = 2 ^ 20 := by
  rw [block_request_length, entry_disk_size_eq _ (by decide)]
  rfl

theorem blocks_owned_after_write : BlocksOwned oneEntrySystem := by
  apply blocks_owned
  apply ReachWithin.by_label (.writeBegin 0 emptyRequest {})
    (.start single_block_store_started) _ one_entry_moved
  intro b isActive _ _ full
  cases isActive
  exact absurd full (by decide)

/-- The writer of a second entry sleeps, and its block is active and queued. -/
theorem sleeping_writer_shares_block :
    ∃ system, Reach storeMachine system ∧ ¬BlocksOwned system := by
  have first : Reach storeMachine oneEntrySystem :=
    .next (.start single_block_store_started) trivial one_entry_moved
  have sleeps : oneEntrySystem.store.writeEnter blockRequest {} =
      some (.waiting, oneEntrySystem.store.queued 0) := by
    have size := block_request_disk_size
    have capacity : (oneEntrySystem.store.blocks 0).capacity = 2 ^ 20 := by decide
    have pos : (oneEntrySystem.store.blocks 0).pos = 4096 := by decide
    apply write_enter_sleeps rfl _ _ _ rfl rfl
    · rw [block_request_length]
      decide
    · omega
    · omega
  have second : Reach storeMachine
      (oneEntrySystem.afterSection 0 blockRequest (.waiting, oneEntrySystem.store.queued 0)) := by
    apply ReachWithin.by_label (.writeBegin 0 blockRequest {}) first trivial
    have idle : oneEntrySystem.writers 0 = .idle := rfl
    simp only [storeMachine, StoreSystem.exec, idle, sleeps, Option.map_some]
  refine ⟨_, second, ?_⟩
  intro owned
  have once := owned.1 0
  revert once
  decide

end AttentionDB
