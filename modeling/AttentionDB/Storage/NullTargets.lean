import AttentionDB.Storage.Close
import AttentionDB.Storage.WriteSections

/-!
# What a write dereferences

`write` looks at `active_segment_` and at the active block without asking
whether the last segment could be created, or whether the store was closed. As
long as no write starts after such a failure, and after a `close` that left an
empty active block behind, every target is there.
-/

namespace AttentionDB

open GuardedRuns BlobStore

set_option autoImplicit false

namespace BlobStore

def Usable (s : BlobStore) : Prop := ∃ seg, s.currentSegment = some seg ∧ seg.fd ≠ none

variable {s after : BlobStore} {b : Nat} {request : WriteRequest} {io : SegmentIo}
  {outcome : WriteOutcome}

theorem Usable.congr (usable : Usable s) (segments : after.segments = s.segments)
    (active : after.activeSegment = s.activeSegment) : Usable after := by
  rcases usable with ⟨seg, current, fd⟩
  refine ⟨seg, ?_, fd⟩
  rw [currentSegment, segments, active]
  exact current

theorem usable_created (opened : io.opened = true) : Usable (s.createNewSegment io) := by
  rcases create_opened s io opened with ⟨segments, active⟩
  refine ⟨s.freshSegment, ?_, by simp [freshSegment]⟩
  rw [currentSegment, segments, active]
  simp

theorem Usable.advance (usable : Usable s) {active diskSize : Nat}
    (segments : after.segments = s.segments.modify active (·.advance diskSize))
    (same : after.activeSegment = s.activeSegment) : Usable after := by
  rcases usable with ⟨seg, current, fd⟩
  unfold currentSegment at current
  rcases Option.bind_eq_some_iff.1 current with ⟨i, isActive, found⟩
  refine ⟨if active = i then seg.advance diskSize else seg, ?_, ?_⟩
  · rw [currentSegment, segments, same, isActive]
    exact advanced_lookup.2 ⟨seg, found, rfl⟩
  · split_ifs
    · exact fd
    · exact fd

/-- The segment of a rotation is usable, unless its file does not open. -/
theorem Usable.segment_for_block (usable : Usable s) (b : Nat) (io : SegmentIo) :
    (Usable (s.segmentForBlock b io)) ∨
      (io.opened = false ∧ (s.segmentForBlock b io).nextSegmentId = s.nextSegmentId + 1) := by
  rcases segment_for_block_cases s b io with created | ⟨stays, _⟩
  · rw [created]
    cases opened : io.opened with
    | true => exact .inl (usable_created opened)
    | false => exact .inr ⟨rfl, create_next s io⟩
  · rw [stays]
    exact .inl usable

end BlobStore

namespace StoreLife

variable {s after : BlobStore} {b : Nat} {request : WriteRequest} {io : SegmentIo}
  {outcome : WriteOutcome}

/-- Unless a creation failed, a rotation ends with a usable segment and a block
that was reset. -/
theorem acquire_usable (usable : Usable s) (cases : AcquireCases s request io outcome after)
    (created : creationAfter false s after io = false) :
    Usable after ∧ resetAfterAcquire true s outcome = true := by
  have next : ∀ {b rest}, s.freePool = b :: rest →
      (s.withNextBlock b rest io).nextSegmentId = after.nextSegmentId →
      Usable (s.withNextBlock b rest io) := by
    intro b rest free same
    have start : Usable ({ s with freePool := rest, activeBlock := some b } : BlobStore) :=
      usable.congr rfl rfl
    rcases start.segment_for_block b io with good | ⟨refused, used⟩
    · exact good
    · have moved : after.nextSegmentId ≠ s.nextSegmentId := by
        rw [← same]
        exact fun equal => absurd (used.symm.trans equal) (Nat.succ_ne_self _)
      rw [creationAfter, if_neg moved, refused] at created
      cases created
  cases cases with
  | sleeps empty running => exact ⟨usable, rfl⟩
  | stopped empty halted => exact ⟨usable.congr rfl rfl, by simp [resetAfterAcquire, empty]⟩
  | noSegment b rest free missing =>
      rcases next free rfl with ⟨seg, current, fd⟩
      exact absurd (missing seg current) fd
  | appends b rest seg active free current found usableSeg =>
      exact ⟨(next free rfl).advance rfl rfl, rfl⟩

/-- The first section of `write` keeps the segment usable and the block reset,
unless it failed to create a segment. -/
theorem enter_usable (usable : Usable s) (ran : s.writeEnter request io = some (outcome, after))
    (created : creationAfter false s after io = false) :
    Usable after ∧ resetAfterEnter true s request outcome = true := by
  unfold writeEnter at ran
  unfold resetAfterEnter rotates
  dsimp only at ran ⊢
  split_ifs at ran ⊢ with long
  · cases ran
    exact ⟨usable, rfl⟩
  · cases isActive : s.activeBlock with
    | none =>
        rw [isActive] at ran
        cases ran
        exact ⟨usable, rfl⟩
    | some b =>
        rw [isActive] at ran
        dsimp only at ran ⊢
        split_ifs at ran ⊢ with oversized full
        · cases ran
          exact ⟨usable, rfl⟩
        · have used : 0 < (s.blocks b).pos := by omega
          have retired : s.retireBlock b = s.queued b := by rw [retireBlock, if_pos used, queued]
          rw [retired] at ran
          change Usable after ∧ resetAfterAcquire true (s.retireBlock b) outcome = true
          rw [retired]
          exact acquire_usable (s := s.queued b) (usable.congr rfl rfl) (acquire_cases ran) created
        · rcases append_entry_cases ran with ⟨active, _, rfl, rfl⟩
          exact ⟨usable.advance rfl rfl, rfl⟩

theorem direct_usable {result : IoResult}
    (ran : s.writeDirect request io result = some (outcome, after))
    (segment : Usable (s.segmentForEntry (entryDiskSize request.data.length) io)) : Usable after := by
  rcases write_direct_cases ran with ⟨active, seg, files, current, found, ⟨_, rfl⟩ | ⟨_, rfl⟩⟩
  · exact segment.congr rfl rfl
  · exact segment.advance rfl rfl

/-! ## The invariant -/

/-- No write starts on an active block after the creation of a segment failed
or the store was closed, and a direct write gets the segment it needs. -/
def soundWrites (life : StoreLife) : LifeLabel → Prop
  | .write _ _ =>
      life.store.activeBlock = none ∨ (life.creationFailed = false ∧ life.closed = false)
  | .direct io _ =>
      match life.writer with
      | .direct request =>
          io.opened = true ∨ ∃ seg, life.store.currentSegment = some seg ∧
            seg.writeOffset + entryDiskSize request.data.length ≤ life.store.config.segmentSize.toNat
      | _ => True
  | _ => True

structure TargetInv (life : StoreLife) : Prop where
  usable : life.closed = false → life.creationFailed = false → Usable life.store
  reset : life.closed = false → life.creationFailed = false → life.activeReset = true
  busy : life.writer ≠ .idle → life.closed = false ∧ life.creationFailed = false

/-- The segment of a direct write, when it can be had. -/
theorem usable_for_entry (usable : Usable s) (diskSize : Nat)
    (had : io.opened = true ∨ ∃ seg, s.currentSegment = some seg ∧
      seg.writeOffset + diskSize ≤ s.config.segmentSize.toNat) :
    Usable (s.segmentForEntry diskSize io) := by
  unfold segmentForEntry
  rcases usable with ⟨seg, current, fd⟩
  rw [current]
  dsimp only
  split_ifs with full
  · rcases had with opened | ⟨last, same, room⟩
    · exact usable_created opened
    · rw [current] at same
      cases same
      omega
  · exact ⟨seg, current, fd⟩

/-- A sleeping or direct writer is in an open store, with no creation failed. -/
theorem busy_after {before : Bool} {s after : BlobStore} {io : SegmentIo} {outcome : WriteOutcome}
    (cases : outcome ≠ .waiting ∧ outcome ≠ .direct ∨ after.nextSegmentId = s.nextSegmentId)
    (fine : before = false) :
    StoreSystem.pcAfter request outcome ≠ .idle → creationAfter before s after io = false := by
  intro busy
  rcases cases with ⟨awake, buffered⟩ | same
  · cases outcome with
    | waiting => exact absurd rfl awake
    | direct => exact absurd rfl buffered
    | stored loc => exact absurd rfl busy
    | failed status => exact absurd rfl busy
  · rw [creationAfter, if_pos same]
    exact fine

theorem acquire_used (ran : s.acquireAndAppend request io = some (outcome, after)) :
    outcome ≠ .waiting ∧ outcome ≠ .direct ∨ after.nextSegmentId = s.nextSegmentId := by
  cases acquire_cases ran with
  | sleeps => exact .inr rfl
  | stopped => exact .inl ⟨by simp, by simp⟩
  | noSegment => exact .inl ⟨by simp, by simp⟩
  | appends => exact .inl ⟨by simp, by simp⟩

theorem enter_used (ran : s.writeEnter request io = some (outcome, after)) :
    outcome ≠ .waiting ∧ outcome ≠ .direct ∨ after.nextSegmentId = s.nextSegmentId := by
  cases enter_cases ran with
  | refused => exact .inr rfl
  | goesDirect => exact .inr rfl
  | appends => exact .inr rfl
  | rotates b isActive fits full short rest =>
      cases rest with
      | sleeps => exact .inr rfl
      | stopped => exact .inl ⟨by simp, by simp⟩
      | noSegment => exact .inl ⟨by simp, by simp⟩
      | appends => exact .inl ⟨by simp, by simp⟩

theorem creation_kept {failed : Bool} {before after : BlobStore}
    (fine : creationAfter failed before after io = false) :
    creationAfter false before after io = false := by
  unfold creationAfter at fine ⊢
  split_ifs at fine ⊢
  · rfl
  · exact fine

/-- A write without an active block is refused at once. -/
theorem enter_without_block (none : s.activeBlock = none)
    (ran : s.writeEnter request io = some (outcome, after)) :
    after = s ∧ ∃ status, outcome = .failed status := by
  unfold writeEnter at ran
  dsimp only at ran
  split_ifs at ran
  · cases ran
    exact ⟨rfl, _, rfl⟩
  · rw [none] at ran
    cases ran
    exact ⟨rfl, _, rfl⟩

theorem step_targets {life after : StoreLife} {label : LifeLabel} (inv : TargetInv life)
    (allowed : soundWrites life label) (moved : life.exec label = some after) :
    TargetInv after := by
  cases label with
  | write request io =>
      unfold exec at moved
      dsimp only at moved
      split at moved
      · rename_i idle
        rcases Option.map_eq_some_iff.1 moved with ⟨⟨outcome, store⟩, ran, rfl⟩
        rcases allowed with none | ⟨fine, opened⟩
        · rcases enter_without_block none ran with ⟨rfl, status, rfl⟩
          have stays : rotates life.store request = .none := by
            unfold rotates
            rw [none]
            split_ifs <;> rfl
          have reset : resetAfterEnter life.activeReset life.store request (.failed status) =
              life.activeReset := by
            rw [resetAfterEnter, stays]
          exact {
            usable := by simpa [creationAfter] using inv.usable
            reset := by simpa [creationAfter, reset] using inv.reset
            busy := fun busy => absurd rfl busy }
        · have usable := inv.usable opened fine
          have reset := inv.reset opened fine
          exact {
            usable := fun _ created => (enter_usable usable ran (creation_kept created)).1
            reset := fun _ created => by
              dsimp only
              rw [reset]
              exact (enter_usable usable ran (creation_kept created)).2
            busy := fun busy => ⟨opened, busy_after (enter_used ran) fine busy⟩ }
      · cases moved
  | resume io =>
      unfold exec at moved
      dsimp only at moved
      split at moved
      · rename_i request waiting
        rcases Option.map_eq_some_iff.1 moved with ⟨⟨outcome, store⟩, ran, rfl⟩
        rcases inv.busy (by simp [waiting]) with ⟨opened, fine⟩
        have usable := inv.usable opened fine
        have reset := inv.reset opened fine
        exact {
          usable := fun _ created =>
            (acquire_usable usable (acquire_cases ran) (creation_kept created)).1
          reset := fun _ created => by
            dsimp only
            rw [reset]
            exact (acquire_usable usable (acquire_cases ran) (creation_kept created)).2
          busy := fun busy => ⟨opened, busy_after (acquire_used ran) fine busy⟩ }
      · cases moved
  | direct io result =>
      unfold exec at moved
      dsimp only at moved
      split at moved
      · rename_i request direct
        rcases Option.map_eq_some_iff.1 moved with ⟨⟨outcome, store⟩, ran, rfl⟩
        rcases inv.busy (by simp [direct]) with ⟨opened, fine⟩
        have usable := inv.usable opened fine
        unfold soundWrites at allowed
        rw [direct] at allowed
        exact {
          usable := fun _ _ => direct_usable ran (usable_for_entry usable _ allowed)
          reset := fun _ _ => inv.reset opened fine
          busy := fun busy => absurd rfl busy }
      · cases moved
  | flush step =>
      unfold exec at moved
      dsimp only at moved
      split at moved
      · cases moved
      · rcases Option.map_eq_some_iff.1 moved with ⟨⟨pc, store⟩, ran, rfl⟩
        rcases flush_step_frame ran with ⟨_, _, segments, active, _⟩
        exact {
          usable := fun opened fine => (inv.usable opened fine).congr segments active
          reset := inv.reset
          busy := inv.busy }
  | close io =>
      unfold exec at moved
      dsimp only at moved
      split at moved
      · rename_i idle
        rcases Option.map_eq_some_iff.1 moved with ⟨store, ran, rfl⟩
        exact {
          usable := fun opened _ => by cases opened
          reset := fun opened _ => by cases opened
          busy := fun busy => absurd idle busy }
      · cases moved

theorem started_targets {life : StoreLife} (started : lifeMachine.start life) : TargetInv life := by
  rcases started with ⟨config, files, io, ok, rfl⟩
  refine { usable := fun _ _ => ?_, reset := fun _ _ => rfl, busy := fun busy => absurd rfl busy }
  rcases open_store_cases ok with ⟨listing, seg, b, rest, _, current, _, opened⟩
  dsimp only
  rw [opened]
  refine Usable.congr (s := withSegments config files listing io.segment) ?_ rfl rfl
  cases segmentOpened : io.segment.opened with
  | true => exact usable_created segmentOpened
  | false =>
      rw [withSegments, currentSegment, (create_refused _ _ segmentOpened).2] at current
      cases current

/-! ## The targets -/

theorem acquire_targets_valid (s : BlobStore) (io : SegmentIo) :
    ∀ target ∈ acquireTargets false s io, target.Valid := by
  intro target member
  unfold acquireTargets at member
  split at member
  · cases member
  · dsimp only at member
    split at member
    · cases member
    · split_ifs at member
      · cases member
      · rw [List.mem_singleton] at member
        subst member
        exact ⟨rfl, rfl, rfl⟩

/-- In every life whose writes are sound, whatever a write dereferences is there. -/
theorem write_targets_valid (life : StoreLife) (reached : ReachWithin lifeMachine soundWrites life)
    (label : LifeLabel) (allowed : soundWrites life label) :
    ∀ target ∈ life.targets label, target.Valid := by
  have inv : TargetInv life := reached.invariant TargetInv (fun _ started => started_targets started)
    fun _ _ _ inv allowed moved => step_targets inv allowed moved
  cases label with
  | write request io =>
      unfold targets
      dsimp only
      split
      · unfold enterTargets
        dsimp only
        split_ifs with long
        · simp
        · cases isActive : life.store.activeBlock with
          | none => simp
          | some b =>
              rcases allowed with none | ⟨fine, opened⟩
              · rw [isActive] at none
                cases none
              · dsimp only
                split_ifs with oversized full
                · simp
                · rw [opened]
                  exact acquire_targets_valid _ io
                · intro target member
                  rw [List.mem_singleton] at member
                  subst member
                  rcases inv.usable opened fine with ⟨seg, current, _⟩
                  exact ⟨by rw [current]; rfl, opened, inv.reset opened fine⟩
      · simp
  | resume io =>
      unfold targets
      dsimp only
      split
      · rename_i request waiting
        rw [(inv.busy (by simp [waiting])).1]
        exact acquire_targets_valid _ io
      · simp
  | direct io result =>
      unfold targets
      dsimp only
      split
      · rename_i request direct
        rcases inv.busy (by simp [direct]) with ⟨opened, fine⟩
        unfold soundWrites at allowed
        rw [direct] at allowed
        rcases usable_for_entry (inv.usable opened fine) _ allowed with ⟨seg, current, _⟩
        intro target member
        rw [directTargets, List.mem_singleton] at member
        subst member
        change (BlobStore.currentSegment _).isSome = true
        rw [current]
        rfl
      · simp
  | flush step => simp [targets]
  | close io => simp [targets]

end StoreLife

/-! ## Targets that are missing -/

def oneByteRequest : WriteRequest := { key := probeKey, data := [7], checksum := 0 }

def openedLife : StoreLife := { store := singleBlockStore }

theorem opened_life_started : lifeMachine.start openedLife :=
  ⟨singleBlockConfig, fun _ => File.empty, {}, by decide, rfl⟩

/-- A first write finds its segment and its block. -/
theorem write_targets_valid_first_write :
    (openedLife.targets (.write oneByteRequest {})).all (fun target => decide target.Valid) = true := by
  rw [List.all_eq_true]
  intro target member
  rw [decide_eq_true_eq]
  exact StoreLife.write_targets_valid openedLife (.start opened_life_started)
    (.write oneByteRequest {}) (.inr ⟨rfl, rfl⟩) target member

/-- Blocks without room, and segments that are full once they have a header:
every write is direct and needs a new segment. -/
def smallSegmentConfig : NvmeStoreConfig :=
  { segmentSize := 4096, writeBlockSizeMb := 0, writeBlockPoolSize := 1 }

def smallSegmentLife : StoreLife := { store := (openStore smallSegmentConfig (fun _ => File.empty) {}).2 }

theorem small_segment_life_started : lifeMachine.start smallSegmentLife :=
  ⟨smallSegmentConfig, fun _ => File.empty, {}, by decide, rfl⟩

/-- After `close` of a store without entries a write goes to a freed buffer and
a null segment; a direct write whose segment does not open goes to a null one. -/
theorem closed_store_written :
    (∃ life, Reach lifeMachine life ∧
      life.targets (.write oneByteRequest {}) = [.append none true true]) ∧
    (∃ life, Reach lifeMachine life ∧
      life.targets (.direct { opened := false } .complete) = [.direct none]) := by
  constructor
  · refine ⟨last lifeMachine openedLife [.close {}], ?_, by decide +kernel⟩
    exact Reach.to_last (.start opened_life_started) _ (by decide +kernel)
  · refine ⟨last lifeMachine smallSegmentLife [.write oneByteRequest {}], ?_, by decide +kernel⟩
    exact Reach.to_last (.start small_segment_life_started) _ (by decide +kernel)

end AttentionDB
