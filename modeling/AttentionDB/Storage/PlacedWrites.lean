import AttentionDB.Storage.PlacedSteps

/-!
# The sections of a write place blobs at ends

Each section of `write` keeps the placed blobs, as long as an append into the
active block happens at the end of the active segment and the block is in no
other role. A segment that is not active stays as it is, and nothing more is
placed in it.
-/

namespace AttentionDB

open BlobStore

set_option autoImplicit false

/-- What `write` does not check before it uses the active block: that the block
was not handed to the flush thread, and that its cursor is the end of the
active segment. -/
def AppendsCleanly (s : BlobStore) (request : WriteRequest) : Prop :=
  ∀ b, s.activeBlock = some b → entryDiskSize request.data.length ≤ (s.blocks b).capacity →
    otherRoles s b = 0 ∧
      ((s.blocks b).pos + entryDiskSize request.data.length ≤ (s.blocks b).capacity →
        ∃ seg, s.currentSegment = some seg ∧ AppendsAtEnd s b seg)

/-- The segment that a walk goes through is still there, and not active. -/
structure Sealed (s : BlobStore) (k : Nat) (scan : GcScan) : Prop where
  found : ∃ seg, s.segments[k]? = some seg ∧ seg.id = scan.segmentId ∧ seg.fd = some scan.path ∧
    seg.writeOffset = scan.writeOffset
  notActive : s.activeSegment ≠ some k

section Sealing

variable {s : BlobStore} {k i size : Nat} {scan : GcScan} {io : SegmentIo}

theorem Sealed.congr (sealed : Sealed s k scan) {after : BlobStore}
    (segments : after.segments = s.segments) (active : after.activeSegment = s.activeSegment) :
    Sealed after k scan := by
  constructor
  · rw [segments]
    exact sealed.found
  · rw [active]
    exact sealed.notActive

theorem Sealed.create (sealed : Sealed s k scan) : Sealed (s.createNewSegment io) k scan := by
  rcases sealed.found with ⟨seg, found, known⟩
  rcases List.getElem?_eq_some_iff.1 found with ⟨inside, _⟩
  cases opened : io.opened with
  | true =>
      rcases create_opened s io opened with ⟨segments, active⟩
      constructor
      · rw [segments, List.getElem?_append_left inside]
        exact ⟨seg, found, known⟩
      · rw [active]
        intro same
        cases same
        omega
  | false =>
      rcases create_refused s io opened with ⟨segments, active⟩
      constructor
      · rw [segments]
        exact ⟨seg, found, known⟩
      · rw [active]
        simp

theorem Sealed.advance (sealed : Sealed s k scan) (current : s.activeSegment = some i) {after : BlobStore}
    (segments : after.segments = s.segments.modify i (·.advance size))
    (active : after.activeSegment = s.activeSegment) : Sealed after k scan := by
  rcases sealed.found with ⟨seg, found, known⟩
  have other : i ≠ k := by
    intro same
    exact sealed.notActive (by rw [current, same])
  constructor
  · rw [segments]
    refine ⟨seg, advanced_lookup.2 ⟨seg, found, ?_⟩, known⟩
    rw [if_neg other]
  · rw [active]
    exact sealed.notActive

theorem Sealed.mark_dead (sealed : Sealed s k scan) (loc : BlobLocation) :
    Sealed (s.markDead loc) k scan := by
  rcases mark_dead_cases s loc with same | ⟨j, change, marked, sameId, sameFd, sameOffset⟩
  · rw [same]
    exact sealed
  · rw [marked]
    refine ⟨?_, sealed.notActive⟩
    rcases sealed.found with ⟨seg, found, id, fd, offset⟩
    have foundAfter : (s.segments.modify j change)[k]? = some (if j = k then change seg else seg) := by
      rw [List.getElem?_modify, found, Option.map_eq_map, Option.map_some]
    refine ⟨_, foundAfter, ?_⟩
    split
    · rw [sameId, sameFd, sameOffset]
      exact ⟨id, fd, offset⟩
    · exact ⟨id, fd, offset⟩

/-- The active segment is another one than a sealed segment. -/
theorem Sealed.other_id (sealed : Sealed s k scan) (distinct : (s.segments.map (·.id)).Nodup)
    (current : s.activeSegment = some i) {seg : SegmentInfo} (found : s.segments[i]? = some seg) :
    seg.id ≠ scan.segmentId := by
  intro same
  rcases sealed.found with ⟨other, foundOther, id, _⟩
  have index := same_position distinct found foundOther (same.trans id.symm)
  exact sealed.notActive (by rw [current, index])

theorem Sealed.seek_block (sealed : Sealed s k scan) (b : Nat) (rest : List Nat) :
    Sealed (s.withNextBlock b rest io) k scan := by
  have taken : Sealed { s with freePool := rest, activeBlock := some b } k scan :=
    sealed.congr rfl rfl
  unfold withNextBlock
  rcases segment_for_block_cases { s with freePool := rest, activeBlock := some b } b io with
    created | ⟨stays, _⟩
  · rw [created]
    exact taken.create
  · rw [stays]
    exact taken

theorem Sealed.seek_entry (sealed : Sealed s k scan) (diskSize : Nat) :
    Sealed (s.segmentForEntry diskSize io) k scan := by
  rcases segment_for_entry_cases s io diskSize with created | ⟨stays, _⟩
  · rw [created]
    exact sealed.create
  · rw [stays]
    exact sealed

end Sealing

section Sections

variable {s after : BlobStore} {flush : FlushPc} {unwritten : List Ack} {placed : List PlacedBlob}
  {request : WriteRequest} {io : SegmentIo} {outcome : WriteOutcome} {k : Nat} {scan : GcScan}

theorem PlacedInv.acquire (inv : PlacedInv s flush unwritten placed) (handed : Handed s)
    (ok : RequestOk request) (fits : entryDiskSize request.data.length ≤ blockCapacity s.config)
    (room : s.nextSegmentId < 2 ^ 32) (cases : AcquireCases s request io outcome after)
    (distinct : (after.segments.map (·.id)).Nodup) :
    PlacedInv after flush (StoreSystem.recorded unwritten request outcome after)
        (placed ++ placedBy request after.activeBlock outcome) ∧
      (outcome = .waiting → Handed after) := by
  cases cases with
  | sleeps empty running =>
      refine ⟨?_, fun _ => handed⟩
      simpa [placedBy, StoreSystem.recorded] using inv
  | stopped empty halted =>
      have stopped : PlacedInv { s with activeBlock := none } flush unwritten placed := by
        refine { inv with
          rows := inv.rows.congr rfl rfl rfl rfl rfl
          roles := inv.roles
          buffered := ?_
          stored := inv.stored }
        intro p member waits
        rcases inv.buffered p member waits with ⟨c, block, keeps, holds⟩
        refine ⟨c, block, ?_, holds⟩
        rcases keeps with inQueue | writing | active
        · exact .inl inQueue
        · exact .inr (.inl writing)
        · exact absurd active.2 (handed c active.1)
      refine ⟨?_, by simp⟩
      simpa [placedBy, StoreSystem.recorded] using stopped
  | noSegment b rest free missing =>
      refine ⟨?_, by simp⟩
      have sought := (inv.seek free handed room distinct).1
      simpa [placedBy, StoreSystem.recorded] using sought
  | appends b rest seg i free current found usable =>
      refine ⟨?_, by simp⟩
      have distinctBefore : ((s.withNextBlock b rest io).segments.map (·.id)).Nodup := by
        have ids := modify_advance_ids (s.withNextBlock b rest io).segments i
          (entryDiskSize request.data.length)
        have same : (((s.withNextBlock b rest io).resetBlock b seg).appended b i request).segments =
            (s.withNextBlock b rest io).segments.modify i
              (·.advance (entryDiskSize request.data.length)) := rfl
        rw [same, ids] at distinct
        exact distinct
      rcases inv.seek free handed room distinctBefore with ⟨sought, alone⟩
      have currentIs := current_segment_found current found
      have reset := sought.reset (inv.free_unused free handed) currentIs
      have atEnd : AppendsAtEnd ((s.withNextBlock b rest io).resetBlock b seg) b seg := by
        constructor <;> simp [WriteBlock.reset]
      have roomLeft : (((s.withNextBlock b rest io).resetBlock b seg).blocks b).pos +
          entryDiskSize request.data.length ≤
            (((s.withNextBlock b rest io).resetBlock b seg).blocks b).capacity := by
        have capacity : (s.blocks b).capacity = blockCapacity s.config := (inv.rows.spans b).capacity
        simp only [reset_block_block, next_block_blocks, WriteBlock.reset, capacity]
        omega
      have done := reset.append (next_block_active_block s b io rest) alone current found atEnd ok roomLeft
      have location : newAck ((s.withNextBlock b rest io).resetBlock b seg) b request =
          { loc := blockLocation ((s.blocks b).reset seg.id seg.writeOffset seg.fd) request.data.length
            data := request.data
            block := some b } := by
        simp [newAck]
      have active : (((s.withNextBlock b rest io).resetBlock b seg).appended b i request).activeBlock =
          some b := by simp
      simp only [appendedBlob, location] at done
      simp only [StoreSystem.recorded, placedBy, active]
      exact done

theorem PlacedInv.enter (inv : PlacedInv s flush unwritten placed) (clean : AppendsCleanly s request)
    (ok : request.data.length ≤ 2 ^ 32 - 1 - kEntryHeaderSize → RequestOk request)
    (room : s.nextSegmentId < 2 ^ 32) (cases : EnterCases s request io outcome after)
    (distinct : (after.segments.map (·.id)).Nodup) :
    PlacedInv after flush (StoreSystem.recorded unwritten request outcome after)
        (placed ++ placedBy request after.activeBlock outcome) ∧
      (outcome = .waiting → Handed after) := by
  cases cases with
  | refused status bad =>
      refine ⟨?_, by simp⟩
      simpa [placedBy, StoreSystem.recorded] using inv
  | goesDirect b isActive long short =>
      refine ⟨?_, by simp⟩
      simpa [placedBy, StoreSystem.recorded] using inv
  | rotates b isActive fits full short rest =>
      rcases clean b isActive fits with ⟨alone, _⟩
      rcases inv.queued isActive alone with ⟨queued, handed⟩
      rw [(inv.rows.spans b).capacity] at fits
      exact queued.acquire handed (ok short) fits room rest distinct
  | appends b i isActive roomLeft short current =>
      have fits : entryDiskSize request.data.length ≤ (s.blocks b).capacity := by omega
      rcases clean b isActive fits with ⟨alone, atEnd⟩
      rcases atEnd roomLeft with ⟨seg, currentIs, ends⟩
      have found : s.segments[i]? = some seg := (current_segment_at s current).symm.trans currentIs
      refine ⟨?_, by simp⟩
      have done := inv.append isActive alone current found ends (ok short) roomLeft
      have active : (s.appended b i request).activeBlock = some b := isActive
      simp only [StoreSystem.recorded, placedBy, active]
      exact done

theorem PlacedInv.write_direct (inv : PlacedInv s flush unwritten placed) (ok : RequestOk request)
    (room : s.nextSegmentId < 2 ^ 32) {result : IoResult}
    (run : s.writeDirect request io result = some (outcome, after))
    (distinct : (after.segments.map (·.id)).Nodup) :
    PlacedInv after flush unwritten (placed ++ placedBy request none outcome) := by
  rcases write_direct_files run with ⟨i, seg, base, baseIs, current, found, files, failed | stored⟩
  · rcases failed with ⟨rfl, afterIs⟩
    have segments : after.segments = base.segments := by rw [afterIs]
    rw [segments] at distinct
    rw [baseIs] at distinct
    have sought : PlacedInv base flush unwritten placed := by
      rw [baseIs]
      exact inv.seek_entry room distinct
    rw [afterIs]
    have kept : PlacedInv { base with writeSequence := base.writeSequence + 1, files := after.files } flush
        unwritten placed := by
      refine { sought with
        rows := sought.rows.congr rfl rfl rfl rfl rfl
        roles := sought.roles
        buffered := sought.buffered
        stored := ?_ }
      intro p member written listed
      rw [files]
      exact sought.written_behind current found member (sought.stored p member written listed)
    simpa [placedBy] using kept
  · rcases stored with ⟨success, rfl, afterIs⟩
    have ids : after.segments.map (·.id) = base.segments.map (·.id) := by
      rw [afterIs]
      exact modify_advance_ids _ _ _
    rw [ids] at distinct
    rw [baseIs] at distinct
    have sought : PlacedInv base flush unwritten placed := by
      rw [baseIs]
      exact inv.seek_entry room distinct
    rw [afterIs]
    let p : PlacedBlob :=
      { ack :=
          { loc :=
              { segmentId := seg.id
                offset := seg.writeOffset
                length := request.data.length % 2 ^ 32
                diskSize := entryDiskSize request.data.length % 2 ^ 32 }
            data := request.data
            block := none }
        request }
    have sameId : p.segmentId = seg.id := rfl
    have position : p.offset = seg.writeOffset := rfl
    exact sought.direct current found sameId position ok success files

/-! ## Nothing more in a sealed segment -/

theorem Sealed.acquire (sealed : Sealed s k scan) (cases : AcquireCases s request io outcome after)
    (distinct : (after.segments.map (·.id)).Nodup) (block : Option Nat) :
    Sealed after k scan ∧ ∀ p ∈ placedBy request block outcome, p.segmentId ≠ scan.segmentId := by
  cases cases with
  | sleeps empty running => exact ⟨sealed, by simp [placedBy]⟩
  | stopped empty halted => exact ⟨sealed.congr rfl rfl, by simp [placedBy]⟩
  | noSegment b rest free missing => exact ⟨sealed.seek_block b rest, by simp [placedBy]⟩
  | appends b rest seg i free current found usable =>
      have sought : Sealed (s.withNextBlock b rest io) k scan := sealed.seek_block b rest
      have segments : (((s.withNextBlock b rest io).resetBlock b seg).appended b i request).segments =
          (s.withNextBlock b rest io).segments.modify i
            (·.advance (entryDiskSize request.data.length)) := rfl
      rw [segments, modify_advance_ids] at distinct
      refine ⟨sought.advance current segments rfl, ?_⟩
      intro p member
      rw [List.mem_singleton.1 member]
      exact sought.other_id distinct current found

theorem Sealed.enter (sealed : Sealed s k scan) (distinctBefore : (s.segments.map (·.id)).Nodup)
    (clean : AppendsCleanly s request) (cases : EnterCases s request io outcome after)
    (distinct : (after.segments.map (·.id)).Nodup) (block : Option Nat) :
    Sealed after k scan ∧ ∀ p ∈ placedBy request block outcome, p.segmentId ≠ scan.segmentId := by
  cases cases with
  | refused status bad => exact ⟨sealed, by simp [placedBy]⟩
  | goesDirect b isActive long short => exact ⟨sealed, by simp [placedBy]⟩
  | rotates b isActive fits full short rest =>
      have queued : Sealed (s.queued b) k scan := sealed.congr rfl rfl
      exact queued.acquire rest distinct block
  | appends b i isActive roomLeft short current =>
      have fits : entryDiskSize request.data.length ≤ (s.blocks b).capacity := by omega
      rcases (clean b isActive fits).2 roomLeft with ⟨seg, currentIs, ends⟩
      have found : s.segments[i]? = some seg := (current_segment_at s current).symm.trans currentIs
      refine ⟨sealed.advance current rfl rfl, ?_⟩
      intro p member
      rw [List.mem_singleton.1 member]
      have other := sealed.other_id distinctBefore current found
      rw [← ends.segment] at other
      exact other

theorem Sealed.write_direct (sealed : Sealed s k scan) {result : IoResult}
    (run : s.writeDirect request io result = some (outcome, after))
    (distinct : (after.segments.map (·.id)).Nodup) (block : Option Nat) :
    Sealed after k scan ∧ ∀ p ∈ placedBy request block outcome, p.segmentId ≠ scan.segmentId := by
  have sought : Sealed (s.segmentForEntry (entryDiskSize request.data.length) io) k scan :=
    sealed.seek_entry _
  rcases write_direct_files run with ⟨i, seg, base, rfl, current, found, _, failed | stored⟩
  · rcases failed with ⟨rfl, afterIs⟩
    refine ⟨?_, by simp [placedBy]⟩
    rw [afterIs]
    exact sought.congr rfl rfl
  · rcases stored with ⟨_, rfl, afterIs⟩
    have segments : after.segments = (s.segmentForEntry (entryDiskSize request.data.length) io).segments.modify
        i (·.advance (entryDiskSize request.data.length)) := by rw [afterIs]
    rw [segments, modify_advance_ids] at distinct
    refine ⟨?_, ?_⟩
    · apply sought.advance current segments
      rw [afterIs]
    · intro p member
      rw [List.mem_singleton.1 member]
      exact sought.other_id distinct current found

end Sections

end AttentionDB
