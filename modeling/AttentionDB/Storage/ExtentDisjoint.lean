import AttentionDB.Storage.WriteSections

/-!
# Extents handed out to one writer

The buffered path hands out extents at the cursor of the active block, the
direct path at the end of the active segment. A direct write moves the end and
not the cursor, so the next append into the same block overlaps it. While no
append finds the end of its segment beyond its cursor, every direct write finds
a segment, and no new segment takes an id that is in use, all extents handed
out are disjoint.
-/

namespace AttentionDB

open GuardedRuns BlobStore

set_option autoImplicit false

def ExtentsApart (left right : BlobLocation) : Prop :=
  left.segmentId = right.segmentId →
    left.offset + left.diskSize ≤ right.offset ∨ right.offset + right.diskSize ≤ left.offset

def ExtentsDisjoint (acked : List Ack) : Prop :=
  acked.Pairwise (fun left right => ExtentsApart left.loc right.loc) ∧
    ∀ ack ∈ acked, kSegmentHeaderSize ≤ ack.loc.offset

def NeedsSegment (s : BlobStore) (size : Nat) : Prop :=
  ∀ seg, s.currentSegment = some seg → s.config.segmentSize.toNat < seg.writeOffset + size

/-- The end of the block's segment is not beyond the cursor of the block. -/
def CursorAtEnd (s : BlobStore) (b : Nat) : Prop :=
  ∀ seg ∈ s.segments, seg.id = (s.blocks b).segmentId →
    seg.writeOffset ≤ (s.blocks b).segmentOffset + (s.blocks b).pos

/-- The steps of a single writer after which extents stay disjoint. -/
def extentGuard (system : StoreSystem) : StoreLabel → Prop
  | .writeBegin t request _ => t = 0 ∧ ∀ b, system.store.activeBlock = some b →
      ((system.store.blocks b).pos + entryDiskSize request.data.length ≤
          (system.store.blocks b).capacity → CursorAtEnd system.store b) ∧
        ((system.store.blocks b).capacity <
            (system.store.blocks b).pos + entryDiskSize request.data.length →
          NeedsSegment system.store (blockCapacity system.store.config) → system.store.FreshId)
  | .writeResume t _ => t = 0 ∧
      (NeedsSegment system.store (blockCapacity system.store.config) → system.store.FreshId)
  | .writeDirect t _ _ => t = 0 ∧ system.store.activeSegment ≠ none ∧
      ∀ request, system.writers t = .direct request →
        NeedsSegment system.store (entryDiskSize request.data.length) → system.store.FreshId
  | _ => True

/-- The segment of the active block, and how far both cursors reach in it. The
first `base` segments are those the scan found, which take no entries. -/
structure BlockCursor (base : Nat) (s : BlobStore) (acked : List Ack) (b : Nat) : Prop where
  segment : ∃ j seg, base ≤ j ∧ s.segments[j]? = some seg ∧ seg.id = (s.blocks b).segmentId ∧
    (s.activeSegment = some j →
      (s.blocks b).segmentOffset + (s.blocks b).pos ≤ seg.writeOffset) ∧
    ∀ ack ∈ acked, ack.loc.segmentId = (s.blocks b).segmentId →
      ack.loc.offset + ack.loc.diskSize ≤
        max seg.writeOffset ((s.blocks b).segmentOffset + (s.blocks b).pos)
  beyondHeader : kSegmentHeaderSize ≤ (s.blocks b).segmentOffset + (s.blocks b).pos

/-- The active segment: the only created one with its id, and all its extents
before its end. -/
structure ActiveEnd (base : Nat) (s : BlobStore) (acked : List Ack) (i : Nat) (seg : SegmentInfo) :
    Prop where
  created : base ≤ i
  found : s.segments[i]? = some seg
  usable : seg.fd ≠ none
  beyondHeader : kSegmentHeaderSize ≤ seg.writeOffset
  alone : ∀ (k : Nat) (other : SegmentInfo), base ≤ k → s.segments[k]? = some other →
    other.id = seg.id → k = i
  before : ∀ ack ∈ acked, ack.loc.segmentId = seg.id →
    ack.loc.offset + ack.loc.diskSize ≤ seg.writeOffset

/-- The invariant of the store and its history. `asleep` says that the writer
sleeps in `acquire_block`, where the active block will not be used again. -/
structure ExtentInv (base : Nat) (s : BlobStore) (asleep : Prop) (acked : List Ack) : Prop where
  scanned : base ≤ s.segments.length
  capacity : ∀ b, (s.blocks b).capacity = blockCapacity s.config
  active : ∀ i, s.activeSegment = some i → ∃ seg, ActiveEnd base s acked i seg
  block : ¬asleep → s.activeSegment ≠ none → ∀ b, s.activeBlock = some b → BlockCursor base s acked b
  known : ∀ ack ∈ acked, ∃ seg ∈ s.segments, seg.id = ack.loc.segmentId
  extents : ExtentsDisjoint acked

section Moves

variable {base : Nat} {s : BlobStore} {asleep : Prop} {acked : List Ack} {io : SegmentIo}

theorem extents_disjoint_cons {ack : Ack} (extents : ExtentsDisjoint acked)
    (beyondHeader : kSegmentHeaderSize ≤ ack.loc.offset)
    (before : ∀ other ∈ acked, other.loc.segmentId = ack.loc.segmentId →
      other.loc.offset + other.loc.diskSize ≤ ack.loc.offset) :
    ExtentsDisjoint (ack :: acked) := by
  constructor
  · apply List.pairwise_cons.2
    refine ⟨?_, extents.1⟩
    intro other member same
    exact .inr (before other member same.symm)
  · intro other member
    rcases List.mem_cons.1 member with rfl | old
    · exact beyondHeader
    · exact extents.2 other old

/-- Creating a segment under a fresh id. -/
theorem active_end_created (inv : ExtentInv base s asleep acked) (fresh : s.FreshId)
    (opened : io.opened = true) :
    ActiveEnd base (s.createNewSegment io) acked s.segments.length s.freshSegment := by
  rcases create_opened s io opened with ⟨segments, _⟩
  refine { created := inv.scanned, found := ?_, usable := ?_, beyondHeader := ?_, alone := ?_, before := ?_ }
  · rw [segments]
    simp
  · simp [freshSegment]
  · simp [freshSegment]
  · intro k other _ found same
    rw [segments] at found
    by_cases old : k < s.segments.length
    · rw [List.getElem?_append_left old] at found
      exact absurd same (fresh other (List.mem_of_getElem? found))
    · rcases List.getElem?_eq_some_iff.1 found with ⟨bound, _⟩
      simp only [List.length_append, List.length_cons, List.length_nil] at bound
      omega
  · intro ack member same
    rcases inv.known ack member with ⟨seg, inList, id⟩
    exact absurd (id.trans same) (fresh seg inList)

/-- The invariant only looks at the blocks, the segments and the two active
pointers. -/
theorem ExtentInv.congr (inv : ExtentInv base s asleep acked) {other : BlobStore}
    (blocks : other.blocks = s.blocks) (config : other.config = s.config)
    (segments : other.segments = s.segments) (active : other.activeSegment = s.activeSegment)
    (block : ¬asleep → s.activeSegment ≠ none → other.activeBlock = s.activeBlock) :
    ExtentInv base other asleep acked := by
  refine
    { scanned := by rw [segments]; exact inv.scanned
      capacity := ?_
      active := ?_
      block := ?_
      known := ?_
      extents := inv.extents }
  · intro b
    rw [blocks, config]
    exact inv.capacity b
  · intro i isActive
    rw [active] at isActive
    rcases inv.active i isActive with ⟨seg, ends⟩
    exact ⟨seg, ends.created, segments ▸ ends.found, ends.usable, ends.beyondHeader, segments ▸ ends.alone,
      ends.before⟩
  · intro awake hasSegment b isActive
    rw [active] at hasSegment
    rw [block awake hasSegment] at isActive
    have cursor := inv.block awake hasSegment b isActive
    constructor
    · rw [segments, blocks, active]
      exact cursor.segment
    · rw [blocks]
      exact cursor.beyondHeader
  · rw [segments]
    exact inv.known

/-- Creating a segment. Without an active segment before, the writer has to be
about to replace its block. -/
theorem ExtentInv.create (inv : ExtentInv base s asleep acked) (fresh : s.FreshId) {asleepAfter : Prop}
    (keeps : ¬asleepAfter → ¬asleep ∧ s.activeSegment ≠ none) :
    ExtentInv base (s.createNewSegment io) asleepAfter acked := by
  have longer : s.segments.length ≤ (s.createNewSegment io).segments.length := by
    cases opened : io.opened with
    | true => simp [create_opened s io opened]
    | false => simp [create_refused s io opened]
  refine
    { scanned := Nat.le_trans inv.scanned longer
      capacity := by simpa using inv.capacity
      active := ?_
      block := ?_
      known := ?_
      extents := inv.extents }
  · intro i isActive
    cases opened : io.opened with
    | true =>
        rw [(create_opened s io opened).2] at isActive
        cases isActive
        exact ⟨s.freshSegment, active_end_created inv fresh opened⟩
    | false =>
        rw [(create_refused s io opened).2] at isActive
        contradiction
  · intro awake hasSegment b isActive
    rw [create_active_block] at isActive
    have cursor := inv.block (keeps awake).1 (keeps awake).2 b isActive
    cases opened : io.opened with
    | true =>
        rcases create_opened s io opened with ⟨segments, current⟩
        rcases cursor.segment with ⟨j, seg, created, found, id, activeBound, before⟩
        rcases List.getElem?_eq_some_iff.1 found with ⟨bound, _⟩
        constructor
        · rw [create_blocks]
          refine ⟨j, seg, created, ?_, id, ?_, before⟩
          · rw [segments, List.getElem?_append_left bound]
            exact found
          · intro isCurrent
            rw [current] at isCurrent
            cases isCurrent
            omega
        · rw [create_blocks]
          exact cursor.beyondHeader
    | false => exact absurd (create_refused s io opened).2 hasSegment
  · intro ack member
    rcases inv.known ack member with ⟨seg, inList, id⟩
    refine ⟨seg, ?_, id⟩
    cases opened : io.opened with
    | true => simp [create_opened s io opened, inList]
    | false => simp [create_refused s io opened, inList]

theorem ExtentInv.weaken (inv : ExtentInv base s asleep acked) {asleepAfter : Prop}
    (implied : asleep → asleepAfter) : ExtentInv base s asleepAfter acked :=
  { inv with block := fun awake => inv.block fun sleeping => awake (implied sleeping) }

theorem ExtentInv.seek_block (inv : ExtentInv base s asleep acked) (b : Nat)
    (fresh : NeedsSegment s (blockCapacity s.config) → s.FreshId) :
    ExtentInv base (s.segmentForBlock b io) True acked := by
  unfold segmentForBlock
  split
  · rename_i missing
    apply inv.create _ (by simp)
    apply fresh
    intro seg current
    rw [missing] at current
    contradiction
  · rename_i seg current
    split
    · rename_i full
      apply inv.create _ (by simp)
      apply fresh
      intro other same
      rw [current] at same
      cases same
      rw [← inv.capacity b]
      exact full
    · exact inv.weaken fun _ => trivial

theorem ExtentInv.seek_entry (inv : ExtentInv base s asleep acked) (io : SegmentIo) (diskSize : Nat)
    (hasSegment : s.activeSegment ≠ none) (fresh : NeedsSegment s diskSize → s.FreshId) :
    ExtentInv base (s.segmentForEntry diskSize io) asleep acked := by
  unfold segmentForEntry
  split
  · rename_i missing
    apply inv.create _ fun awake => ⟨awake, hasSegment⟩
    apply fresh
    intro seg current
    rw [missing] at current
    contradiction
  · rename_i seg current
    split
    · rename_i full
      apply inv.create _ fun awake => ⟨awake, hasSegment⟩
      apply fresh
      intro other same
      rw [current] at same
      cases same
      exact full
    · exact inv

/-- The block after a reset starts where its segment ends. -/
theorem ExtentInv.reset (inv : ExtentInv base s True acked) {b i : Nat} {seg : SegmentInfo}
    (isActive : s.activeBlock = some b) (current : s.activeSegment = some i)
    (found : s.segments[i]? = some seg) : ExtentInv base (s.resetBlock b seg) False acked := by
  rcases inv.active i current with ⟨seg', activeEnd⟩
  have same : seg = seg' := Option.some.inj (found.symm.trans activeEnd.found)
  subst same
  refine
    { scanned := inv.scanned
      capacity := ?_
      active := ?_
      block := ?_
      known := inv.known
      extents := inv.extents }
  · intro c
    rw [reset_block_capacity]
    exact inv.capacity c
  · intro k isCurrent
    rcases inv.active k isCurrent with ⟨end', ends⟩
    exact ⟨end', ends.created, ends.found, ends.usable, ends.beyondHeader, ends.alone, ends.before⟩
  · intro _ _ c isBlock
    have same : b = c := Option.some.inj (isActive.symm.trans isBlock)
    subst same
    constructor
    · refine ⟨i, seg, activeEnd.created, found, by simp [WriteBlock.reset], ?_, ?_⟩
      · intro _
        simp [WriteBlock.reset]
      · intro ack member inSegment
        have before := activeEnd.before ack member (by simpa [WriteBlock.reset] using inSegment)
        omega
    · simpa [WriteBlock.reset] using activeEnd.beyondHeader

/-- Appending at a cursor that the end of the segment has not passed. -/
theorem ExtentInv.append (inv : ExtentInv base s False acked) {b i : Nat} (request : WriteRequest)
    (data : List UInt8) (isActive : s.activeBlock = some b) (current : s.activeSegment = some i)
    (short : request.data.length < 2 ^ 32)
    (atEnd : ∀ (j : Nat) (seg : SegmentInfo), base ≤ j → s.segments[j]? = some seg →
      seg.id = (s.blocks b).segmentId →
      seg.writeOffset ≤ (s.blocks b).segmentOffset + (s.blocks b).pos) :
    ExtentInv base (s.appended b i request) False
      ({ loc := blockLocation (s.blocks b) request.data.length, data, block := some b } :: acked) := by
  have cursor := inv.block (by simp) (by simp [current]) b isActive
  rcases cursor.segment with ⟨j, seg, created, found, id, activeBound, before⟩
  have reached := atEnd j seg created found id
  have small := entry_disk_size_le request.data.length short
  have truncated : entryDiskSize request.data.length % 2 ^ 32 ≤ entryDiskSize request.data.length :=
    Nat.mod_le _ _
  rcases inv.active i current with ⟨last, ends⟩
  refine
    { scanned := by simpa [appended] using inv.scanned
      capacity := ?_
      active := ?_
      block := ?_
      known := ?_
      extents := ?_ }
  · intro c
    rw [appended_capacity]
    exact inv.capacity c
  · intro k isCurrent
    have sameIndex : k = i := Option.some.inj (isCurrent.symm.trans current)
    subst sameIndex
    refine ⟨last.advance (entryDiskSize request.data.length), ?_⟩
    refine
      { created := ends.created
        found := advanced_lookup.2 ⟨last, ends.found, by simp⟩
        usable := ends.usable
        beyondHeader := Nat.le_trans ends.beyondHeader (by simp)
        alone := ?_
        before := ?_ }
    · intro n other createdOther foundOther same
      rcases advanced_lookup.1 foundOther with ⟨old, foundOld, rfl⟩
      apply ends.alone n old createdOther foundOld
      split at same <;> simpa using same
    · intro ack member inSegment
      rcases List.mem_cons.1 member with rfl | old
      · -- the new extent is in the active segment only if the block is
        have sameSegment : seg.id = last.id := id.trans (by simpa [blockLocation] using inSegment)
        have sameIndex := ends.alone j seg created found sameSegment
        subst sameIndex
        have sameSeg : seg = last := Option.some.inj (found.symm.trans ends.found)
        subst sameSeg
        have bound := activeBound isCurrent
        simp only [blockLocation, advance_write_offset]
        omega
      · have bound := ends.before ack old inSegment
        simp only [advance_write_offset]
        omega
  · intro _ _ c isBlock
    have same : b = c := Option.some.inj (isActive.symm.trans isBlock)
    subst same
    constructor
    · refine ⟨j, if i = j then seg.advance (entryDiskSize request.data.length) else seg, created,
        advanced_lookup.2 ⟨seg, found, rfl⟩, ?_, ?_, ?_⟩
      · split <;> simpa [appendToBlock] using id
      · intro isCurrent
        have sameIndex : i = j := Option.some.inj (current.symm.trans isCurrent)
        have bound := activeBound (sameIndex ▸ current)
        simp only [sameIndex, if_true, appended_block, appendToBlock, advance_write_offset]
        omega
      · intro ack member inSegment
        simp only [appended_block, appendToBlock] at inSegment ⊢
        rcases List.mem_cons.1 member with rfl | old
        · simp only [blockLocation]
          omega
        · have bound := before ack old inSegment
          omega
    · have bound := cursor.beyondHeader
      simp only [appended_block, appendToBlock]
      omega
  · intro ack member
    rcases List.mem_cons.1 member with rfl | old
    · refine ⟨if i = j then seg.advance (entryDiskSize request.data.length) else seg,
        List.mem_of_getElem? (advanced_lookup.2 ⟨seg, found, rfl⟩), ?_⟩
      split <;> simpa [blockLocation] using id
    · rcases inv.known ack old with ⟨other, inList, same⟩
      rcases List.mem_iff_getElem?.1 inList with ⟨n, foundOther⟩
      refine ⟨if i = n then other.advance (entryDiskSize request.data.length) else other,
        List.mem_of_getElem? (advanced_lookup.2 ⟨other, foundOther, rfl⟩), ?_⟩
      split <;> simpa using same
  · apply extents_disjoint_cons inv.extents
    · simpa [blockLocation] using cursor.beyondHeader
    · intro other member same
      have bound := before other member (by simpa [blockLocation] using same)
      simp only [blockLocation]
      omega

/-- A direct write takes the bytes at the end of the active segment. -/
theorem ExtentInv.place (inv : ExtentInv base s asleep acked) {i diskSize length sequence : Nat}
    {files : Files} {seg : SegmentInfo} {data : List UInt8} (current : s.activeSegment = some i)
    (found : s.segments[i]? = some seg) :
    ExtentInv base
      { s with
        writeSequence := sequence
        files := files
        segments := s.segments.modify i (·.advance diskSize) } asleep
      ({ loc := { segmentId := seg.id, offset := seg.writeOffset, length, diskSize := diskSize % 2 ^ 32 }
         data, block := none } :: acked) := by
  have truncated : diskSize % 2 ^ 32 ≤ diskSize := Nat.mod_le _ _
  rcases inv.active i current with ⟨last, ends⟩
  have sameSeg : seg = last := Option.some.inj (found.symm.trans ends.found)
  subst sameSeg
  refine
    { scanned := by simpa using inv.scanned
      capacity := inv.capacity
      active := ?_
      block := ?_
      known := ?_
      extents := ?_ }
  · intro k isCurrent
    have sameIndex : k = i := Option.some.inj (isCurrent.symm.trans current)
    subst sameIndex
    refine ⟨seg.advance diskSize, ?_⟩
    refine
      { created := ends.created
        found := advanced_lookup.2 ⟨seg, found, by simp⟩
        usable := ends.usable
        beyondHeader := Nat.le_trans ends.beyondHeader (by simp)
        alone := ?_
        before := ?_ }
    · intro n other createdOther foundOther same
      rcases advanced_lookup.1 foundOther with ⟨old, foundOld, rfl⟩
      apply ends.alone n old createdOther foundOld
      split at same <;> simpa using same
    · intro ack member inSegment
      rcases List.mem_cons.1 member with rfl | old
      · simp only [advance_write_offset]
        omega
      · have bound := ends.before ack old inSegment
        simp only [advance_write_offset]
        omega
  · intro awake hasSegment b isActive
    have cursor := inv.block awake hasSegment b isActive
    refine ⟨?_, cursor.beyondHeader⟩
    rcases cursor.segment with ⟨j, other, created, foundOther, id, activeBound, before⟩
    refine ⟨j, if i = j then other.advance diskSize else other, created,
      advanced_lookup.2 ⟨other, foundOther, rfl⟩, ?_, ?_, ?_⟩
    · split <;> simpa using id
    · intro isCurrent
      have bound := activeBound isCurrent
      split
      · simp only [advance_write_offset]
        omega
      · exact bound
    · intro ack member inSegment
      rcases List.mem_cons.1 member with rfl | old
      · -- only the block's own segment can hold the new extent
        have sameId : other.id = seg.id := id.trans inSegment.symm
        have sameIndex := ends.alone j other created foundOther sameId
        subst sameIndex
        have sameOther : other = seg := Option.some.inj (foundOther.symm.trans found)
        simp only [if_true, advance_write_offset, sameOther]
        omega
      · have bound := before ack old inSegment
        split
        · simp only [advance_write_offset]
          omega
        · exact bound
  · intro ack member
    rcases List.mem_cons.1 member with rfl | old
    · exact ⟨seg.advance diskSize,
        List.mem_of_getElem? (advanced_lookup.2 ⟨seg, found, by simp⟩), rfl⟩
    · rcases inv.known ack old with ⟨other, inList, same⟩
      rcases List.mem_iff_getElem?.1 inList with ⟨n, foundOther⟩
      refine ⟨if i = n then other.advance diskSize else other,
        List.mem_of_getElem? (advanced_lookup.2 ⟨other, foundOther, rfl⟩), ?_⟩
      split <;> simpa using same
  · apply extents_disjoint_cons inv.extents
    · exact ends.beyondHeader
    · intro other member same
      exact ends.before other member same

end Moves

/-! ## Sections -/

section Sections

variable {base : Nat} {s after : BlobStore} {asleep : Prop} {acked : List Ack} {io : SegmentIo}
  {request : WriteRequest} {outcome : WriteOutcome}

theorem ExtentInv.acquire (inv : ExtentInv base s True acked)
    (short : request.data.length ≤ 2 ^ 32 - 1 - kEntryHeaderSize)
    (fresh : NeedsSegment s (blockCapacity s.config) → s.FreshId)
    (cases : AcquireCases s request io outcome after) :
    ExtentInv base after (outcome = .waiting) (StoreSystem.recorded acked request outcome after) := by
  cases cases with
  | sleeps empty running => exact inv.weaken fun _ => rfl
  | stopped empty halted =>
      have stopped : ExtentInv base { s with activeBlock := none } True acked :=
        inv.congr rfl rfl rfl rfl (by simp)
      exact { stopped with block := by simp }
  | noSegment b rest free missing =>
      have sought : ExtentInv base (s.withNextBlock b rest io) True acked := by
        have next : ExtentInv base { s with freePool := rest, activeBlock := some b } True acked :=
          inv.congr rfl rfl rfl rfl (by simp)
        exact next.seek_block b fresh
      -- an active segment always has an open file
      have none : (s.withNextBlock b rest io).activeSegment = none := by
        cases current : (s.withNextBlock b rest io).activeSegment with
        | none => rfl
        | some i =>
            rcases sought.active i current with ⟨seg, ends⟩
            have closed := missing seg (by rw [currentSegment, current]; exact ends.found)
            exact absurd closed ends.usable
      exact { sought with block := fun _ hasSegment => absurd none hasSegment }
  | appends b rest seg i free current found usable =>
      have sought : ExtentInv base (s.withNextBlock b rest io) True acked := by
        have next : ExtentInv base { s with freePool := rest, activeBlock := some b } True acked :=
          inv.congr rfl rfl rfl rfl (by simp)
        exact next.seek_block b fresh
      have fresh := sought.reset (next_block_active_block s b io rest) current found
      rcases sought.active i current with ⟨last, ends⟩
      have sameSeg : seg = last := Option.some.inj (found.symm.trans ends.found)
      have done := fresh.append request request.data
        (next_block_active_block s b io rest) current
        (by unfold kEntryHeaderSize at short; omega) (by
        intro k other created foundOther id
        have sameId : other.id = last.id := by
          rw [id, reset_block_block, ← sameSeg]
          rfl
        have sameIndex := ends.alone k other created foundOther sameId
        subst sameIndex
        have sameOther : other = last := Option.some.inj (foundOther.symm.trans ends.found)
        simp [WriteBlock.reset, sameOther, sameSeg])
      rw [reset_block_block, next_block_blocks] at done
      have location : (((s.withNextBlock b rest io).resetBlock b seg).appended b i
          request).activeBlock = some b := by simp
      simp only [StoreSystem.recorded, location]
      exact done.weaken (by simp)

theorem ExtentInv.enter (inv : ExtentInv base s False acked)
    (allowed : ∀ b, s.activeBlock = some b →
      ((s.blocks b).pos + entryDiskSize request.data.length ≤ (s.blocks b).capacity →
        CursorAtEnd s b) ∧
      ((s.blocks b).capacity < (s.blocks b).pos + entryDiskSize request.data.length →
        NeedsSegment s (blockCapacity s.config) → s.FreshId))
    (cases : EnterCases s request io outcome after) :
    ExtentInv base after (outcome = .waiting) (StoreSystem.recorded acked request outcome after) := by
  cases cases with
  | refused status => exact inv.weaken (by simp)
  | goesDirect b isActive long short => exact inv.weaken (by simp)
  | rotates b isActive fits full short rest =>
      have queued : ExtentInv base (s.queued b) True acked :=
        (inv.weaken fun _ => trivial).congr rfl rfl rfl rfl (by simp)
      exact queued.acquire short ((allowed b isActive).2 full) rest
  | appends b i isActive room short current =>
      have done := inv.append request request.data isActive current
        (by unfold kEntryHeaderSize at short; omega)
        (fun j seg _ found id => (allowed b isActive).1 room seg (List.mem_of_getElem? found) id)
      simp only [StoreSystem.recorded, appended_active_block, isActive]
      exact done.weaken (by simp)

end Sections

/-! ## Runs -/

def WriterPc.Asleep : WriterPc → Prop
  | .waiting _ => True
  | _ => False

structure SingleWriterInv (base : Nat) (system : StoreSystem) : Prop where
  others : ∀ t, t ≠ 0 → system.writers t = .idle
  short : ∀ request, system.writers 0 = .waiting request →
    request.data.length ≤ 2 ^ 32 - 1 - kEntryHeaderSize
  store : ExtentInv base system.store (system.writers 0).Asleep system.acked

section Runs

variable {base : Nat} {system after : StoreSystem} {label : StoreLabel}

theorem pc_asleep_iff (request : WriteRequest) (outcome : WriteOutcome) :
    (StoreSystem.pcAfter request outcome).Asleep ↔ outcome = .waiting := by
  cases outcome <;> simp [StoreSystem.pcAfter, WriterPc.Asleep]

theorem SingleWriterInv.after_section (inv : SingleWriterInv base system) {request : WriteRequest}
    {outcome : WriteOutcome} {store : BlobStore}
    (short : outcome = .waiting → request.data.length ≤ 2 ^ 32 - 1 - kEntryHeaderSize)
    (done : ExtentInv base store (outcome = .waiting)
      (StoreSystem.recorded system.acked request outcome store)) :
    SingleWriterInv base (system.afterSection 0 request (outcome, store)) := by
  refine { others := ?_, short := ?_, store := ?_ }
  · intro t other
    simpa [other] using inv.others t other
  · intro other pc
    rw [StoreSystem.after_section_writers, Function.update_self] at pc
    cases outcome <;> simp [StoreSystem.pcAfter] at pc
    subst pc
    exact short rfl
  · simp only [StoreSystem.after_section_store, StoreSystem.after_section_acked,
      StoreSystem.after_section_writers, Function.update_self]
    exact done.weaken (pc_asleep_iff request outcome).2

theorem SingleWriterInv.step (inv : SingleWriterInv base system) (allowed : extentGuard system label)
    (moved : storeMachine.exec system label = some after) : SingleWriterInv base after := by
  cases label with
  | writeBegin t request io =>
      rcases allowed with ⟨rfl, allowed⟩
      rcases StoreSystem.write_begin_step moved with ⟨outcome, store, idle, entered, rfl⟩
      have awake : ExtentInv base system.store False system.acked := by
        have stored := inv.store
        rw [idle] at stored
        exact stored
      have cases := enter_cases entered
      apply inv.after_section _ (awake.enter allowed cases)
      intro waits
      cases cases with
      | refused | goesDirect | appends => contradiction
      | rotates b isActive fits full short rest => exact short
  | writeResume t io =>
      rcases allowed with ⟨rfl, fresh⟩
      rcases StoreSystem.write_resume_step moved with ⟨request, outcome, store, waiting, resumed, rfl⟩
      have short := inv.short request waiting
      have asleep : ExtentInv base system.store True system.acked :=
        inv.store.weaken fun _ => trivial
      exact inv.after_section (fun _ => short) (asleep.acquire short fresh (acquire_cases resumed))
  | writeDirect t io result =>
      rcases allowed with ⟨rfl, hasSegment, fresh⟩
      rcases StoreSystem.write_direct_step moved with ⟨request, outcome, store, direct, written, rfl⟩
      have awake : ExtentInv base system.store False system.acked := by
        have stored := inv.store
        rw [direct] at stored
        exact stored
      have sought := awake.seek_entry io (entryDiskSize request.data.length) hasSegment
        (fresh request direct)
      have others : ∀ u, u ≠ 0 → Function.update system.writers 0 WriterPc.idle u = .idle := by
        intro u other
        simpa [other] using inv.others u other
      rcases write_direct_cases written with
        ⟨i, seg, files, current, found, ⟨rfl, rfl⟩ | ⟨rfl, rfl⟩⟩
      · refine { others := others, short := by simp, store := ?_ }
        have left : ExtentInv base
            { system.store.segmentForEntry (entryDiskSize request.data.length) io with
              writeSequence :=
                (system.store.segmentForEntry (entryDiskSize request.data.length) io).writeSequence + 1
              files := files } False system.acked :=
          sought.congr rfl rfl rfl rfl fun _ _ => rfl
        simp only [StoreSystem.after_direct_writers, Function.update_self]
        exact left.weaken (by simp)
      · refine { others := others, short := by simp, store := ?_ }
        simp only [StoreSystem.after_direct_writers, Function.update_self]
        exact (sought.place current found).weaken (by simp)
  | flush step =>
      rcases StoreSystem.flush_thread_step moved with ⟨pc, store, ran, rfl⟩
      refine { others := inv.others, short := inv.short, store := ?_ }
      rcases flush_step_frame ran with ⟨blocks, config, segments, activeSegment, activeBlock⟩
      exact inv.store.congr blocks config segments activeSegment fun _ _ => activeBlock
  | readBegin r loc bufLen | readPending r | readLookup r | readDisk r readOk =>
      simp only [storeMachine] at moved
      rcases StoreSystem.reader_step rfl moved with ⟨reader, pc, rfl⟩
      exact { others := inv.others, short := inv.short, store := inv.store }

theorem SingleWriterInv.opened {config : NvmeStoreConfig} {files : Files} {io : OpenIo}
    (ok : (openStore config files io).1 = .kOk) :
    ∃ base, SingleWriterInv base { store := (openStore config files io).2 } := by
  rcases open_store_cases ok with ⟨listing, seg, b, rest, listed, current, pool, opened⟩
  rcases scan_frame listing (constructed config files) with ⟨blocks, configIs, _, _, _⟩
  let scanned := listing.foldl scanSegment (constructed config files)
  refine ⟨scanned.segments.length, fun _ _ => rfl, by simp, ?_⟩
  rw [opened]
  cases allowed : io.segment.opened with
  | false =>
      have missing : (withSegments config files listing io.segment).activeSegment = none :=
        (create_refused scanned io.segment allowed).2
      rw [currentSegment, missing] at current
      contradiction
  | true =>
      rcases create_opened scanned io.segment allowed with ⟨segments, activeIs⟩
      have started : ExtentInv scanned.segments.length
          { withSegments config files listing io.segment with
            freePool := rest
            activeBlock := some b
            flushRunning := true } True [] := by
        refine
          { scanned := ?_
            capacity := ?_
            active := ?_
            block := by simp
            known := by simp
            extents := ⟨List.Pairwise.nil, by simp⟩ }
        · have longer : scanned.segments.length ≤ (scanned.createNewSegment io.segment).segments.length := by
            simp [segments]
          exact longer
        · intro c
          have capacity : ((scanned.createNewSegment io.segment).blocks c).capacity =
              blockCapacity (scanned.createNewSegment io.segment).config := by
            rw [create_blocks, create_config, blocks, configIs]
            rfl
          exact capacity
        · intro i isActive
          have index : i = scanned.segments.length := by
            have position : (scanned.createNewSegment io.segment).activeSegment = some i := isActive
            rw [activeIs] at position
            exact (Option.some.inj position).symm
          subst index
          have found : (scanned.createNewSegment io.segment).segments[scanned.segments.length]? =
              some scanned.freshSegment := by
            simp [segments]
          refine ⟨scanned.freshSegment, Nat.le_refl _, found, by simp [freshSegment],
            by simp [freshSegment], ?_, by simp⟩
          intro k other created foundOther _
          have bound : (scanned.createNewSegment io.segment).segments[k]? = some other := foundOther
          rcases List.getElem?_eq_some_iff.1 bound with ⟨inside, _⟩
          simp only [segments, List.length_append, List.length_cons, List.length_nil] at inside
          omega
      have index : (withSegments config files listing io.segment).activeSegment =
          some scanned.segments.length := activeIs
      rw [currentSegment, index] at current
      have reset := started.reset rfl index current
      exact reset.weaken id

/-- In every run of a single writer whose steps meet the condition, the extents
handed out are disjoint and none reaches into a segment header. -/
theorem extents_disjoint {system : StoreSystem}
    (reached : ReachWithin storeMachine extentGuard system) : ExtentsDisjoint system.acked := by
  have inv : ∃ base, SingleWriterInv base system := by
    apply reached.invariant fun system => ∃ base, SingleWriterInv base system
    · intro start initial
      rcases initial with ⟨config, files, io, ok, rfl⟩
      exact SingleWriterInv.opened ok
    · intro before label after inv allowed moved
      rcases inv with ⟨base, inv⟩
      exact ⟨base, inv.step allowed moved⟩
  rcases inv with ⟨base, inv⟩
  exact inv.store.extents

end Runs

/-! ## A direct write between two appends -/

def oversizedRequest : WriteRequest :=
  { key := probeKey, data := List.replicate (2 ^ 20) 0, checksum := 0 }

theorem oversized_length : oversizedRequest.data.length = 2 ^ 20 := List.length_replicate

theorem oversized_disk_size : entryDiskSize oversizedRequest.data.length = 2 ^ 20 + 4096 := by
  rw [oversized_length, entry_disk_size_eq _ (by decide)]
  rfl

def twoEntrySystem : StoreSystem :=
  oneEntrySystem.afterSection 0 emptyRequest
    (.stored (blockLocation (oneEntrySystem.store.blocks 0) 0),
      oneEntrySystem.store.appended 0 0 emptyRequest)

theorem extents_disjoint_two_entries : ExtentsDisjoint twoEntrySystem.acked := by
  have first : ReachWithin storeMachine extentGuard oneEntrySystem := by
    apply ReachWithin.by_label (.writeBegin 0 emptyRequest {})
      (.start single_block_store_started) _ one_entry_moved
    refine ⟨rfl, ?_⟩
    intro b isActive
    cases isActive
    exact ⟨fun _ => by unfold CursorAtEnd; decide, fun full => absurd full (by decide)⟩
  apply extents_disjoint
  apply ReachWithin.by_label (.writeBegin 0 emptyRequest {}) first
  · refine ⟨rfl, ?_⟩
    intro b isActive
    cases isActive
    exact ⟨fun _ => by unfold CursorAtEnd; decide, fun full => absurd full (by decide)⟩
  · have entered := write_enter_appends oneEntrySystem.store 0 0 emptyRequest {} rfl (by decide)
      (by decide) rfl
    have idle : oneEntrySystem.writers 0 = .idle := rfl
    simp only [storeMachine, StoreSystem.exec, idle, entered, Option.map_some]
    rfl

def firstSegment : SegmentInfo :=
  { id := 0, fd := some (.canonical 0), writeOffset := 8192, entryCount := 1, liveCount := 1 }

def directLocation : BlobLocation :=
  { segmentId := 0
    offset := 8192
    length := 2 ^ 20 % 2 ^ 32
    diskSize := (2 ^ 20 + 4096) % 2 ^ 32 }

def directStore (files : Files) : BlobStore :=
  { oneEntrySystem.store with
    writeSequence := oneEntrySystem.store.writeSequence + 1
    files := files
    segments := oneEntrySystem.store.segments.modify 0 (·.advance (2 ^ 20 + 4096)) }

def directSystem (files : Files) : StoreSystem :=
  (oneEntrySystem.setWriter 0 (.direct oversizedRequest)).afterDirect 0 oversizedRequest
    (.stored directLocation, directStore files)

theorem direct_system_reached : ∃ files, Reach storeMachine (directSystem files) := by
  have size := oversized_disk_size
  have first : Reach storeMachine oneEntrySystem :=
    .next (.start single_block_store_started) trivial one_entry_moved
  have goes : oneEntrySystem.store.writeEnter oversizedRequest {} =
      some (.direct, oneEntrySystem.store) := by
    have capacity : (oneEntrySystem.store.blocks 0).capacity = 2 ^ 20 := by decide
    have active : oneEntrySystem.store.activeBlock = some 0 := rfl
    have short : ¬2 ^ 32 - 1 - kEntryHeaderSize < oversizedRequest.data.length := by
      rw [oversized_length]
      decide
    simp only [writeEnter, active]
    rw [if_neg short, if_pos (by omega)]
  have second : Reach storeMachine (oneEntrySystem.setWriter 0 (.direct oversizedRequest)) := by
    apply ReachWithin.by_label (.writeBegin 0 oversizedRequest {}) first trivial
    have idle : oneEntrySystem.writers 0 = .idle := rfl
    simp only [storeMachine, StoreSystem.exec, idle, goes, Option.map_some]
    rfl
  have places := write_direct_places oneEntrySystem.store oversizedRequest {} 0 firstSegment
    ⟨firstSegment, by decide, by rw [size]; decide⟩ rfl
    (by decide) rfl (by omega)
  rcases places with ⟨files, places⟩
  rw [size, oversized_length] at places
  refine ⟨files, ReachWithin.by_label (.writeDirect 0 {} .complete) second trivial ?_⟩
  have direct : (oneEntrySystem.setWriter 0 (.direct oversizedRequest)).writers 0 =
      .direct oversizedRequest := rfl
  have store : (oneEntrySystem.setWriter 0 (.direct oversizedRequest)).store =
      oneEntrySystem.store := rfl
  simp only [storeMachine, StoreSystem.exec, direct, store, places, Option.map_some]
  rfl

/-- A direct write lands at the cursor of the active block, and the next entry
of that block lands on the direct one. -/
theorem direct_write_overlaps_append :
    ∃ system, Reach storeMachine system ∧ (∀ t, t ≠ 0 → system.writers t = .idle) ∧
      ¬ExtentsDisjoint system.acked := by
  rcases direct_system_reached with ⟨files, reached⟩
  have blocks : (directSystem files).store.blocks = oneEntrySystem.store.blocks := rfl
  have entered := write_enter_appends (directSystem files).store 0 0 emptyRequest {} rfl
    (by decide) (by rw [blocks]; decide) rfl
  have appends : storeMachine.exec (directSystem files) (.writeBegin 0 emptyRequest {}) =
      some ((directSystem files).afterSection 0 emptyRequest
        (.stored (blockLocation ((directSystem files).store.blocks 0) 0),
          (directSystem files).store.appended 0 0 emptyRequest)) := by
    have idle : (directSystem files).writers 0 = .idle := rfl
    simp only [storeMachine, StoreSystem.exec, idle, entered, Option.map_some]
    rfl
  refine ⟨_, reached.next trivial appends, ?_, ?_⟩
  · intro t other
    simp [directSystem, StoreSystem.setWriter, oneEntrySystem, other]
  · intro disjoint
    have apart := (List.pairwise_cons.1 disjoint.1).1
      { loc := directLocation, data := oversizedRequest.data, block := none } List.mem_cons_self rfl
    have cursor : (blockLocation ((directSystem files).store.blocks 0) 0).offset = 8192 := by
      rw [blocks]
      decide
    have extent : (blockLocation ((directSystem files).store.blocks 0) 0).diskSize = 4096 := by
      rw [blocks]
      decide
    simp only [cursor, extent, directLocation] at apart
    omega

end AttentionDB
