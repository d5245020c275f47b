import AttentionDB.Storage.PlacedEntries
import AttentionDB.Storage.VisibleEntries

/-!
# Segments as rows of entries

While every append goes to the end of the active segment, the blobs placed in a
segment lie in a row from the segment header to the write offset, in the order
of the writes. Every block holds the entries in its range and stays clear of
all others, also after it was flushed.
-/

namespace AttentionDB

open BlobStore Rows

set_option autoImplicit false

def PlacedBlob.offset (p : PlacedBlob) : Nat := p.ack.loc.offset

def PlacedBlob.size (p : PlacedBlob) : Nat := entryDiskSize p.request.data.length

/-- The blobs of the segment fill it. -/
structure SegmentRow (placed : List PlacedBlob) (seg : SegmentInfo) : Prop where
  fd : seg.fd = some (.canonical seg.id)
  row : Row PlacedBlob.offset PlacedBlob.size kSegmentHeaderSize seg.writeOffset
    (placedIn placed seg.id)

/-- The block has the entry in its range and in its buffer. -/
structure BufferHolds (block : WriteBlock) (p : PlacedBlob) : Prop where
  segment : block.segmentId = p.segmentId
  start : block.segmentOffset ≤ p.offset
  stop : p.offset + p.size ≤ block.segmentOffset + block.pos
  entry : EntryOf block.buf (p.offset - block.segmentOffset) p.request

def Avoids (block : WriteBlock) (p : PlacedBlob) : Prop :=
  block.segmentId = p.segmentId →
    p.offset + p.size ≤ block.segmentOffset ∨ block.segmentOffset + block.pos ≤ p.offset

/-- A block is empty until it is reset for the first time. After that it lies
in a segment that was created, before the end of that segment. -/
structure BlockSpan (s : BlobStore) (block : WriteBlock) : Prop where
  capacity : block.capacity = blockCapacity s.config
  aligned : block.pos % kAlignment = 0
  small : block.pos ≤ block.capacity
  unset : block.segmentOffset < kSegmentHeaderSize → block.pos = 0
  created : kSegmentHeaderSize ≤ block.segmentOffset → block.segmentId < s.nextSegmentId
  named : kSegmentHeaderSize ≤ block.segmentOffset → ∀ seg ∈ s.segments,
    seg.id = block.segmentId → block.segmentFd = some (.canonical seg.id) ∧
      block.segmentOffset + block.pos ≤ seg.writeOffset

structure RowsInv (s : BlobStore) (placed : List PlacedBlob) : Prop where
  distinct : (s.segments.map (·.id)).Nodup
  paths : ∀ seg ∈ s.segments, ∃ path, seg.fd = some path ∧ path.parsedId % 2 ^ 32 = seg.id
  requests : ∀ p ∈ placed, RequestOk p.request
  created : ∀ p ∈ placed, p.segmentId < s.nextSegmentId
  rows : ∀ seg ∈ s.segments, placedIn placed seg.id ≠ [] → SegmentRow placed seg
  active : ∀ seg, s.currentSegment = some seg → seg.id < s.nextSegmentId ∧ SegmentRow placed seg
  spans : ∀ b, BlockSpan s (s.blocks b)
  blocks : ∀ b, ∀ p ∈ placed, BufferHolds (s.blocks b) p ∨ Avoids (s.blocks b) p

/-! ## Small facts -/

section Facts

variable {s : BlobStore} {placed : List PlacedBlob} {io : SegmentIo} {seg : SegmentInfo}

theorem placed_in_iff {p : PlacedBlob} {segmentId : Nat} :
    p ∈ placedIn placed segmentId ↔ p ∈ placed ∧ p.segmentId = segmentId := by
  simp [placedIn]

theorem placed_in_snoc_same {p : PlacedBlob} {segmentId : Nat} (same : p.segmentId = segmentId) :
    placedIn (placed ++ [p]) segmentId = placedIn placed segmentId ++ [p] := by
  simp [placedIn, same]

theorem placed_in_snoc_other {p : PlacedBlob} {segmentId : Nat} (other : p.segmentId ≠ segmentId) :
    placedIn (placed ++ [p]) segmentId = placedIn placed segmentId := by
  simp [placedIn, other]

theorem placed_in_eq_nil {segmentId : Nat} (none : ∀ p ∈ placed, p.segmentId ≠ segmentId) :
    placedIn placed segmentId = [] := by
  apply List.filter_eq_nil_iff.2
  intro p member
  simpa using none p member

theorem SegmentRow.within (row : SegmentRow placed seg) {p : PlacedBlob} (member : p ∈ placed)
    (same : p.segmentId = seg.id) :
    kSegmentHeaderSize ≤ p.offset ∧ p.offset + p.size ≤ seg.writeOffset :=
  row.row.within p (placed_in_iff.2 ⟨member, same⟩)

/-- The row only looks at three fields of the segment. -/
theorem SegmentRow.congr {other : SegmentInfo} (row : SegmentRow placed seg) (id : other.id = seg.id)
    (fd : other.fd = seg.fd) (offset : other.writeOffset = seg.writeOffset) :
    SegmentRow placed other := by
  constructor
  · rw [fd, id]
    exact row.fd
  · rw [offset, id]
    exact row.row

theorem RowsInv.positive (inv : RowsInv s placed) {p : PlacedBlob} (member : p ∈ placed) : 0 < p.size :=
  (inv.requests p member).positive

theorem same_segment (distinct : (s.segments.map (·.id)).Nodup) {other : SegmentInfo}
    (member : seg ∈ s.segments) (otherMember : other ∈ s.segments) (same : seg.id = other.id) :
    seg = other :=
  List.inj_on_of_nodup_map distinct member otherMember same

theorem same_position (distinct : (s.segments.map (·.id)).Nodup) {other : SegmentInfo} {i k : Nat}
    (found : s.segments[i]? = some seg) (otherFound : s.segments[k]? = some other)
    (same : seg.id = other.id) : i = k := by
  rcases List.getElem?_eq_some_iff.1 found with ⟨inside, _⟩
  have inIds : i < (s.segments.map (·.id)).length := by simpa using inside
  apply (List.getElem?_inj inIds distinct).1
  rw [List.getElem?_map, List.getElem?_map, found, otherFound]
  simp [same]

theorem current_segment_found {active : Nat} (current : s.activeSegment = some active)
    (found : s.segments[active]? = some seg) : s.currentSegment = some seg :=
  (current_segment_at s current).trans found

theorem current_segment_member (current : s.currentSegment = some seg) : seg ∈ s.segments := by
  unfold currentSegment at current
  cases active : s.activeSegment with
  | none =>
      rw [active] at current
      contradiction
  | some i =>
      rw [active] at current
      exact List.mem_of_getElem? current

/-- The invariant looks at the blocks, the segments and the counter only. -/
theorem RowsInv.congr (inv : RowsInv s placed) {other : BlobStore} (blocks : other.blocks = s.blocks)
    (config : other.config = s.config) (segments : other.segments = s.segments)
    (active : other.activeSegment = s.activeSegment) (next : other.nextSegmentId = s.nextSegmentId) :
    RowsInv other placed := by
  have current : other.currentSegment = s.currentSegment := by
    rw [currentSegment, currentSegment, active, segments]
  constructor
  · rw [segments]
    exact inv.distinct
  · rw [segments]
    exact inv.paths
  · exact inv.requests
  · rw [next]
    exact inv.created
  · rw [segments]
    exact inv.rows
  · rw [current, next]
    exact inv.active
  · intro b
    rw [blocks]
    have span := inv.spans b
    refine { span with capacity := ?_, created := ?_, named := ?_ }
    · rw [config]
      exact span.capacity
    · rw [next]
      exact span.created
    · rw [segments]
      exact span.named
  · rw [blocks]
    exact inv.blocks

end Facts

/-! ## Creating a segment -/

section Create

variable {s : BlobStore} {placed : List PlacedBlob} {io : SegmentIo}

theorem created_member {seg : SegmentInfo} (member : seg ∈ (s.createNewSegment io).segments) :
    seg ∈ s.segments ∨ seg = s.freshSegment := by
  cases opened : io.opened with
  | true =>
      rw [(create_opened s io opened).1, List.mem_append, List.mem_singleton] at member
      exact member
  | false =>
      rw [(create_refused s io opened).1] at member
      exact .inl member

theorem created_current {seg : SegmentInfo}
    (current : (s.createNewSegment io).currentSegment = some seg) : seg = s.freshSegment := by
  cases opened : io.opened with
  | true =>
      rcases create_opened s io opened with ⟨segments, active⟩
      rw [currentSegment, active, segments] at current
      simpa using current.symm
  | false =>
      rw [currentSegment, (create_refused s io opened).2] at current
      contradiction

/-- Nothing was placed under the next id yet. -/
theorem RowsInv.fresh_empty (inv : RowsInv s placed) (room : s.nextSegmentId < 2 ^ 32) :
    placedIn placed s.freshSegment.id = [] := by
  have reduced : s.freshSegment.id = s.nextSegmentId := Nat.mod_eq_of_lt room
  apply placed_in_eq_nil
  intro p member
  have older := inv.created p member
  omega

theorem RowsInv.create (inv : RowsInv s placed) (room : s.nextSegmentId < 2 ^ 32)
    (distinct : ((s.createNewSegment io).segments.map (·.id)).Nodup) :
    RowsInv (s.createNewSegment io) placed := by
  have reduced : s.freshSegment.id = s.nextSegmentId := Nat.mod_eq_of_lt room
  have empty := inv.fresh_empty room
  refine
    { distinct
      paths := ?_
      requests := inv.requests
      created := ?_
      rows := ?_
      active := ?_
      spans := ?_
      blocks := by simpa using inv.blocks }
  · intro seg member
    rcases created_member member with old | rfl
    · exact inv.paths seg old
    · exact ⟨_, rfl, Nat.mod_mod _ _⟩
  · intro p member
    have older := inv.created p member
    rw [create_next]
    omega
  · intro seg member nonempty
    rcases created_member member with old | rfl
    · exact inv.rows seg old nonempty
    · exact absurd empty nonempty
  · intro seg current
    have isFresh := created_current current
    subst isFresh
    refine ⟨by rw [create_next]; omega, rfl, ?_⟩
    rw [empty]
    exact .nil kSegmentHeaderSize
  · intro b
    rw [create_blocks]
    have span := inv.spans b
    refine { span with capacity := ?_, created := ?_, named := ?_ }
    · rw [create_config]
      exact span.capacity
    · intro reset
      have older := span.created reset
      rw [create_next]
      omega
    · intro reset seg member same
      rcases created_member member with old | rfl
      · exact span.named reset seg old same
      · have older := span.created reset
        omega

end Create

/-! ## Blocks -/

section Blocks

variable {s : BlobStore} {placed : List PlacedBlob} {b i : Nat} {seg : SegmentInfo}
  {request : WriteRequest}

/-- A block that starts again at the end of the active segment. -/
theorem RowsInv.reset (inv : RowsInv s placed) (current : s.currentSegment = some seg) :
    RowsInv (s.resetBlock b seg) placed := by
  rcases inv.active seg current with ⟨created, row⟩
  have beyond := row.row.start_le_stop
  have listed := current_segment_member current
  refine
    { distinct := inv.distinct
      paths := inv.paths
      requests := inv.requests
      created := inv.created
      rows := inv.rows
      active := inv.active
      spans := ?_
      blocks := ?_ }
  · intro c
    by_cases same : c = b
    · subst same
      rw [reset_block_block]
      refine
        { capacity := (inv.spans c).capacity
          aligned := rfl
          small := Nat.zero_le _
          unset := fun _ => rfl
          created := fun _ => created
          named := ?_ }
      intro _ other member id
      have sameSegment := same_segment inv.distinct member listed id
      subst sameSegment
      exact ⟨row.fd, Nat.le_refl _⟩
    · rw [reset_block_other s b seg same]
      have span := inv.spans c
      exact { span with capacity := span.capacity, created := span.created, named := span.named }
  · intro c p member
    by_cases same : c = b
    · subst same
      rw [reset_block_block]
      right
      intro id
      left
      exact (row.within member id.symm).2
    · rw [reset_block_other s b seg same]
      exact inv.blocks c p member

/-- The placement that an append into block `b` records. -/
def appendedBlob (s : BlobStore) (b : Nat) (request : WriteRequest) : PlacedBlob :=
  { ack := newAck s b request, request }

theorem BufferHolds.with_fd {block : WriteBlock} {p : PlacedBlob} (inside : BufferHolds block p)
    (fd : Option SegmentPath) : BufferHolds { block with segmentFd := fd } p :=
  ⟨inside.segment, inside.start, inside.stop, inside.entry⟩

/-- An append leaves the entries before it as they are. -/
theorem BufferHolds.append {block : WriteBlock} {p : PlacedBlob} (inside : BufferHolds block p)
    (ok : RequestOk p.request) (new : RequestOk request) :
    BufferHolds (s.appendToBlock block request) p := by
  have stop := inside.stop
  have start := inside.start
  have fits := entry_fits p.request.data.length ok.short
  refine ⟨inside.segment, start, ?_, ?_⟩
  · exact Nat.le_trans stop (Nat.add_le_add_left (Nat.le_add_right _ _) _)
  · have before : p.offset - block.segmentOffset + kEntryHeaderSize + p.request.data.length ≤
        block.pos := by
      unfold PlacedBlob.size at stop
      omega
    apply EntryOf.congr _ inside.entry
    intro j bound
    apply lay_entry_outside _ _ _ _ _ _ (entry_fits request.data.length new.short)
    left
    have inRange : p.offset - block.segmentOffset + j < block.pos := by omega
    exact inRange

theorem BufferHolds.fresh (s : BlobStore) (b : Nat) (request : WriteRequest) :
    BufferHolds (s.appendToBlock (s.blocks b) request) (appendedBlob s b request) := by
  refine ⟨rfl, Nat.le_add_right _ _, Nat.le_of_eq (Nat.add_assoc _ _ _), ?_⟩
  have laid := lay_entry_of (s.blocks b).buf (s.blocks b).pos s.writeSequence
    (entryDiskSize request.data.length) request
  have offset : (appendedBlob s b request).offset - (s.blocks b).segmentOffset = (s.blocks b).pos :=
    Nat.add_sub_cancel_left _ _
  rw [← offset] at laid
  have skip : (appendedBlob s b request).offset - (s.blocks b).segmentOffset =
      (appendedBlob s b request).offset - (s.appendToBlock (s.blocks b) request).segmentOffset := rfl
  have image : (s.appendToBlock (s.blocks b) request).buf = layEntry (s.blocks b).buf
      ((appendedBlob s b request).offset - (s.blocks b).segmentOffset)
      (headerOf request s.writeSequence) request.data (entryDiskSize request.data.length) := by
    rw [offset]
    rfl
  rw [← skip, image]
  exact laid

structure AppendsAtEnd (s : BlobStore) (b : Nat) (seg : SegmentInfo) : Prop where
  segment : (s.blocks b).segmentId = seg.id
  cursor : (s.blocks b).segmentOffset + (s.blocks b).pos = seg.writeOffset

theorem modify_ids (segments : List SegmentInfo) (i : Nat) {change : SegmentInfo → SegmentInfo}
    (sameId : ∀ seg, (change seg).id = seg.id) :
    (segments.modify i change).map (·.id) = segments.map (·.id) := by
  apply List.ext_getElem?
  intro k
  rw [List.getElem?_map, List.getElem?_map, List.getElem?_modify]
  cases segments[k]? with
  | none => rfl
  | some old =>
      simp only [Option.map_eq_map, Option.map_some]
      split
      · rw [sameId]
      · rfl

theorem modify_advance_ids (segments : List SegmentInfo) (i diskSize : Nat) :
    (segments.modify i (·.advance diskSize)).map (·.id) = segments.map (·.id) :=
  modify_ids segments i fun _ => rfl

/-- The segments after the active one was advanced by one placed entry. -/
theorem RowsInv.rows_advanced (inv : RowsInv s placed) (current : s.activeSegment = some i)
    (found : s.segments[i]? = some seg) {p : PlacedBlob} (same : p.segmentId = seg.id)
    (position : p.offset = seg.writeOffset) :
    SegmentRow (placed ++ [p]) (seg.advance p.size) ∧
      ∀ other ∈ s.segments.modify i (·.advance p.size), placedIn (placed ++ [p]) other.id ≠ [] →
        SegmentRow (placed ++ [p]) other := by
  rcases inv.active seg (current_segment_found current found) with ⟨_, row⟩
  have grown : SegmentRow (placed ++ [p]) (seg.advance p.size) := by
    refine ⟨row.fd, ?_⟩
    rw [advance_id, advance_write_offset, placed_in_snoc_same same]
    exact row.row.snoc position
  refine ⟨grown, ?_⟩
  intro other member nonempty
  rcases List.mem_iff_getElem?.1 member with ⟨k, foundOther⟩
  rcases advanced_lookup.1 foundOther with ⟨old, foundOld, rfl⟩
  by_cases active : i = k
  · subst active
    have sameOld : old = seg := Option.some.inj (foundOld.symm.trans found)
    subst sameOld
    rw [if_pos rfl]
    exact grown
  · rw [if_neg active] at nonempty ⊢
    have otherId : p.segmentId ≠ old.id := by
      intro id
      exact active (same_position inv.distinct found foundOld (same.symm.trans id))
    rw [placed_in_snoc_other otherId] at nonempty
    have oldRow := inv.rows old (List.mem_of_getElem? foundOld) nonempty
    refine ⟨oldRow.fd, ?_⟩
    rw [placed_in_snoc_other otherId]
    exact oldRow.row

/-- A block whose range ends before the new entry. -/
theorem RowsInv.avoids_new (inv : RowsInv s placed) (current : s.activeSegment = some i)
    (found : s.segments[i]? = some seg) {p : PlacedBlob} (same : p.segmentId = seg.id)
    (position : p.offset = seg.writeOffset) (c : Nat) : Avoids (s.blocks c) p := by
  intro id
  right
  have span := inv.spans c
  have listed := List.mem_of_getElem? found
  have row := (inv.active seg (current_segment_found current found)).2
  have beyond := row.row.start_le_stop
  by_cases reset : kSegmentHeaderSize ≤ (s.blocks c).segmentOffset
  · have bound := (span.named reset seg listed (same.symm.trans id.symm)).2
    omega
  · have empty := span.unset (by omega)
    omega

/-- A span in the segments after the active one was advanced. -/
theorem BlockSpan.advanced {block : WriteBlock} (span : BlockSpan s block) {after : BlobStore}
    {size : Nat} (config : after.config = s.config) (next : after.nextSegmentId = s.nextSegmentId)
    (segments : after.segments = s.segments.modify i (·.advance size)) : BlockSpan after block := by
  refine { span with capacity := ?_, created := ?_, named := ?_ }
  · rw [config]
    exact span.capacity
  · rw [next]
    exact span.created
  · intro reset other member id
    rw [segments] at member
    rcases List.mem_iff_getElem?.1 member with ⟨k, foundOther⟩
    rcases advanced_lookup.1 foundOther with ⟨old, foundOld, rfl⟩
    have sameId : (if i = k then old.advance size else old).id = old.id := by split <;> rfl
    rw [sameId] at id ⊢
    rcases span.named reset old (List.mem_of_getElem? foundOld) id with ⟨fd, bound⟩
    refine ⟨fd, ?_⟩
    split
    · rw [advance_write_offset]
      omega
    · exact bound

/-- One more entry at the end of the active segment. What is left to show is
about the blocks. -/
theorem RowsInv.grow (inv : RowsInv s placed) (current : s.activeSegment = some i)
    (found : s.segments[i]? = some seg) {p : PlacedBlob} (same : p.segmentId = seg.id)
    (position : p.offset = seg.writeOffset) (ok : RequestOk p.request) {after : BlobStore}
    (segments : after.segments = s.segments.modify i (·.advance p.size))
    (active : after.activeSegment = s.activeSegment) (next : after.nextSegmentId = s.nextSegmentId)
    (spans : ∀ b, BlockSpan after (after.blocks b))
    (blocks : ∀ b, ∀ q ∈ placed ++ [p], BufferHolds (after.blocks b) q ∨ Avoids (after.blocks b) q) :
    RowsInv after (placed ++ [p]) := by
  rcases inv.active seg (current_segment_found current found) with ⟨created, row⟩
  rcases inv.rows_advanced current found same position with ⟨grown, rows⟩
  refine
    { distinct := ?_
      paths := ?_
      requests := ?_
      created := ?_
      rows := ?_
      active := ?_
      spans
      blocks }
  · rw [segments, modify_advance_ids]
    exact inv.distinct
  · intro other member
    rw [segments] at member
    rcases advanced_member member with ⟨old, listed, id, fd⟩
    rw [id, fd]
    exact inv.paths old listed
  · intro q member
    rcases List.mem_append.1 member with old | new
    · exact inv.requests q old
    · rw [List.mem_singleton.1 new]
      exact ok
  · intro q member
    rw [next]
    rcases List.mem_append.1 member with old | new
    · exact inv.created q old
    · rw [List.mem_singleton.1 new, same]
      exact created
  · rw [segments]
    exact rows
  · intro other currentAfter
    have isSame : other = seg.advance p.size := by
      simp only [currentSegment, active, segments, current, Option.bind_some, List.getElem?_modify,
        if_true, found, Option.map_eq_map, Option.map_some, Option.some.injEq] at currentAfter
      exact currentAfter.symm
    rw [isSame, next]
    exact ⟨created, grown⟩

theorem RowsInv.append (inv : RowsInv s placed) (current : s.activeSegment = some i)
    (found : s.segments[i]? = some seg) (atEnd : AppendsAtEnd s b seg) (ok : RequestOk request)
    (room : (s.blocks b).pos + entryDiskSize request.data.length ≤ (s.blocks b).capacity) :
    RowsInv (s.appended b i request) (placed ++ [appendedBlob s b request]) := by
  have sameId : (appendedBlob s b request).segmentId = seg.id := atEnd.segment
  have position : (appendedBlob s b request).offset = seg.writeOffset := atEnd.cursor
  have cursor := atEnd.cursor
  have row := (inv.active seg (current_segment_found current found)).2
  have segments : (s.appended b i request).segments =
      s.segments.modify i (·.advance (appendedBlob s b request).size) := rfl
  apply inv.grow current found sameId position ok segments rfl rfl
  · intro c
    by_cases same : c = b
    · subst same
      rw [appended_block]
      have span := inv.spans c
      have aligned := span.aligned
      have entryAligned := entry_disk_size_aligned request.data.length ok.short
      refine
        { capacity := span.capacity
          aligned := ?_
          small := room
          unset := ?_
          created := span.created
          named := ?_ }
      · have sum : ((s.blocks c).pos + entryDiskSize request.data.length) % kAlignment = 0 := by
          rw [Nat.add_mod, aligned, entryAligned]
          rfl
        exact sum
      · -- an unset block has its cursor inside the segment header
        intro unset
        have empty := span.unset unset
        have beyond := row.row.start_le_stop
        have low : (s.blocks c).segmentOffset < kSegmentHeaderSize := unset
        omega
      · intro reset other member id
        rcases List.mem_iff_getElem?.1 member with ⟨k, foundOther⟩
        rcases advanced_lookup.1 foundOther with ⟨old, foundOld, rfl⟩
        have sameOld : (if i = k then old.advance (entryDiskSize request.data.length) else old).id =
            old.id := by split <;> rfl
        rw [sameOld] at id ⊢
        have index := same_position inv.distinct found foundOld (atEnd.segment.symm.trans id.symm)
        subst index
        have sameSegment : old = seg := Option.some.inj (foundOld.symm.trans found)
        subst sameSegment
        refine ⟨(span.named reset old (List.mem_of_getElem? found) id).1, ?_⟩
        rw [if_pos rfl, advance_write_offset, ← cursor]
        exact Nat.le_of_eq (Nat.add_assoc _ _ _).symm
    · rw [appended_other s b i request same]
      exact (inv.spans c).advanced rfl rfl rfl
  · intro c p member
    by_cases same : c = b
    · subst same
      rw [appended_block]
      rcases List.mem_append.1 member with old | new
      · rcases inv.blocks c p old with inside | clear
        · exact .inl (inside.append (inv.requests p old) ok)
        · right
          intro id
          left
          have before := (row.within old (id.symm.trans atEnd.segment)).2
          have positive := inv.positive old
          rcases clear id with left | right
          · exact left
          · omega
      · rw [List.mem_singleton.1 new]
        exact .inl (BufferHolds.fresh s c request)
    · rw [appended_other s b i request same]
      rcases List.mem_append.1 member with old | new
      · exact inv.blocks c p old
      · rw [List.mem_singleton.1 new]
        exact .inr (inv.avoids_new current found sameId position c)

/-- A direct write at the end of the active segment. -/
theorem RowsInv.place (inv : RowsInv s placed) (current : s.activeSegment = some i)
    (found : s.segments[i]? = some seg) {p : PlacedBlob} (same : p.segmentId = seg.id)
    (position : p.offset = seg.writeOffset) (ok : RequestOk p.request) {after : BlobStore}
    (segments : after.segments = s.segments.modify i (·.advance p.size))
    (active : after.activeSegment = s.activeSegment) (next : after.nextSegmentId = s.nextSegmentId)
    (config : after.config = s.config) (unchanged : after.blocks = s.blocks) :
    RowsInv after (placed ++ [p]) := by
  apply inv.grow current found same position ok segments active next
  · intro b
    rw [unchanged]
    exact (inv.spans b).advanced config next segments
  · intro b q member
    rw [unchanged]
    rcases List.mem_append.1 member with old | new
    · exact inv.blocks b q old
    · rw [List.mem_singleton.1 new]
      exact .inr (inv.avoids_new current found same position b)

end Blocks

/-! ## Marking dead and removing -/

section Remove

variable {s after : BlobStore} {placed : List PlacedBlob} {segmentId : Nat}

theorem modified_lookup {segments : List SegmentInfo} {i k : Nat} {change : SegmentInfo → SegmentInfo}
    (sameId : ∀ seg, (change seg).id = seg.id) (sameFd : ∀ seg, (change seg).fd = seg.fd)
    (sameOffset : ∀ seg, (change seg).writeOffset = seg.writeOffset) {seg : SegmentInfo}
    (found : (segments.modify i change)[k]? = some seg) :
    ∃ old, segments[k]? = some old ∧ seg.id = old.id ∧ seg.fd = old.fd ∧
      seg.writeOffset = old.writeOffset := by
  rw [List.getElem?_modify, Option.map_eq_map, Option.map_eq_some_iff] at found
  rcases found with ⟨old, listed, rfl⟩
  refine ⟨old, listed, ?_⟩
  split
  · exact ⟨sameId old, sameFd old, sameOffset old⟩
  · exact ⟨rfl, rfl, rfl⟩

theorem RowsInv.mark_dead (inv : RowsInv s placed) (loc : BlobLocation) :
    RowsInv (s.markDead loc) placed := by
  rcases mark_dead_cases s loc with same | ⟨i, change, marked, sameId, sameFd, sameOffset⟩
  · rw [same]
    exact inv
  · rw [marked]
    have lookup : ∀ seg ∈ s.segments.modify i change, ∃ old ∈ s.segments, seg.id = old.id ∧
        seg.fd = old.fd ∧ seg.writeOffset = old.writeOffset := by
      intro seg member
      rcases List.mem_iff_getElem?.1 member with ⟨k, found⟩
      rcases modified_lookup sameId sameFd sameOffset found with ⟨old, listed, same⟩
      exact ⟨old, List.mem_of_getElem? listed, same⟩
    refine
      { distinct := ?_
        paths := ?_
        requests := inv.requests
        created := inv.created
        rows := ?_
        active := ?_
        spans := ?_
        blocks := inv.blocks }
    · simp only [modify_ids s.segments i sameId]
      exact inv.distinct
    · intro seg member
      rcases lookup seg member with ⟨old, listed, id, fd, _⟩
      rw [id, fd]
      exact inv.paths old listed
    · intro seg member nonempty
      rcases lookup seg member with ⟨old, listed, id, fd, offset⟩
      rw [id] at nonempty
      exact (inv.rows old listed nonempty).congr id fd offset
    · intro seg current
      cases active : s.activeSegment with
      | none =>
          simp only [currentSegment, active, Option.bind_none] at current
          contradiction
      | some k =>
          simp only [currentSegment, active, Option.bind_some] at current
          rcases modified_lookup sameId sameFd sameOffset current with ⟨old, listed, id, fd, offset⟩
          rcases inv.active old (current_segment_found active listed) with ⟨created, row⟩
          rw [id]
          exact ⟨created, row.congr id fd offset⟩
    · intro b
      have span := inv.spans b
      refine { span with capacity := span.capacity, created := span.created, named := ?_ }
      intro reset seg member same
      rcases lookup seg member with ⟨old, listed, id, fd, offset⟩
      rw [id, offset]
      exact span.named reset old listed (id.symm.trans same)

/-- Removing finds no segment, or erases one that is not active. -/
theorem gc_remove_cases (run : s.gcRemove segmentId = some after) :
    (after = s ∧ ∀ seg ∈ s.segments, seg.id ≠ segmentId) ∨
      ∃ k seg, s.segments[k]? = some seg ∧ seg.id = segmentId ∧ s.activeSegment ≠ some k ∧
        after = { s.deleteFile seg.fd with
          segments := s.segments.eraseIdx k
          activeSegment := s.activeSegment.map fun active => if k < active then active - 1 else active } := by
  unfold gcRemove at run
  cases position : s.segments.findIdx? (·.id = segmentId) with
  | none =>
      rw [position] at run
      cases run
      left
      refine ⟨rfl, ?_⟩
      intro seg member
      simpa using List.findIdx?_eq_none_iff.1 position seg member
  | some k =>
      rw [position] at run
      simp only at run
      split at run
      · contradiction
      · rename_i notActive
        rcases List.findIdx?_eq_some_iff_getElem.1 position with ⟨inside, isId, _⟩
        have found : s.segments[k]? = some s.segments[k] := List.getElem?_eq_getElem inside
        rw [found] at run
        cases run
        exact .inr ⟨k, s.segments[k], found, by simpa using isId, notActive, rfl⟩

/-- The active segment is the same one after the erasure. -/
theorem erased_current {k : Nat} (notActive : s.activeSegment ≠ some k) :
    ((s.activeSegment.map fun active => if k < active then active - 1 else active).bind
      ((s.segments.eraseIdx k)[·]?)) = s.currentSegment := by
  unfold currentSegment
  cases active : s.activeSegment with
  | none => rfl
  | some i =>
      rw [active] at notActive
      have other : i ≠ k := fun same => notActive (by rw [same])
      simp only [Option.map_some, Option.bind_some, List.getElem?_eraseIdx]
      by_cases after : k < i
      · have shifted : i - 1 + 1 = i := by omega
        rw [if_pos after, if_neg (by omega), shifted]
      · rw [if_neg after, if_pos (by omega)]

@[simp] theorem delete_file_config (fd : Option SegmentPath) :
    (s.deleteFile fd).config = s.config := by
  cases fd <;> rfl

@[simp] theorem delete_file_next (fd : Option SegmentPath) :
    (s.deleteFile fd).nextSegmentId = s.nextSegmentId := by
  cases fd <;> rfl

/-- A block only loses the descriptor of the deleted file. -/
theorem delete_file_block (fd : Option SegmentPath) (b : Nat) :
    (s.deleteFile fd).blocks b = { s.blocks b with segmentFd := ((s.deleteFile fd).blocks b).segmentFd } ∧
      (∀ path, ((s.deleteFile fd).blocks b).segmentFd = some path ↔
        (s.blocks b).segmentFd = some path ∧ fd ≠ some path) := by
  cases fd with
  | none => exact ⟨rfl, fun path => by simp [deleteFile]⟩
  | some deleted =>
      refine ⟨rfl, ?_⟩
      intro path
      simp only [deleteFile, WriteBlock.forget]
      split
      · rename_i gone
        rw [gone]
        simp
      · rename_i kept
        constructor
        · intro same
          refine ⟨same, ?_⟩
          intro deletedToo
          exact kept (same.trans deletedToo.symm)
        · exact fun both => both.1

/-- The file of another segment is another file. -/
theorem RowsInv.other_path (inv : RowsInv s placed) {seg other : SegmentInfo} (member : seg ∈ s.segments)
    (otherMember : other ∈ s.segments) (different : seg.id ≠ other.id) :
    seg.fd ≠ some (.canonical other.id) := by
  intro same
  rcases inv.paths seg member with ⟨path, fd, parsed⟩
  rcases inv.paths other otherMember with ⟨otherPath, _, otherParsed⟩
  have isSame : path = .canonical other.id := Option.some.inj (fd.symm.trans same)
  rw [isSame, SegmentPath.parsedId] at parsed
  omega

/-- With distinct ids, no segment that is left has the id of the erased one. -/
theorem erased_other_id (distinct : (s.segments.map (·.id)).Nodup) {k : Nat} {gone seg : SegmentInfo}
    (found : s.segments[k]? = some gone) (member : seg ∈ s.segments.eraseIdx k) : gone.id ≠ seg.id := by
  intro same
  rcases List.mem_iff_getElem?.1 member with ⟨j, foundSeg⟩
  rw [List.getElem?_eraseIdx] at foundSeg
  split at foundSeg
  · have position := same_position distinct found foundSeg same
    omega
  · have position := same_position distinct found foundSeg same
    omega

theorem RowsInv.remove (inv : RowsInv s placed) (run : s.gcRemove segmentId = some after) :
    RowsInv after placed := by
  rcases gc_remove_cases run with ⟨rfl, _⟩ | ⟨k, gone, found, isId, notActive, rfl⟩
  · exact inv
  · have sublist := List.eraseIdx_sublist s.segments k
    have goneMember := List.mem_of_getElem? found
    have otherId : ∀ seg ∈ s.segments.eraseIdx k, gone.id ≠ seg.id :=
      fun _ member => erased_other_id inv.distinct found member
    refine
      { distinct := (sublist.map (·.id)).nodup inv.distinct
        paths := fun seg member => inv.paths seg (sublist.mem member)
        requests := inv.requests
        created := ?_
        rows := fun seg member nonempty => inv.rows seg (sublist.mem member) nonempty
        active := ?_
        spans := ?_
        blocks := ?_ }
    · intro p member
      have older := inv.created p member
      simpa using older
    · intro seg current
      have same : s.currentSegment = some seg := by
        rw [← erased_current notActive]
        exact current
      have known := inv.active seg same
      simpa using known
    · intro b
      rcases delete_file_block (s := s) gone.fd b with ⟨block, keeps⟩
      have span := inv.spans b
      have pos : ((s.deleteFile gone.fd).blocks b).pos = (s.blocks b).pos := by rw [block]
      have id : ((s.deleteFile gone.fd).blocks b).segmentId = (s.blocks b).segmentId := by rw [block]
      have offset : ((s.deleteFile gone.fd).blocks b).segmentOffset = (s.blocks b).segmentOffset := by
        rw [block]
      have capacity : ((s.deleteFile gone.fd).blocks b).capacity = (s.blocks b).capacity := by
        rw [block]
      constructor
      · simpa [capacity] using span.capacity
      · simpa [pos] using span.aligned
      · simpa [pos, capacity] using span.small
      · simpa [pos, offset] using span.unset
      · simpa [id, offset] using span.created
      · intro reset seg member same
        have resetBefore : kSegmentHeaderSize ≤ (s.blocks b).segmentOffset := by simpa [offset] using reset
        have sameBefore : seg.id = (s.blocks b).segmentId := same.trans id
        rcases span.named resetBefore seg (sublist.mem member) sameBefore with ⟨fd, bound⟩
        have otherFile := inv.other_path goneMember (sublist.mem member) (otherId seg member)
        refine ⟨(keeps _).2 ⟨fd, otherFile⟩, ?_⟩
        simpa [pos, offset] using bound
    · intro b p member
      rcases delete_file_block (s := s) gone.fd b with ⟨block, _⟩
      have same : ({ s.deleteFile gone.fd with
          segments := s.segments.eraseIdx k
          activeSegment := s.activeSegment.map fun active =>
            if k < active then active - 1 else active } : BlobStore).blocks b =
          { s.blocks b with segmentFd := ((s.deleteFile gone.fd).blocks b).segmentFd } := block
      rw [same]
      rcases inv.blocks b p member with inside | clear
      · exact .inl (inside.with_fd _)
      · exact .inr clear

end Remove

end AttentionDB
