import AttentionDB.Storage.SegmentRows

/-!
# The counts of the segments

Each segment counts its entries and those of them that are live. A write of a
store with one writer adds one to both counts of the segment whose id it
returns, because the active block always lies in the active segment; `mark_dead`
takes one from the live count of the segment that is named. What the counts
should be is a parameter here: two functions of the segment id.
-/

namespace AttentionDB.BlobStore

set_option autoImplicit false

def bump (count : Nat → Nat) (segmentId : Nat) : Nat → Nat :=
  fun id => count id + if id = segmentId then 1 else 0

@[simp] theorem bump_self (count : Nat → Nat) (segmentId : Nat) :
    bump count segmentId segmentId = count segmentId + 1 := by
  simp [bump]

theorem bump_other (count : Nat → Nat) {id segmentId : Nat} (other : id ≠ segmentId) :
    bump count segmentId id = count id := by
  simp [bump, other]

/-- The counts of all segments are the given ones, and every segment that has
an entry is there. A writer that sleeps has no active block. -/
structure Counts (s : BlobStore) (asleep : Bool) (live entries : Nat → Nat) : Prop where
  capacity : ∀ b, (s.blocks b).capacity = blockCapacity s.config
  active : asleep = false → ∀ b, s.activeBlock = some b →
    ∃ seg, s.currentSegment = some seg ∧ seg.id = (s.blocks b).segmentId
  distinct : (s.segments.map (·.id)).Nodup
  below : ∀ seg ∈ s.segments, seg.id < s.nextSegmentId
  known : ∀ id, 0 < entries id → ∃ seg ∈ s.segments, seg.id = id
  liveCounts : ∀ seg ∈ s.segments, seg.liveCount = live seg.id
  entryCounts : ∀ seg ∈ s.segments, seg.entryCount = entries seg.id
  bounded : ∀ id, live id ≤ entries id

section Steps

variable {s after : BlobStore} {asleep : Bool} {live entries : Nat → Nat} {b active : Nat}
  {io : SegmentIo} {seg : SegmentInfo} {request : WriteRequest}

theorem Counts.flush_step (counts : Counts s asleep live entries) {flush pc : FlushPc}
    {step : FlushStep} (moved : s.flushStep flush step = some (pc, after)) :
    Counts after asleep live entries := by
  obtain ⟨blocks, config, segments, active, activeBlock⟩ := flush_step_frame moved
  have next := flush_step_next moved
  constructor
  · rw [blocks, config]
    exact counts.capacity
  · rw [activeBlock, blocks, currentSegment, active, segments]
    exact counts.active
  · rw [segments]
    exact counts.distinct
  · rw [segments, next]
    exact counts.below
  · rw [segments]
    exact counts.known
  · rw [segments]
    exact counts.liveCounts
  · rw [segments]
    exact counts.entryCounts
  · exact counts.bounded

/-- A writer goes to sleep, or a block of it joins the queue. -/
theorem Counts.sleeps (counts : Counts s asleep live entries) : Counts s true live entries :=
  { counts with active := by simp }

/-- The id of the next segment has no entries yet. -/
theorem Counts.next_empty (counts : Counts s asleep live entries) :
    entries s.nextSegmentId = 0 ∧ live s.nextSegmentId = 0 := by
  have empty : entries s.nextSegmentId = 0 := by
    by_contra used
    obtain ⟨seg, member, same⟩ := counts.known s.nextSegmentId (Nat.pos_of_ne_zero used)
    have older := counts.below seg member
    omega
  have bounded := counts.bounded s.nextSegmentId
  omega

theorem Counts.create (counts : Counts s true live entries) (room : s.nextSegmentId < 2 ^ 32) :
    Counts (s.createNewSegment io) true live entries := by
  have reduced : s.freshSegment.id = s.nextSegmentId := Nat.mod_eq_of_lt room
  obtain ⟨noEntries, noneLive⟩ := counts.next_empty
  have older : ∀ seg ∈ s.segments, seg ∈ (s.createNewSegment io).segments := by
    intro seg member
    cases opened : io.opened with
    | true =>
        rw [(create_opened s io opened).1]
        exact List.mem_append_left _ member
    | false =>
        rw [(create_refused s io opened).1]
        exact member
  constructor
  · simp only [create_blocks, create_config]
    exact counts.capacity
  · simp
  · cases opened : io.opened with
    | true =>
        rw [(create_opened s io opened).1, List.map_append, List.nodup_append]
        refine ⟨counts.distinct, by simp, ?_⟩
        intro id earlier other last same
        rw [List.map_singleton, List.mem_singleton] at last
        obtain ⟨seg, member, isId⟩ := List.mem_map.1 earlier
        have below := counts.below seg member
        omega
    | false =>
        rw [(create_refused s io opened).1]
        exact counts.distinct
  · intro seg member
    rw [create_next]
    rcases created_member member with earlier | rfl
    · have below := counts.below seg earlier
      omega
    · omega
  · intro id used
    obtain ⟨seg, member, same⟩ := counts.known id used
    exact ⟨seg, older seg member, same⟩
  · intro seg member
    rcases created_member member with earlier | rfl
    · exact counts.liveCounts seg earlier
    · rw [reduced, noneLive]
      rfl
  · intro seg member
    rcases created_member member with earlier | rfl
    · exact counts.entryCounts seg earlier
    · rw [reduced, noEntries]
      rfl
  · exact counts.bounded

theorem Counts.next_block (counts : Counts s true live entries) (b : Nat) (rest : List Nat)
    (room : (s.withNextBlock b rest io).nextSegmentId ≤ 2 ^ 32) :
    Counts (s.withNextBlock b rest io) true live entries := by
  have taken : Counts { s with freePool := rest, activeBlock := some b } true live entries :=
    { counts with
      capacity := counts.capacity
      active := by simp
      distinct := counts.distinct
      below := counts.below
      known := counts.known
      liveCounts := counts.liveCounts
      entryCounts := counts.entryCounts }
  unfold withNextBlock at room ⊢
  rcases segment_for_block_cases { s with freePool := rest, activeBlock := some b } b io with
    created | ⟨same, _⟩
  · rw [created] at room ⊢
    rw [create_next] at room
    exact taken.create (by omega)
  · rw [same]
    exact taken

/-- The block starts in the active segment. -/
theorem Counts.reset (counts : Counts s true live entries) (isActive : s.activeBlock = some b)
    (current : s.currentSegment = some seg) : Counts (s.resetBlock b seg) false live entries := by
  constructor
  · intro c
    rw [reset_block_capacity]
    exact counts.capacity c
  · intro _ c isBlock
    rw [reset_block_active_block, isActive] at isBlock
    cases isBlock
    rw [reset_block_block]
    exact ⟨seg, current, rfl⟩
  · exact counts.distinct
  · exact counts.below
  · exact counts.known
  · exact counts.liveCounts
  · exact counts.entryCounts
  · exact counts.bounded

/-- One more entry in the active segment, which is the one its location names. -/
theorem Counts.append (counts : Counts s false live entries) (isActive : s.activeBlock = some b)
    (current : s.activeSegment = some active)
    (room : entries (s.blocks b).segmentId + 1 < 2 ^ 32) :
    Counts (s.appended b active request) false (bump live (s.blocks b).segmentId)
      (bump entries (s.blocks b).segmentId) := by
  obtain ⟨seg, isSegment, sameId⟩ := counts.active rfl b isActive
  have found : s.segments[active]? = some seg := (current_segment_at s current).symm.trans isSegment
  have ids : ((s.appended b active request).segments.map (·.id)) = s.segments.map (·.id) :=
    modify_advance_ids s.segments active _
  -- a segment after the append, with its counts
  have lookup : ∀ other ∈ (s.appended b active request).segments, ∃ old ∈ s.segments,
      other.id = old.id ∧ other.liveCount = bump live (s.blocks b).segmentId old.id ∧
        other.entryCount = bump entries (s.blocks b).segmentId old.id := by
    intro other member
    obtain ⟨k, listed⟩ := List.mem_iff_getElem?.1 member
    obtain ⟨old, before, rfl⟩ := advanced_lookup.1 listed
    have inList := List.mem_of_getElem? before
    have liveBefore := counts.liveCounts old inList
    have entriesBefore := counts.entryCounts old inList
    refine ⟨old, inList, ?_⟩
    by_cases position : active = k
    · subst position
      rw [found] at before
      cases before
      have bounded := counts.bounded seg.id
      rw [if_pos rfl, ← sameId, bump_self, bump_self]
      rw [← sameId] at room
      refine ⟨rfl, ?_, ?_⟩
      · change (seg.liveCount + 1) % 2 ^ 32 = _
        rw [liveBefore, Nat.mod_eq_of_lt (by omega)]
      · change (seg.entryCount + 1) % 2 ^ 32 = _
        rw [entriesBefore, Nat.mod_eq_of_lt room]
    · have other : old.id ≠ (s.blocks b).segmentId := by
        rw [← sameId]
        intro same
        exact position (same_position counts.distinct found before same.symm)
      rw [if_neg position, bump_other live other, bump_other entries other]
      exact ⟨rfl, liveBefore, entriesBefore⟩
  constructor
  · intro c
    rw [appended_capacity]
    exact counts.capacity c
  · intro _ c isBlock
    rw [appended_active_block, isActive] at isBlock
    cases isBlock
    refine ⟨seg.advance (entryDiskSize request.data.length), ?_, ?_⟩
    · exact appended_segment b request current found
    · rw [appended_block]
      exact sameId
  · rw [ids]
    exact counts.distinct
  · intro other member
    obtain ⟨old, listed, id, _, _⟩ := lookup other member
    rw [id]
    exact counts.below old listed
  · intro id used
    have before : ∃ old ∈ s.segments, old.id = id := by
      by_cases same : id = (s.blocks b).segmentId
      · exact ⟨seg, List.mem_of_getElem? found, sameId.trans same.symm⟩
      · rw [bump_other entries same] at used
        exact counts.known id used
    have listed : id ∈ (s.appended b active request).segments.map (·.id) := by
      rw [ids]
      exact List.mem_map.2 before
    exact List.mem_map.1 listed
  · intro other member
    obtain ⟨old, _, id, liveAfter, _⟩ := lookup other member
    rw [id, liveAfter]
  · intro other member
    obtain ⟨old, _, id, _, entriesAfter⟩ := lookup other member
    rw [id, entriesAfter]
  · intro id
    exact Nat.add_le_add_right (counts.bounded id) _

/-- What a section of `write` leaves of the counts, by the way it ends. -/
def CountsAfter (live entries : Nat → Nat) : WriteOutcome → BlobStore → Prop
  | .stored loc, after => loc.segmentId < 2 ^ 32 ∧
      Counts after false (bump live loc.segmentId) (bump entries loc.segmentId)
  | .waiting, after => Counts after true live entries
  | .direct, after => Counts after false live entries
  | .failed _, _ => True

/-- An entry of the active segment, with the id that its location has. -/
theorem Counts.stored (counts : Counts s false live entries) (isActive : s.activeBlock = some b)
    (current : s.activeSegment = some active) (segments : s.nextSegmentId ≤ 2 ^ 32)
    (room : entries (s.blocks b).segmentId + 1 < 2 ^ 32) :
    CountsAfter live entries (.stored (blockLocation (s.blocks b) request.data.length))
      (s.appended b active request) := by
  obtain ⟨seg, isSegment, sameId⟩ := counts.active rfl b isActive
  have below := counts.below seg (current_segment_member isSegment)
  refine ⟨?_, counts.append isActive current room⟩
  change (s.blocks b).segmentId < 2 ^ 32
  omega

theorem Counts.acquire (counts : Counts s true live entries) {outcome : WriteOutcome}
    (acquired : AcquireCases s request io outcome after) (segments : after.nextSegmentId ≤ 2 ^ 32)
    (room : ∀ loc, outcome = .stored loc → entries loc.segmentId + 1 < 2 ^ 32) :
    CountsAfter live entries outcome after := by
  cases acquired with
  | sleeps => exact counts
  | stopped | noSegment => exact trivial
  | appends c rest seg active free current found usable =>
      have isCurrent := current_segment_found current found
      have atStart := (counts.next_block c rest segments).reset (next_block_active_block s c io rest)
        isCurrent
      have isBlock : (((s.withNextBlock c rest io).resetBlock c seg).blocks c) =
          (s.blocks c).reset seg.id seg.writeOffset seg.fd := by
        simp
      have here := room _ rfl
      rw [← isBlock] at here ⊢
      exact atStart.stored (next_block_active_block s c io rest) current segments here

theorem Counts.enter (counts : Counts s false live entries) {outcome : WriteOutcome}
    (entered : EnterCases s request io outcome after) (segments : after.nextSegmentId ≤ 2 ^ 32)
    (room : ∀ loc, outcome = .stored loc → entries loc.segmentId + 1 < 2 ^ 32) :
    CountsAfter live entries outcome after := by
  cases entered with
  | refused => exact trivial
  | goesDirect => exact counts
  | rotates c isActive fits full short rest =>
      have asleep : Counts (s.queued c) true live entries :=
        { counts.sleeps with
          capacity := counts.capacity
          active := by simp
          distinct := counts.distinct
          below := counts.below
          known := counts.known
          liveCounts := counts.liveCounts
          entryCounts := counts.entryCounts }
      exact asleep.acquire rest segments room
  | appends c active isActive fits short current =>
      exact counts.stored isActive current segments (room _ rfl)

/-- One entry fewer in the live count of one segment. -/
theorem Counts.lowered {segmentId i : Nat} {change : SegmentInfo → SegmentInfo}
    (counts : Counts s asleep (bump live segmentId) entries) (found : s.segments[i]? = some seg)
    (named : seg.id = segmentId) (sameId : ∀ old, (change old).id = old.id)
    (fewer : (change seg).liveCount = seg.liveCount - 1)
    (sameEntries : (change seg).entryCount = seg.entryCount) :
    Counts { s with segments := s.segments.modify i change } asleep live entries := by
  have ids := modify_ids s.segments i sameId
  have lookup : ∀ other ∈ s.segments.modify i change, ∃ old ∈ s.segments, other.id = old.id ∧
      other.liveCount = live old.id ∧ other.entryCount = entries old.id := by
    intro other member
    obtain ⟨k, listed⟩ := List.mem_iff_getElem?.1 member
    obtain ⟨old, before, rfl⟩ := modify_lookup.1 listed
    have inList := List.mem_of_getElem? before
    have liveBefore := counts.liveCounts old inList
    have entriesBefore := counts.entryCounts old inList
    refine ⟨old, inList, ?_⟩
    by_cases position : i = k
    · subst position
      rw [found] at before
      cases before
      rw [named, bump_self] at liveBefore
      rw [if_pos rfl, sameId, fewer, sameEntries, liveBefore, named]
      exact ⟨rfl, rfl, named ▸ entriesBefore⟩
    · have other : old.id ≠ segmentId := by
        intro same
        exact position (same_position counts.distinct found before (named.trans same.symm))
      rw [bump_other live other] at liveBefore
      rw [if_neg position]
      exact ⟨rfl, liveBefore, entriesBefore⟩
  constructor
  · exact counts.capacity
  · intro awake b isBlock
    obtain ⟨active, isActive, same⟩ := counts.active awake b isBlock
    unfold currentSegment at isActive ⊢
    obtain ⟨k, isPosition, at_k⟩ := Option.bind_eq_some_iff.1 isActive
    refine ⟨if i = k then change active else active, ?_, ?_⟩
    · exact Option.bind_eq_some_iff.2 ⟨k, isPosition, modify_lookup.2 ⟨active, at_k, rfl⟩⟩
    · split
      · exact (sameId active).trans same
      · exact same
  · rw [ids]
    exact counts.distinct
  · intro other member
    obtain ⟨old, listed, id, _, _⟩ := lookup other member
    rw [id]
    exact counts.below old listed
  · intro id used
    have listed : id ∈ (s.segments.modify i change).map (·.id) := by
      rw [ids]
      exact List.mem_map.2 (counts.known id used)
    exact List.mem_map.1 listed
  · intro other member
    obtain ⟨old, _, id, isLive, _⟩ := lookup other member
    rw [id, isLive]
  · intro other member
    obtain ⟨old, _, id, _, isEntries⟩ := lookup other member
    rw [id, isEntries]
  · intro id
    have before := counts.bounded id
    unfold bump at before
    omega

theorem Counts.mark_dead {loc : BlobLocation}
    (counts : Counts s asleep (bump live loc.segmentId) entries) :
    Counts (s.markDead loc) asleep live entries := by
  unfold markDead
  split
  · rename_i missing
    have elsewhere : ∀ seg ∈ s.segments, seg.id ≠ loc.segmentId := by
      simpa [List.findIdx?_eq_none_iff] using missing
    refine { counts with liveCounts := ?_, bounded := ?_ }
    · intro seg member
      rw [counts.liveCounts seg member, bump_other live (elsewhere seg member)]
    · intro id
      have before := counts.bounded id
      unfold bump at before
      omega
  · rename_i i isFirst
    obtain ⟨inside, isNamed, _⟩ := List.findIdx?_eq_some_iff_getElem.1 isFirst
    have named : s.segments[i].id = loc.segmentId := by simpa using isNamed
    have found : s.segments[i]? = some s.segments[i] := List.getElem?_eq_getElem inside
    have alive : 0 < s.segments[i].liveCount := by
      rw [counts.liveCounts _ (List.getElem_mem inside), named, bump_self]
      omega
    apply counts.lowered found named
    · intro old
      split <;> rfl
    · rw [if_pos alive]
    · rw [if_pos alive]

end Steps

/-! ## Opening -/

/-- A store on an empty directory: one segment without entries. -/
theorem Counts.opened {config : NvmeStoreConfig} {files : Files} {openIo : OpenIo}
    (ok : (openStore config files openIo).1 = .kOk) (empty : openIo.listing = some []) :
    Counts (openStore config files openIo).2 false (fun _ => 0) (fun _ => 0) := by
  obtain ⟨listing, seg, b, rest, listed, current, _, same⟩ := open_store_cases ok
  rw [empty] at listed
  cases listed
  have constructedCounts : Counts (constructed config files) true (fun _ => 0) (fun _ => 0) := by
    constructor <;> simp [constructed]
  have created : Counts (withSegments config files [] openIo.segment) true (fun _ => 0) (fun _ => 0) :=
    constructedCounts.create (by simp [constructed])
  rw [same]
  have taken : Counts
      { withSegments config files [] openIo.segment with
        freePool := rest, activeBlock := some b, flushRunning := true }
      true (fun _ => 0) (fun _ => 0) :=
    { created with
      capacity := created.capacity
      active := by simp
      distinct := created.distinct
      below := created.below
      known := created.known
      liveCounts := created.liveCounts
      entryCounts := created.entryCounts }
  exact taken.reset rfl current

end AttentionDB.BlobStore
