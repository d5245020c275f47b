import AttentionDB.Storage.SegmentCounts
import AttentionDB.Storage.Shutdown

/-!
# The counts in the segment headers

`close` writes the counts of every segment into the header of its file, and the
scan of `open` takes them from there. A store that was closed and is opened
again has the counts that it had.
-/

namespace AttentionDB.BlobStore

open ByteMap

set_option autoImplicit false

/-- A file whose header `open` accepts and takes these counts from. -/
structure CountsOnFile (file : File) (entryCount liveCount : Nat) : Prop where
  size : kSegmentHeaderSize ≤ file.size
  magic : decodeLe (slice file.data 0 4) = kSegmentMagic
  entries : decodeLe (slice file.data 20 4) = entryCount
  live : decodeLe (slice file.data 24 4) = liveCount

/-! ## Writing the headers -/

section Headers

variable {files : Files} {seg : SegmentInfo} {io : SegmentIo} {id : Nat}

theorem decode_small (value : Nat) (small : value < 2 ^ 32) : decodeLe (encodeLe 4 value) = value := by
  rw [decode_encode_le]
  exact Nat.mod_eq_of_lt small

/-- The header in bytes, cut where `open` reads it. -/
theorem segment_header_parts (header : SegmentHeader) :
    (header.encode.drop 0).take 4 = encodeLe 4 kSegmentMagic ∧
      (header.encode.drop 20).take 4 = encodeLe 4 header.entryCount ∧
      (header.encode.drop 24).take 4 = encodeLe 4 header.liveCount := by
  have front : (encodeLe 4 kSegmentMagic ++ encodeLe 4 kSegmentVersion ++ encodeLe 4 header.segmentId ++
      encodeLe 8 header.createdAt).length = 20 := by simp
  have middle : (encodeLe 4 kSegmentMagic ++ encodeLe 4 kSegmentVersion ++
      encodeLe 4 header.segmentId ++ encodeLe 8 header.createdAt ++
        encodeLe 4 header.entryCount).length = 24 := by simp
  refine ⟨?_, ?_, ?_⟩
  · simp only [SegmentHeader.encode, List.append_assoc, List.drop_zero]
    rw [List.take_left' (encode_le_length 4 _)]
  · unfold SegmentHeader.encode
    rw [List.append_assoc, List.append_assoc, List.append_assoc, List.drop_left' front,
      List.take_left' (encode_le_length 4 _)]
  · unfold SegmentHeader.encode
    rw [List.append_assoc, List.append_assoc, List.drop_left' middle,
      List.take_left' (encode_le_length 4 _)]

theorem CountsOnFile.pwrite (file : File) (header : SegmentHeader)
    (entries : header.entryCount < 2 ^ 32) (live : header.liveCount < 2 ^ 32) :
    CountsOnFile (file.pwrite 0 header.encode) header.entryCount header.liveCount := by
  obtain ⟨magic, isEntries, isLive⟩ := segment_header_parts header
  have read : ∀ start, start + 4 ≤ kSegmentHeaderSize →
      slice (file.pwrite 0 header.encode).data start 4 = (header.encode.drop start).take 4 := by
    intro start inside
    have within := slice_patch_within file.data 0 header.encode start 4
      (by rw [segment_header_length]; exact inside)
    rw [Nat.zero_add] at within
    exact within
  constructor
  · have length := segment_header_length header
    have size : (file.pwrite 0 header.encode).size = max file.size (0 + header.encode.length) := rfl
    rw [size, length, Nat.zero_add]
    exact Nat.le_max_right _ _
  · rw [read 0 (by decide), magic]
    rfl
  · rw [read 20 (by decide), isEntries]
    exact decode_small _ entries
  · rw [read 24 (by decide), isLive]
    exact decode_small _ live

theorem header_written (named : seg.fd = some (.canonical seg.id)) (complete : io.header = .complete)
    (entries : seg.entryCount < 2 ^ 32) (live : seg.liveCount < 2 ^ 32) :
    CountsOnFile (writeSegmentHeader files seg io (.canonical seg.id)) seg.entryCount
      seg.liveCount := by
  simp only [writeSegmentHeader, complete, named, syncWrite, Function.update_self]
  exact CountsOnFile.pwrite _ _ entries live

theorem header_elsewhere (named : seg.fd = some (.canonical seg.id)) (other : id ≠ seg.id) :
    writeSegmentHeader files seg io (.canonical id) = files (.canonical id) := by
  have different : SegmentPath.canonical id ≠ .canonical seg.id := by
    intro same
    cases same
    exact other rfl
  unfold writeSegmentHeader
  rw [named]
  cases io.header <;> exact Function.update_of_ne different _ _

/-- Each header is written once, so the last header of a file is its own. -/
theorem headers_written {headers : Nat → SegmentIo} (complete : ∀ i, (headers i).header = .complete)
    (pairs : List (SegmentInfo × Nat)) (files : Files)
    (named : ∀ pair ∈ pairs, pair.1.fd = some (.canonical pair.1.id))
    (distinct : (pairs.map (·.1.id)).Nodup)
    (small : ∀ pair ∈ pairs, pair.1.entryCount < 2 ^ 32 ∧ pair.1.liveCount < 2 ^ 32) :
    (∀ pair ∈ pairs, CountsOnFile
      (pairs.foldl (fun files pair => writeSegmentHeader files pair.1 (headers pair.2)) files
        (.canonical pair.1.id)) pair.1.entryCount pair.1.liveCount) ∧
    ∀ id, id ∉ pairs.map (·.1.id) →
      pairs.foldl (fun files pair => writeSegmentHeader files pair.1 (headers pair.2)) files
        (.canonical id) = files (.canonical id) := by
  induction pairs generalizing files with
  | nil => simp
  | cons first pairs ih =>
      have namedFirst := named first List.mem_cons_self
      obtain ⟨smallEntries, smallLive⟩ := small first List.mem_cons_self
      rw [List.map_cons, List.nodup_cons] at distinct
      obtain ⟨written, elsewhere⟩ := ih (writeSegmentHeader files first.1 (headers first.2))
        (fun pair member => named pair (List.mem_cons_of_mem _ member)) distinct.2
        (fun pair member => small pair (List.mem_cons_of_mem _ member))
      simp only [List.foldl_cons]
      constructor
      · intro pair member
        rcases List.mem_cons.1 member with rfl | later
        · rw [elsewhere _ distinct.1]
          exact header_written namedFirst (complete _) smallEntries smallLive
        · exact written pair later
      · intro id missing
        rw [List.map_cons, List.mem_cons, not_or] at missing
        rw [elsewhere id missing.2]
        exact header_elsewhere namedFirst missing.1

end Headers

/-! ## Closing -/

section Closing

variable {s after : BlobStore} {flush pc : FlushPc}

theorem flush_steps_segments {steps : List FlushStep}
    (ran : s.flushSteps flush steps = some (pc, after)) : after.segments = s.segments := by
  induction steps generalizing s flush with
  | nil =>
      cases ran
      rfl
  | cons step steps ih =>
      unfold flushSteps at ran
      split at ran
      · contradiction
      · rename_i middle store moved
        rw [ih ran]
        exact (flush_step_active moved).2.2.1

/-- A closed store has the counts of each segment in the header of its file. -/
theorem closed_counts {io : CloseIo} (ran : s.close flush io = some after)
    (complete : ∀ i, (io.headers i).header = .complete)
    (named : ∀ seg ∈ s.segments, seg.fd = some (.canonical seg.id))
    (distinct : (s.segments.map (·.id)).Nodup)
    (small : ∀ seg ∈ s.segments, seg.entryCount < 2 ^ 32 ∧ seg.liveCount < 2 ^ 32) :
    after.segmentIds = s.segmentIds ∧ ∀ seg ∈ s.segments,
      CountsOnFile (after.files (.canonical seg.id)) seg.entryCount seg.liveCount := by
  unfold close at ran
  rw [Option.map_eq_some_iff] at ran
  obtain ⟨drained, ran, rfl⟩ := ran
  have segments : drained.segments = s.segments := by
    rw [flush_steps_segments (drain_flush_steps ran).1]
    exact (retire_segments s).1
  have parts : (s.segments.zipIdx.map (·.1.id)) = s.segments.map (·.id) := by
    have split : s.segments.zipIdx.map (·.1.id) = (s.segments.zipIdx.map Prod.fst).map (·.id) := by
      rw [List.map_map]
      rfl
    rw [split, List.zipIdx_map_fst]
  have member : ∀ pair ∈ s.segments.zipIdx, pair.1 ∈ s.segments := fun pair inside =>
    List.fst_mem_of_mem_zipIdx inside
  obtain ⟨written, _⟩ := headers_written complete s.segments.zipIdx drained.files
    (fun pair inside => named _ (member pair inside)) (by rw [parts]; exact distinct)
    (fun pair inside => small _ (member pair inside))
  constructor
  · simp [segmentIds, closeSegments, segments, Function.comp_def]
  · intro seg inside
    obtain ⟨i, found⟩ := List.mem_iff_getElem?.1 inside
    have pair : (seg, i) ∈ s.segments.zipIdx := List.mk_mem_zipIdx_iff_getElem?.2 found
    have here := written (seg, i) pair
    rw [closeSegments, segments]
    exact here

end Closing

/-! ## Opening again -/

section Opening

variable {config : NvmeStoreConfig} {files : Files} {openIo : OpenIo} {live entries : Nat → Nat}

/-- The first segment of a new life has no entries. -/
theorem Counts.opened_scan {listing : List ScanEntry}
    (ok : (openStore config files openIo).1 = .kOk) (listed : openIo.listing = some listing)
    (counts : Counts (listing.foldl scanSegment (constructed config files)) true live entries)
    (room : (openStore config files openIo).2.nextSegmentId ≤ 2 ^ 32) :
    Counts (openStore config files openIo).2 false live entries := by
  obtain ⟨found, seg, b, rest, isListing, current, _, same⟩ := open_store_cases ok
  rw [listed] at isListing
  cases isListing
  rw [same] at room ⊢
  have next : (withSegments config files listing openIo.segment).nextSegmentId =
      (listing.foldl scanSegment (constructed config files)).nextSegmentId + 1 := create_next _ _
  have fewer : (withSegments config files listing openIo.segment).nextSegmentId ≤ 2 ^ 32 := room
  have created : Counts (withSegments config files listing openIo.segment) true live entries :=
    counts.create (by omega)
  have taken : Counts
      { withSegments config files listing openIo.segment with
        freePool := rest, activeBlock := some b, flushRunning := true }
      true live entries :=
    { created with
      capacity := created.capacity
      active := by simp
      distinct := created.distinct
      below := created.below
      known := created.known
      liveCounts := created.liveCounts
      entryCounts := created.entryCounts }
  exact taken.reset rfl current

/-- The scan takes the counts of each file from its header. -/
theorem scan_counts {listing : List ScanEntry} {ids : List Nat}
    (finds : List.Forall₂ FindsFile listing ids) (s : BlobStore)
    (headersRead : ∀ entry ∈ listing, entry.headerRead = true)
    (onFile : ∀ id ∈ ids, CountsOnFile (s.files (.canonical id)) (entries id) (live id))
    (small : ∀ id ∈ ids, id + 1 < 2 ^ 32) :
    s.nextSegmentId ≤ (listing.foldl scanSegment s).nextSegmentId ∧
      (∀ id ∈ ids, id < (listing.foldl scanSegment s).nextSegmentId) ∧
      ∃ found, (listing.foldl scanSegment s).segments = s.segments ++ found ∧
        found.map (·.id) = ids ∧
        ∀ seg ∈ found, seg.liveCount = live seg.id ∧ seg.entryCount = entries seg.id := by
  induction finds generalizing s with
  | nil => exact ⟨Nat.le_refl _, by simp, [], by simp, rfl, by simp⟩
  | @cons entry first listing ids finds rest ih =>
      have smallFirst := small first List.mem_cons_self
      have reduced : first % 2 ^ 32 = first := Nat.mod_eq_of_lt (by omega)
      have counted := onFile first List.mem_cons_self
      have valid : (entry.headerRead &&
          decide (kSegmentHeaderSize ≤ (s.files (.canonical first)).size) &&
          decide (decodeLe (slice (s.files (.canonical first)).data 0 4) = kSegmentMagic)) = true := by
        simp [headersRead entry List.mem_cons_self, counted.size, counted.magic]
      have added : ∃ seg : SegmentInfo, (s.scanSegment entry).segments =
          s.segments ++ [seg] ∧ seg.id = first ∧ seg.liveCount = live first ∧
            seg.entryCount = entries first := by
        unfold scanSegment
        dsimp only
        rw [if_pos finds.opened, finds.path]
        refine ⟨_, rfl, reduced, ?_, ?_⟩
        · exact (if_pos valid).trans counted.live
        · exact (if_pos valid).trans counted.entries
      obtain ⟨new, segments, newId, newLive, newEntries⟩ := added
      have next : (s.scanSegment entry).nextSegmentId = max s.nextSegmentId (first + 1) := by
        have wrapped : (s.scanSegment entry).nextSegmentId =
            max s.nextSegmentId ((first % 2 ^ 32 + 1) % 2 ^ 32) := by
          unfold scanSegment
          dsimp only
          rw [if_pos finds.opened, finds.path]
          rfl
        rw [wrapped, reduced, Nat.mod_eq_of_lt smallFirst]
      have sameFiles : (s.scanSegment entry).files = s.files := (scan_frame [entry] s).2.2.1
      obtain ⟨grown, below, found, all, ids', counts⟩ := ih (s.scanSegment entry)
        (fun entry member => headersRead entry (List.mem_cons_of_mem _ member))
        (fun id member => by rw [sameFiles]; exact onFile id (List.mem_cons_of_mem _ member))
        (fun id member => small id (List.mem_cons_of_mem _ member))
      rw [List.foldl_cons]
      rw [next] at grown
      refine ⟨Nat.le_trans (Nat.le_max_left _ _) grown, ?_, new :: found, ?_, ?_, ?_⟩
      · intro id member
        rcases List.mem_cons.1 member with rfl | later
        · have bound := Nat.le_trans (Nat.le_max_right _ _) grown
          omega
        · exact below id later
      · rw [all, segments, List.append_assoc, List.singleton_append]
      · rw [List.map_cons, newId, ids']
      · intro seg member
        rcases List.mem_cons.1 member with rfl | later
        · rw [newId]
          exact ⟨newLive, newEntries⟩
        · exact counts seg later

/-- A store opened on files with these counts has them. -/
theorem Counts.reopened {listing : List ScanEntry} {ids : List Nat}
    (ok : (openStore config files openIo).1 = .kOk) (listed : openIo.listing = some listing)
    (finds : List.Forall₂ FindsFile listing ids)
    (headersRead : ∀ entry ∈ listing, entry.headerRead = true) (distinct : ids.Nodup)
    (small : ∀ id ∈ ids, id + 1 < 2 ^ 32)
    (room : (openStore config files openIo).2.nextSegmentId ≤ 2 ^ 32)
    (onFile : ∀ id ∈ ids, CountsOnFile (files (.canonical id)) (entries id) (live id))
    (known : ∀ id, 0 < entries id → id ∈ ids) (bounded : ∀ id, live id ≤ entries id) :
    Counts (openStore config files openIo).2 false live entries := by
  apply Counts.opened_scan ok listed _ room
  obtain ⟨_, below, found, segments, isIds, counts⟩ :=
    scan_counts finds (constructed config files) headersRead onFile small
  have empty : (constructed config files).segments = [] := rfl
  rw [empty, List.nil_append] at segments
  obtain ⟨blocks, sameConfig, _⟩ := scan_frame listing (constructed config files)
  have idMember : ∀ seg ∈ found, seg.id ∈ ids := by
    intro seg member
    rw [← isIds]
    exact List.mem_map_of_mem member
  refine
    { capacity := ?_
      active := by simp
      distinct := by rw [segments, isIds]; exact distinct
      below := ?_
      known := ?_
      liveCounts := ?_
      entryCounts := ?_
      bounded }
  · intro b
    rw [blocks, sameConfig]
    rfl
  · intro seg member
    rw [segments] at member
    exact below seg.id (idMember seg member)
  · intro id used
    have listedId := known id used
    rw [← isIds, List.mem_map] at listedId
    rw [segments]
    exact listedId
  · intro seg member
    rw [segments] at member
    exact (counts seg member).1
  · intro seg member
    rw [segments] at member
    exact (counts seg member).2

end Opening

end AttentionDB.BlobStore
