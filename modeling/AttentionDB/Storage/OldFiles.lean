import AttentionDB.Storage.CountHeaders
import AttentionDB.Storage.PlacedBlobs
import AttentionDB.Storage.QuietSegments
import AttentionDB.Storage.ReadYourWrites
import AttentionDB.Storage.SegmentNames

/-!
# The files that `open` finds

Every block is written to a segment that the store created itself, and the ids
of those start above all that the scan of `open` has read from a name. So the
files of earlier processes are not written before `close`, which writes their
headers, and none of them is truncated for a new segment: this holds whatever
the I/O does, and while the GC thread removes segments. The one id it does not
hold for is the last one, since the id after it is zero again.
-/

namespace AttentionDB

open ByteMap GuardedRuns BlobStore

set_option autoImplicit false

/-- The files that the scan takes, those of them that it opens, and the id that
it leaves for the next segment. -/
structure Found where
  files : Files
  paths : List SegmentPath
  opened : List SegmentPath
  floor : Nat
  listed : ∀ path ∈ opened, path ∈ paths
  below : ∀ id, .canonical id ∈ paths → id < floor ∨ 2 ^ 32 - 1 ≤ id

namespace BlobStore

/-- The file of a segment that the store created, whether or not it could be opened. -/
def Created (s : BlobStore) (floor : Nat) (path : SegmentPath) : Prop :=
  ∃ id, floor ≤ id ∧ id < s.nextSegmentId ∧ path = .canonical id

def activeFd (s : BlobStore) : Option SegmentPath := s.currentSegment.bind (·.fd)

structure OldFiles (found : Found) (s : BlobStore) : Prop where
  room : s.nextSegmentId < 2 ^ 32
  floor : found.floor ≤ s.nextSegmentId
  blocks : ∀ b path, (s.blocks b).segmentFd = some path → s.Created found.floor path
  active : ∀ path, s.activeFd = some path → s.Created found.floor path
  known : ∀ fd ∈ s.segments.map (·.fd), ∃ path, fd = some path ∧
    (path ∈ found.opened ∨ s.Created found.floor path)
  distinct : (s.segments.map (·.fd)).Nodup
  kept : ∀ path ∈ found.paths,
    s.files path = found.files path ∨ path ∈ found.opened ∧ some path ∉ s.segments.map (·.fd)

section Steps

variable {found : Found} {s after : BlobStore} {b active : Nat} {io : SegmentIo} {seg : SegmentInfo}
  {request : WriteRequest} {outcome : WriteOutcome} {path : SegmentPath}

theorem OldFiles.apart (old : OldFiles found s) (created : s.Created found.floor path) :
    path ∉ found.paths := by
  obtain ⟨id, above, below, rfl⟩ := created
  intro member
  have room := old.room
  rcases found.below id member with less | last
  · omega
  · omega

/-- No segment was created, and nothing was written to a file that was found. -/
theorem OldFiles.moved (old : OldFiles found s) (next : after.nextSegmentId = s.nextSegmentId)
    (blocks : ∀ b path, (after.blocks b).segmentFd = some path → s.Created found.floor path)
    (active : ∀ path, after.activeFd = some path → s.Created found.floor path)
    (fds : after.segments.map (·.fd) = s.segments.map (·.fd))
    (files : ∀ path ∈ found.paths, after.files path = s.files path) : OldFiles found after := by
  have created : after.Created found.floor = s.Created found.floor := by
    unfold Created
    rw [next]
  constructor
  · rw [next]
    exact old.room
  · rw [next]
    exact old.floor
  · rw [created]
    exact blocks
  · rw [created]
    exact active
  · rw [created, fds]
    exact old.known
  · rw [fds]
    exact old.distinct
  · intro path member
    rw [fds, files path member]
    exact old.kept path member

theorem active_fd_modify (segments : List SegmentInfo) (position : Option Nat) (i : Nat)
    {change : SegmentInfo → SegmentInfo} (same : ∀ seg, (change seg).fd = seg.fd) :
    (position.bind ((segments.modify i change)[·]?)).bind (·.fd) =
      (position.bind (segments[·]?)).bind (·.fd) := by
  cases position with
  | none => rfl
  | some k =>
      simp only [Option.bind_some, List.getElem?_modify]
      cases segments[k]? with
      | none => rfl
      | some seg =>
          by_cases here : i = k
          · simp [here, same]
          · simp [here]

theorem fds_modify (segments : List SegmentInfo) (i : Nat) {change : SegmentInfo → SegmentInfo}
    (same : ∀ seg, (change seg).fd = seg.fd) :
    (segments.modify i change).map (·.fd) = segments.map (·.fd) := by
  apply List.ext_getElem?
  intro k
  rw [List.getElem?_map, List.getElem?_map, List.getElem?_modify]
  cases segments[k]? with
  | none => rfl
  | some seg =>
      by_cases here : i = k
      · simp [here, same]
      · simp [here]

/-- A segment of the store was changed, but not its file. -/
theorem OldFiles.modify (old : OldFiles found s) (i : Nat) {change : SegmentInfo → SegmentInfo}
    (same : ∀ seg, (change seg).fd = seg.fd) :
    OldFiles found { s with segments := s.segments.modify i change } := by
  refine old.moved rfl old.blocks ?_ (fds_modify s.segments i same) fun _ _ => rfl
  intro path isActive
  apply old.active path
  rw [← isActive]
  exact (active_fd_modify s.segments s.activeSegment i same).symm

theorem OldFiles.create (old : OldFiles found s)
    (room : (s.createNewSegment io).nextSegmentId < 2 ^ 32) :
    OldFiles found (s.createNewSegment io) := by
  have next := create_next s io
  have reduced : s.freshSegment.id = s.nextSegmentId := Nat.mod_eq_of_lt old.room
  have floor := old.floor
  have grown : ∀ path, s.Created found.floor path →
      (s.createNewSegment io).Created found.floor path := by
    rintro path ⟨id, above, below, rfl⟩
    exact ⟨id, above, by omega, rfl⟩
  have fresh : (s.createNewSegment io).Created found.floor (.canonical s.nextSegmentId) :=
    ⟨_, floor, by omega, rfl⟩
  have freshFd : s.freshSegment.fd = some (.canonical s.nextSegmentId) := by
    rw [← reduced]
    rfl
  have notFound : .canonical s.nextSegmentId ∉ found.paths := by
    intro member
    rcases found.below _ member with less | last
    · omega
    · omega
  have member : ∀ fd ∈ (s.createNewSegment io).segments.map (·.fd),
      fd ∈ s.segments.map (·.fd) ∨ fd = some (.canonical s.nextSegmentId) := by
    intro fd inside
    obtain ⟨seg, created, rfl⟩ := List.mem_map.1 inside
    rcases created_member created with earlier | rfl
    · exact .inl (List.mem_map_of_mem earlier)
    · exact .inr freshFd
  have unknown : some (.canonical s.nextSegmentId) ∉ s.segments.map (·.fd) := by
    intro known
    obtain ⟨path, same, isFound | ⟨id, _, below, rfl⟩⟩ := old.known _ known
    · cases same
      exact notFound (found.listed _ isFound)
    · cases same
      omega
  constructor
  · exact room
  · omega
  · intro b path fd
    rw [create_blocks] at fd
    exact grown path (old.blocks b path fd)
  · intro path isActive
    obtain ⟨seg, current, fd⟩ := Option.bind_eq_some_iff.1 isActive
    rw [created_current current, freshFd] at fd
    cases fd
    exact fresh
  · intro fd inside
    rcases member fd inside with earlier | rfl
    · obtain ⟨path, same, isFound | created⟩ := old.known fd earlier
      · exact ⟨path, same, .inl isFound⟩
      · exact ⟨path, same, .inr (grown path created)⟩
    · exact ⟨_, rfl, .inr fresh⟩
  · cases opened : io.opened with
    | true =>
        rw [(create_opened s io opened).1, List.map_append, List.map_singleton, freshFd]
        exact List.nodup_append.2 ⟨old.distinct, List.nodup_singleton _, by
          rintro fd inside other last rfl
          rw [List.mem_singleton] at last
          subst last
          exact unknown inside⟩
    | false =>
        rw [(create_refused s io opened).1]
        exact old.distinct
  · intro path isFound
    have sameFile : (s.createNewSegment io).files path = s.files path := by
      cases opened : io.opened with
      | true =>
          apply created_files opened
          rintro rfl
          rw [reduced] at isFound
          exact notFound isFound
      | false => simp [createNewSegment, opened]
    rw [sameFile]
    rcases old.kept path isFound with kept | ⟨opened, gone⟩
    · exact .inl kept
    · right
      refine ⟨opened, ?_⟩
      intro inside
      rcases member _ inside with earlier | new
      · exact gone earlier
      · cases new
        exact notFound isFound

/-- The active block starts in the active segment. -/
theorem OldFiles.reset (old : OldFiles found s) (current : s.currentSegment = some seg) :
    OldFiles found (s.resetBlock b seg) := by
  refine old.moved rfl ?_ old.active rfl fun _ _ => rfl
  intro other path fd
  by_cases same : other = b
  · subst same
    rw [reset_block_block] at fd
    apply old.active path
    rw [activeFd, current]
    exact fd
  · rw [reset_block_other s b seg same] at fd
    exact old.blocks other path fd

theorem OldFiles.append (old : OldFiles found s) : OldFiles found (s.appended b active request) := by
  have advanced := old.modify active fun seg => advance_fd seg (entryDiskSize request.data.length)
  refine advanced.moved rfl ?_ advanced.active rfl fun _ _ => rfl
  intro other path fd
  by_cases same : other = b
  · subst same
    rw [appended_block] at fd
    exact old.blocks other path fd
  · rw [appended_other s b active request same] at fd
    exact old.blocks other path fd

/-- Only the block lists changed. -/
theorem OldFiles.same (old : OldFiles found s) (blocks : after.blocks = s.blocks)
    (segments : after.segments = s.segments) (active : after.activeSegment = s.activeSegment)
    (next : after.nextSegmentId = s.nextSegmentId) (files : after.files = s.files) :
    OldFiles found after := by
  refine old.moved next ?_ ?_ (by rw [segments]) fun _ _ => by rw [files]
  · rw [blocks]
    exact old.blocks
  · rw [activeFd, currentSegment, segments, active]
    exact old.active

theorem OldFiles.next_block (old : OldFiles found s) {rest : List Nat}
    (room : (s.withNextBlock b rest io).nextSegmentId < 2 ^ 32) :
    OldFiles found (s.withNextBlock b rest io) := by
  have taken : OldFiles found { s with freePool := rest, activeBlock := some b } :=
    old.same rfl rfl rfl rfl rfl
  unfold withNextBlock at room ⊢
  rcases segment_for_block_cases { s with freePool := rest, activeBlock := some b } b io with
    created | ⟨stays, _⟩
  · rw [created] at room ⊢
    exact taken.create room
  · rw [stays]
    exact taken

theorem OldFiles.acquire (old : OldFiles found s) (cases : AcquireCases s request io outcome after)
    (room : after.nextSegmentId < 2 ^ 32) : OldFiles found after := by
  cases cases with
  | sleeps => exact old
  | stopped => exact old.same rfl rfl rfl rfl rfl
  | noSegment b rest => exact old.next_block room
  | appends b rest seg active free current isSegment usable =>
      exact ((old.next_block room).reset (current_segment_found current isSegment)).append

theorem OldFiles.enter (old : OldFiles found s) (cases : EnterCases s request io outcome after)
    (room : after.nextSegmentId < 2 ^ 32) : OldFiles found after := by
  cases cases with
  | refused | goesDirect => exact old
  | rotates b isActive fits full short rest =>
      have queued : OldFiles found (s.queued b) := old.same rfl rfl rfl rfl rfl
      exact queued.acquire rest room
  | appends => exact old.append

/-- The thread writes to a file that the store created. -/
theorem OldFiles.write (old : OldFiles found s) {fd : Option SegmentPath} {bytes : List UInt8}
    {offset : Nat} {result : IoResult} (own : ∀ path, fd = some path → s.Created found.floor path) :
    OldFiles found { s with files := (syncWrite s.files fd bytes offset result).2 } := by
  refine old.moved rfl old.blocks old.active rfl ?_
  intro path isFound
  apply sync_write_other
  rintro rfl
  exact old.apart (own path rfl) isFound

theorem OldFiles.direct (old : OldFiles found s) {result : IoResult}
    (ran : s.writeDirect request io result = some (outcome, after))
    (room : after.nextSegmentId < 2 ^ 32) : OldFiles found after := by
  obtain ⟨active, seg, base, isBase, current, isSegment, files, ends⟩ := write_direct_files ran
  have next : base.nextSegmentId = after.nextSegmentId := by
    rcases ends with ⟨_, same⟩ | ⟨_, _, same⟩ <;> rw [same]
  have sought : OldFiles found base := by
    rcases segment_for_entry_cases s io (entryDiskSize request.data.length) with created | ⟨stays, _⟩
    · rw [created] at isBase
      rw [isBase]
      apply old.create
      rw [← isBase, next]
      exact room
    · rw [isBase, stays]
      exact old
  have isActive : base.activeFd = seg.fd := by
    rw [activeFd, current_segment_found current isSegment]
    rfl
  have written : OldFiles found { base with files := after.files } := by
    rw [files]
    exact sought.write fun path fd => sought.active path (isActive.trans fd)
  rcases ends with ⟨_, same⟩ | ⟨_, _, same⟩
  · rw [same]
    exact written.same rfl rfl rfl rfl rfl
  · have advanced := written.modify active fun seg =>
      advance_fd seg (entryDiskSize request.data.length)
    rw [same]
    exact advanced.same rfl rfl rfl rfl rfl

theorem OldFiles.flush_step (old : OldFiles found s) {flush pc : FlushPc} {step : FlushStep}
    (moved : s.flushStep flush step = some (pc, after)) : OldFiles found after := by
  unfold flushStep at moved
  split at moved
  · unfold flushPop at moved
    split at moved
    · contradiction
    · split at moved
      · cases moved
        exact old.same rfl rfl rfl rfl rfl
      · cases moved
        exact old.same rfl rfl rfl rfl rfl
  · cases moved
    exact old.write fun path fd => old.blocks _ path fd
  · cases moved
    exact old.same rfl rfl rfl rfl rfl
  · contradiction

theorem OldFiles.mark_dead (old : OldFiles found s) (loc : BlobLocation) :
    OldFiles found (s.markDead loc) := by
  rcases mark_dead_cases s loc with same | ⟨i, change, marked, _, fds, _⟩
  · rw [same]
    exact old
  · rw [marked]
    exact old.modify i fds

/-- The GC thread deletes the file with its segment. -/
theorem OldFiles.remove (old : OldFiles found s) {segmentId : Nat}
    (ran : s.gcRemove segmentId = some after) : OldFiles found after := by
  rcases gc_remove_cases ran with ⟨rfl, _⟩ | ⟨k, gone, isGone, _, notActive, isAfter⟩
  · exact old
  · have next : after.nextSegmentId = s.nextSegmentId := by rw [isAfter, delete_file_next]
    have segments : after.segments = s.segments.eraseIdx k := by rw [isAfter]
    have current : after.currentSegment = s.currentSegment := by
      rw [isAfter]
      exact erased_current notActive
    have created : after.Created found.floor = s.Created found.floor := by
      unfold Created
      rw [next]
    have left : (after.segments.map (·.fd)).Sublist (s.segments.map (·.fd)) := by
      rw [segments]
      exact (List.eraseIdx_sublist s.segments k).map _
    constructor
    · rw [next]
      exact old.room
    · rw [next]
      exact old.floor
    · intro b path fd
      rw [created]
      rw [isAfter] at fd
      exact old.blocks b path (((delete_file_block gone.fd b).2 path).1 fd).1
    · rw [created, activeFd, current]
      exact old.active
    · intro fd member
      rw [created]
      exact old.known fd (left.subset member)
    · exact old.distinct.sublist left
    · intro path isFound
      by_cases deleted : gone.fd = some path
      · -- no other segment has the file
        right
        have wasOpened : path ∈ found.opened := by
          have known : gone.fd ∈ s.segments.map (·.fd) :=
            List.mem_map_of_mem (List.mem_of_getElem? isGone)
          obtain ⟨other, same, isOld | created⟩ := old.known gone.fd known
          · rw [deleted] at same
            cases same
            exact isOld
          · rw [deleted] at same
            cases same
            exact absurd isFound (old.apart created)
        refine ⟨wasOpened, ?_⟩
        intro member
        rw [segments] at member
        obtain ⟨seg, inside, fd⟩ := List.mem_map.1 member
        obtain ⟨i, other, isSeg⟩ := List.mem_eraseIdx_iff_getElem?.1 inside
        have within : i < (s.segments.map (·.fd)).length := by
          rw [List.length_map]
          exact (List.getElem?_eq_some_iff.1 isSeg).1
        apply other
        apply (List.getElem?_inj within old.distinct).1
        rw [List.getElem?_map, List.getElem?_map, isSeg, isGone, Option.map_some, Option.map_some, fd,
          deleted]
      · have sameFile : after.files path = s.files path := by
          rw [isAfter]
          cases fd : gone.fd with
          | none => rfl
          | some file =>
              apply Function.update_of_ne
              rintro rfl
              exact deleted fd
        rw [sameFile]
        rcases old.kept path isFound with kept | ⟨opened, missing⟩
        · exact .inl kept
        · exact .inr ⟨opened, fun member => missing (left.subset member)⟩

end Steps

/-! ## Opening -/

section Opening

variable {config : NvmeStoreConfig} {files : Files} {io : OpenIo} {s : BlobStore}

theorem scan_segments_found (listing : List ScanEntry) (s : BlobStore) :
    (listing.foldl scanSegment s).segments.map (·.fd) =
        s.segments.map (·.fd) ++ (listing.filter (·.opened)).map (fun entry => some entry.path) ∧
      (listing.foldl scanSegment s).activeSegment = s.activeSegment ∧
      s.nextSegmentId ≤ (listing.foldl scanSegment s).nextSegmentId ∧
      ∀ entry ∈ listing, entry.path.parsedId < 2 ^ 32 - 1 →
        entry.path.parsedId < (listing.foldl scanSegment s).nextSegmentId := by
  induction listing generalizing s with
  | nil => simp
  | cons entry listing ih =>
      obtain ⟨fds, active, grown, below⟩ := ih (s.scanSegment entry)
      have next : (s.scanSegment entry).nextSegmentId =
          max s.nextSegmentId ((entry.path.parsedId % 2 ^ 32 + 1) % 2 ^ 32) := by
        unfold scanSegment
        dsimp only
        split_ifs <;> rfl
      have sameActive : (s.scanSegment entry).activeSegment = s.activeSegment := by
        unfold scanSegment
        dsimp only
        split_ifs <;> rfl
      have newFds : (s.scanSegment entry).segments.map (·.fd) = s.segments.map (·.fd) ++
          ([entry].filter (·.opened)).map fun entry => some entry.path := by
        unfold scanSegment
        dsimp only
        split_ifs with opened <;> simp [opened]
      rw [List.foldl_cons]
      rw [next] at grown
      refine ⟨?_, active.trans sameActive, Nat.le_trans (Nat.le_max_left _ _) grown, ?_⟩
      · rw [fds, newFds, List.append_assoc, ← List.map_append, ← List.filter_append]
        rfl
      · intro other member small
        rcases List.mem_cons.1 member with rfl | later
        · have reduced := Nat.le_trans (Nat.le_max_right _ _) grown
          rw [Nat.mod_eq_of_lt (by omega : other.path.parsedId < 2 ^ 32),
            Nat.mod_eq_of_lt (by omega)] at reduced
          omega
        · exact below other later small

def scanned (config : NvmeStoreConfig) (files : Files) (dirs : List (List DirectoryFile)) : Found where
  files := files
  paths := (scanListing dirs).map (·.path)
  opened := ((scanListing dirs).filter (·.opened)).map (·.path)
  listed path member := by
    obtain ⟨entry, isOpened, isPath⟩ := List.mem_map.1 member
    exact List.mem_map.2 ⟨entry, List.mem_of_mem_filter isOpened, isPath⟩
  floor := ((scanListing dirs).foldl scanSegment (constructed config files)).nextSegmentId
  below id member := by
    obtain ⟨entry, listed, isPath⟩ := List.mem_map.1 member
    have below := (scan_segments_found (scanListing dirs) (constructed config files)).2.2.2 entry listed
    rw [isPath] at below
    change id < 2 ^ 32 - 1 → id < _ at below
    by_cases small : id < 2 ^ 32 - 1
    · exact .inl (below small)
    · exact .inr (Nat.le_of_not_lt small)

variable {dirs : List (List DirectoryFile)}

theorem OldFiles.scanned (distinct : ∀ dir ∈ dirs, (dir.map (·.name)).Nodup)
    (room : (scanned config files dirs).floor < 2 ^ 32) :
    OldFiles (scanned config files dirs)
      ((scanListing dirs).foldl scanSegment (constructed config files)) := by
  obtain ⟨fds, active, _⟩ := scan_segments_found (scanListing dirs) (constructed config files)
  obtain ⟨blocks, _, sameFiles, _⟩ := scan_frame (scanListing dirs) (constructed config files)
  have none : (constructed config files).segments.map (·.fd) = [] := rfl
  rw [none, List.nil_append] at fds
  have inactive : (constructed config files).activeSegment = Option.none := rfl
  constructor
  · exact room
  · exact Nat.le_refl _
  · intro b path fd
    rw [blocks] at fd
    cases fd
  · intro path isActive
    rw [activeFd, currentSegment, active, inactive] at isActive
    cases isActive
  · intro fd member
    rw [fds, List.mem_map] at member
    obtain ⟨entry, listed, rfl⟩ := member
    exact ⟨entry.path, rfl, .inl (List.mem_map_of_mem listed)⟩
  · have paths := scan_paths_nodup distinct
    have some : ((scanListing dirs).map fun entry => Option.some entry.path).Nodup := by
      have composed := paths.map (Option.some_injective SegmentPath)
      rwa [List.map_map] at composed
    rw [fds]
    exact some.sublist (List.filter_sublist.map _)
  · intro path _
    rw [sameFiles]
    exact .inl rfl

theorem OldFiles.opened (distinct : ∀ dir ∈ dirs, (dir.map (·.name)).Nodup)
    (listed : io.listing = some (scanListing dirs)) (ok : (openStore config files io).1 = .kOk)
    (room : (openStore config files io).2.nextSegmentId < 2 ^ 32) :
    OldFiles (BlobStore.scanned config files dirs) (openStore config files io).2 := by
  obtain ⟨listing, seg, b, rest, isListing, current, _, same⟩ := open_store_cases ok
  rw [listed] at isListing
  cases isListing
  rw [same] at room ⊢
  have next : (withSegments config files (scanListing dirs) io.segment).nextSegmentId =
      (BlobStore.scanned config files dirs).floor + 1 := create_next _ _
  have fewer : (withSegments config files (scanListing dirs) io.segment).nextSegmentId < 2 ^ 32 := room
  have created : OldFiles (BlobStore.scanned config files dirs)
      (withSegments config files (scanListing dirs) io.segment) :=
    (OldFiles.scanned distinct (by omega)).create fewer
  have started : OldFiles (BlobStore.scanned config files dirs)
      ((withSegments config files (scanListing dirs) io.segment).resetBlock b seg) :=
    created.reset current
  exact started.same rfl rfl rfl rfl rfl

end Opening

/-! ## Closing -/

section Closing

variable {found : Found} {s after : BlobStore} {flush pc : FlushPc}

theorem OldFiles.flush_steps {steps : List FlushStep} (old : OldFiles found s)
    (ran : s.flushSteps flush steps = some (pc, after)) : OldFiles found after := by
  induction steps generalizing s flush with
  | nil =>
      cases ran
      exact old
  | cons step steps ih =>
      unfold flushSteps at ran
      split at ran
      · contradiction
      · rename_i middle store moved
        exact ih (old.flush_step moved) ran

/-- A header leaves what is behind the first block of the file. -/
theorem header_beyond (files : Files) (seg : SegmentInfo) (io : SegmentIo) (path : SegmentPath)
    {offset : Nat} (beyond : kSegmentHeaderSize ≤ offset) :
    (writeSegmentHeader files seg io path).data offset = (files path).data offset := by
  unfold writeSegmentHeader
  rcases sync_write_file files seg.fd _ 0 io.header path with same | ⟨_, count, written⟩
  · rw [same]
  · rw [written]
    change patch (files path).data 0 _ offset = _
    refine patch_outside _ _ _ _ (.inr ?_)
    rw [List.length_take, segment_header_length]
    omega

theorem headers_beyond (headers : Nat → SegmentIo) (pairs : List (SegmentInfo × Nat)) (files : Files)
    (path : SegmentPath) {offset : Nat} (beyond : kSegmentHeaderSize ≤ offset) :
    (pairs.foldl (fun files pair => writeSegmentHeader files pair.1 (headers pair.2)) files
      path).data offset = (files path).data offset := by
  induction pairs generalizing files with
  | nil => rfl
  | cons pair pairs ih => rw [List.foldl_cons, ih, header_beyond _ _ _ _ beyond]

/-- `close` only writes the headers of the files that were found. -/
theorem OldFiles.closed (old : OldFiles found s) {io : CloseIo} {path : SegmentPath}
    (ran : s.close flush io = some after) (isFound : path ∈ found.paths)
    (present : some path ∈ s.segments.map (·.fd)) {offset : Nat}
    (beyond : kSegmentHeaderSize ≤ offset) :
    (after.files path).data offset = (found.files path).data offset := by
  unfold close at ran
  rw [Option.map_eq_some_iff] at ran
  obtain ⟨drained, ran, rfl⟩ := ran
  have retired : OldFiles found { s.retireActive with flushRunning := false } := by
    unfold retireActive
    split
    · exact old.same rfl rfl rfl rfl rfl
    · split
      · exact old.same rfl rfl rfl rfl rfl
      · exact old.same rfl rfl rfl rfl rfl
  have steps := (drain_flush_steps ran).1
  have still : drained.segments = s.segments := by
    rw [flush_steps_segments steps]
    exact (retire_segments s).1
  have kept := (retired.flush_steps steps).kept path isFound
  rw [still] at kept
  rcases kept with same | ⟨_, gone⟩
  · rw [closeSegments, headers_beyond _ _ _ _ beyond, same]
  · exact absurd present gone

end Closing

end BlobStore

/-! ## Every run -/

/-- The threads of one store from its `open` on. -/
def openedMachine (trigger : Rat) (store : BlobStore) : Machine GcSystem GcLabel where
  start gc := ∃ numbers, Numbered store numbers ∧ gc = { system := { store }, numbers }
  exec := GcSystem.exec trigger

section Runs

variable {found : Found} {trigger : Rat} {gc after : GcSystem} {label : GcLabel}

theorem BlobStore.OldFiles.store_step {system next : StoreSystem} {label : StoreLabel}
    (old : OldFiles found system.store) (moved : system.exec label = some next)
    (room : next.store.nextSegmentId < 2 ^ 32) : OldFiles found next.store := by
  cases label with
  | writeBegin t request io =>
      obtain ⟨outcome, store, _, entered, rfl⟩ := StoreSystem.write_begin_step moved
      rw [StoreSystem.after_section_store] at room ⊢
      exact old.enter (enter_cases entered) room
  | writeResume t io =>
      obtain ⟨request, outcome, store, _, resumed, rfl⟩ := StoreSystem.write_resume_step moved
      rw [StoreSystem.after_section_store] at room ⊢
      exact old.acquire (acquire_cases resumed) room
  | writeDirect t io result =>
      obtain ⟨request, outcome, store, _, written, rfl⟩ := StoreSystem.write_direct_step moved
      rw [StoreSystem.after_direct_store] at room ⊢
      exact old.direct written room
  | flush step =>
      obtain ⟨pc, store, ran, rfl⟩ := StoreSystem.flush_thread_step moved
      exact old.flush_step ran
  | readBegin | readPending | readLookup | readDisk =>
      obtain ⟨r, pc, rfl⟩ := StoreSystem.reader_step rfl moved
      exact old

/-- The GC thread changes the store when it removes a segment, and only then. -/
theorem gc_step_store {step : GcStep} (moved : gc.gcStep trigger gc.gc step = some after) :
    after.store = gc.store ∨ ∃ segmentId, gc.store.gcRemove segmentId = some after.store := by
  unfold GcSystem.gcStep at moved
  split at moved
  · cases moved
    exact .inl rfl
  · split at moved
    · cases moved
      exact .inl rfl
    · cases moved
      exact .inl rfl
  · split_ifs at moved
    · split at moved
      · cases moved
        exact .inl rfl
      · cases moved
        exact .inl rfl
    · cases moved
      exact .inl rfl
  · split at moved
    · cases moved
      exact .inl rfl
    · cases moved
      exact .inl rfl
  · obtain ⟨store, removed, rfl⟩ := Option.map_eq_some_iff.1 moved
    exact .inr ⟨_, removed⟩
  · contradiction

theorem gc_system_next (moved : gc.exec trigger label = some after) :
    gc.store.nextSegmentId ≤ after.store.nextSegmentId := by
  cases label with
  | store label fd =>
      obtain ⟨next, stepped, rfl | ⟨path, _, _, rfl⟩⟩ := gc_store_step moved
      · exact (store_step_monotone stepped).1
      · exact (store_step_monotone stepped).1
  | markDead loc =>
      cases moved
      have next : (gc.store.markDead loc).nextSegmentId = gc.store.nextSegmentId := by
        rcases mark_dead_cases gc.store loc with same | ⟨i, change, marked, _⟩
        · rw [same]
        · rw [marked]
      exact Nat.le_of_eq next.symm
  | gc step =>
      rcases gc_step_store moved with same | ⟨segmentId, removed⟩
      · rw [same]
      · rcases gc_remove_cases removed with ⟨same, _⟩ | ⟨_, _, _, _, _, same⟩
        · rw [same]
        · rw [same, delete_file_next]

theorem BlobStore.OldFiles.system_step (old : OldFiles found gc.store)
    (moved : gc.exec trigger label = some after) (room : after.store.nextSegmentId < 2 ^ 32) :
    OldFiles found after.store := by
  cases label with
  | store label fd =>
      obtain ⟨next, stepped, rfl | ⟨path, isOpened, _, rfl⟩⟩ := gc_store_step moved
      · exact old.store_step stepped room
      · -- the number of a removed segment goes to a segment that the store creates
        have stepped : OldFiles found next.store := old.store_step stepped room
        have created : next.store.Created found.floor path := by
          unfold GcSystem.openedFile at isOpened
          split at isOpened
          · exact stepped.active path isOpened
          · contradiction
        refine stepped.moved rfl ?_ stepped.active rfl fun _ _ => rfl
        intro b other held
        rcases numbered_block
            { gc with system := next, placed := gc.placed ++ gc.system.newlyPlaced label next } fd path b with
          ⟨descriptor, block, same | ⟨_, rfl⟩⟩
        · rw [block] at held
          exact stepped.blocks b other (same.symm.trans held)
        · rw [block] at held
          cases held
          exact created
  | markDead loc =>
      cases moved
      exact old.mark_dead loc
  | gc step =>
      rcases gc_step_store moved with same | ⟨segmentId, removed⟩
      · rw [same]
        exact old
      · exact old.remove removed

variable {config : NvmeStoreConfig} {files : Files} {io : OpenIo} {dirs : List (List DirectoryFile)}

theorem reach_old_files (distinct : ∀ dir ∈ dirs, (dir.map (·.name)).Nodup)
    (listed : io.listing = some (scanListing dirs)) (ok : (openStore config files io).1 = .kOk)
    (reached : Reach (openedMachine trigger (openStore config files io).2) gc)
    (room : gc.store.nextSegmentId < 2 ^ 32) : OldFiles (scanned config files dirs) gc.store := by
  have inv : gc.store.nextSegmentId < 2 ^ 32 → OldFiles (scanned config files dirs) gc.store := by
    apply reached.invariant fun gc =>
      gc.store.nextSegmentId < 2 ^ 32 → OldFiles (scanned config files dirs) gc.store
    · rintro state ⟨numbers, _, rfl⟩ room
      exact OldFiles.opened distinct listed ok room
    · intro state label after old _ moved fewer
      have before := Nat.lt_of_le_of_lt (gc_system_next moved) fewer
      exact (old before).system_step moved fewer
  exact inv room

/-- The names under which a store creates its segment files are new in their
directory, so that none of the files there is truncated, and the next `open`
reads the ids of the segments from them. -/
theorem new_names_fresh (distinct : ∀ dir ∈ dirs, (dir.map (·.name)).Nodup)
    (listed : io.listing = some (scanListing dirs)) (ok : (openStore config files io).1 = .kOk)
    (reached : Reach (openedMachine trigger (openStore config files io).2) gc)
    (room : gc.store.nextSegmentId < 2 ^ 32) :
    (∀ id, (scanned config files dirs).floor ≤ id → id < gc.store.nextSegmentId →
      (∀ dir, dirs[0]? = some dir → segmentName id ∉ dir.map (·.name)) ∧
        scannedId (segmentName id) = some id) ∧
    ∀ seg ∈ gc.store.segments, ∃ path, seg.fd = some path ∧
      ((∃ base dir file, dirs[base]? = some dir ∧ file ∈ dir ∧
          segmentPathOf base file.name = some path) ∨
        ∃ id, (scanned config files dirs).floor ≤ id ∧ id < gc.store.nextSegmentId ∧
          path = .canonical id) := by
  have old := reach_old_files distinct listed ok reached room
  constructor
  · intro id above below
    have small : id < 2 ^ 32 := by omega
    refine ⟨?_, scanned_segment_name small⟩
    intro dir isFirst member
    obtain ⟨file, inDir, isName⟩ := List.mem_map.1 member
    have taken := (segment_path_canonical small).2 ⟨rfl, isName⟩
    have isEntry : scanFile 0 file = some
        { path := .canonical id
          opened := file.opened
          headerRead := file.headerRead
          statOk := file.statOk } := by
      rw [scanFile, taken]
      rfl
    have inListing := mem_scan_listing.2 ⟨0, dir, file, isFirst, inDir, isEntry⟩
    exact old.apart ⟨id, above, below, rfl⟩ (List.mem_map_of_mem inListing)
  · intro seg member
    obtain ⟨path, fd, isFound | created⟩ := old.known seg.fd (List.mem_map_of_mem member)
    · obtain ⟨entry, isOpened, rfl⟩ := List.mem_map.1 isFound
      have inListing := List.mem_of_mem_filter isOpened
      obtain ⟨base, dir, file, isDir, inDir, isEntry⟩ := mem_scan_listing.1 inListing
      exact ⟨_, fd, .inl ⟨base, dir, file, isDir, inDir, scan_file_path isEntry⟩⟩
    · exact ⟨path, fd, .inr created⟩

end Runs

/-- Two base paths with names that no store printed, and a file that is not a
segment. -/
def foreignDirs : List (List DirectoryFile) :=
  [[{ name := segmentName 3 },
    { name := segmentPrefix ++ ['+', '7', '.', 'o', 'l', 'd'] ++ segmentExtension },
    { name := ['c', 'h', 'e', 'c', 'k', 'p', 'o', 'i', 'n', 't'] }],
   [{ name := segmentName 9, opened := false }]]

def foreignIo : OpenIo := { listing := some (scanListing foreignDirs) }

def foreignStore : BlobStore := (openStore singleBlockConfig (fun _ => File.empty) foreignIo).2

def foreignWritten : GcSystem :=
  next (openedMachine 0 foreignStore)
    { system := { store := foreignStore }, numbers := SegmentPath.parsedId }
    (.store (.writeBegin 0 emptyRequest {}))

theorem foreign_written_reached : Reach (openedMachine 0 foreignStore) foreignWritten :=
  ReachWithin.to_next _ (.start ⟨_, by unfold Numbered; decide +kernel, rfl⟩) trivial (by decide +kernel)

/-- The ids 3, 7 and 9 were read from names, so the first new segment has the
id 10. -/
theorem new_names_fresh_foreign :
    segmentName 10 ∉ (foreignDirs.headD []).map (·.name) ∧ scannedId (segmentName 10) = some 10 := by
  have all := @new_names_fresh 0 foreignWritten singleBlockConfig (fun _ => File.empty) foreignIo
    foreignDirs (by decide +kernel) rfl (by decide +kernel) foreign_written_reached
    (by decide +kernel)
  have fresh := all.1 10 (by decide +kernel) (by decide +kernel)
  exact ⟨fresh.1 _ rfl, fresh.2⟩

section Runs

variable {trigger : Rat} {gc : GcSystem} {config : NvmeStoreConfig} {files : Files} {io : OpenIo}
  {dirs : List (List DirectoryFile)}

/-- Until `close`, a file that `open` found keeps its bytes as long as its
segment is there, and a file that it could not open keeps them anyway; `close`
itself writes no further than the header. -/
theorem old_files_kept (distinct : ∀ dir ∈ dirs, (dir.map (·.name)).Nodup)
    (listed : io.listing = some (scanListing dirs)) (ok : (openStore config files io).1 = .kOk)
    (reached : Reach (openedMachine trigger (openStore config files io).2) gc)
    (room : gc.store.nextSegmentId < 2 ^ 32) {base : Nat} {dir : List DirectoryFile}
    {file : DirectoryFile} {path : SegmentPath} (isDir : dirs[base]? = some dir) (inDir : file ∈ dir)
    (taken : segmentPathOf base file.name = some path) :
    ((∃ seg ∈ gc.store.segments, seg.fd = some path) ∨ file.opened = false →
        gc.store.files path = files path) ∧
      ∀ closeIo after, gc.store.close gc.system.flush closeIo = some after →
        (∃ seg ∈ gc.store.segments, seg.fd = some path) →
          ∀ offset, kSegmentHeaderSize ≤ offset →
            (after.files path).data offset = (files path).data offset := by
  have old := reach_old_files distinct listed ok reached room
  have isEntry : scanFile base file = some
      { path, opened := file.opened, headerRead := file.headerRead, statOk := file.statOk } := by
    rw [scanFile, taken]
    rfl
  have inListing := mem_scan_listing.2 ⟨base, dir, file, isDir, inDir, isEntry⟩
  have isFound : path ∈ (scanned config files dirs).paths := List.mem_map_of_mem inListing
  constructor
  · intro present
    rcases old.kept path isFound with kept | ⟨wasOpened, gone⟩
    · exact kept
    · exfalso
      rcases present with ⟨seg, member, fd⟩ | notOpened
      · exact gone (List.mem_map.2 ⟨seg, member, fd⟩)
      · obtain ⟨other, isOpened, samePath⟩ := List.mem_map.1 wasOpened
        have same := List.inj_on_of_nodup_map (scan_paths_nodup distinct)
          (List.mem_of_mem_filter isOpened) inListing samePath
        rw [same, List.mem_filter] at isOpened
        rw [notOpened] at isOpened
        exact Bool.false_ne_true isOpened.2
  · rintro closeIo after closed ⟨seg, member, fd⟩ offset beyond
    exact old.closed closed isFound (List.mem_map.2 ⟨seg, member, fd⟩) beyond

end Runs

theorem old_files_kept_foreign : foreignWritten.store.files (.canonical 3) = File.empty := by
  have isDir : foreignDirs[0]? = some (foreignDirs.headD []) := rfl
  have present : ∃ seg ∈ foreignWritten.store.segments, seg.fd = some (.canonical 3) := by
    decide +kernel
  exact (old_files_kept (by decide +kernel) rfl (by decide +kernel) foreign_written_reached
    (by decide +kernel) isDir List.mem_cons_self (by decide +kernel)).1 (.inl present)

end AttentionDB
