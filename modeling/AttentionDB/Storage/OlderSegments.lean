import AttentionDB.Storage.Close
import AttentionDB.Storage.WriteSections

/-!
# A store behind older segments

The segments that `open` finds stand in front of those that the store creates.
The sections of `write`, the flush thread and `close` reach a segment through
its position only, so they run as they would in a store without the older ones.
-/

namespace AttentionDB.BlobStore

set_option autoImplicit false

def behind (s : BlobStore) (older : List SegmentInfo) : BlobStore :=
  { s with
    segments := older ++ s.segments
    activeSegment := s.activeSegment.map (older.length + ·) }

section Sections

variable (s : BlobStore) (older : List SegmentInfo) (b : Nat) (request : WriteRequest) (io : SegmentIo)

@[simp] theorem behind_blocks : (s.behind older).blocks = s.blocks := rfl

@[simp] theorem behind_config : (s.behind older).config = s.config := rfl

@[simp] theorem behind_next : (s.behind older).nextSegmentId = s.nextSegmentId := rfl

@[simp] theorem behind_active_block : (s.behind older).activeBlock = s.activeBlock := rfl

@[simp] theorem behind_current : (s.behind older).currentSegment = s.currentSegment := by
  simp only [currentSegment, behind]
  cases s.activeSegment with
  | none => rfl
  | some active =>
      simp only [Option.map_some, Option.bind_some]
      rw [List.getElem?_append_right (Nat.le_add_right _ _), Nat.add_sub_cancel_left]

theorem behind_create : (s.behind older).createNewSegment io = (s.createNewSegment io).behind older := by
  unfold createNewSegment
  cases io.opened with
  | true => simp [behind, List.append_assoc]
  | false => simp [behind]

theorem behind_segment_for_block :
    (s.behind older).segmentForBlock b io = (s.segmentForBlock b io).behind older := by
  unfold segmentForBlock
  rw [behind_current]
  split
  · exact behind_create s older io
  · rw [behind_config, behind_blocks]
    split
    · exact behind_create s older io
    · rfl

def resultBehind (older : List SegmentInfo) (result : WriteOutcome × BlobStore) :
    WriteOutcome × BlobStore :=
  (result.1, result.2.behind older)

theorem modify_behind (older segments : List SegmentInfo) (active : Nat)
    (change : SegmentInfo → SegmentInfo) :
    (older ++ segments).modify (older.length + active) change =
      older ++ segments.modify active change := by
  apply List.ext_getElem?
  intro k
  rw [List.getElem?_modify]
  rcases Nat.lt_or_ge k older.length with front | back
  · have other : older.length + active ≠ k := by omega
    simp [List.getElem?_append_left front, other]
  · rw [List.getElem?_append_right back, List.getElem?_append_right back, List.getElem?_modify]
    have same : older.length + active = k ↔ active = k - older.length := by omega
    simp only [same]

theorem behind_append_entry : (s.behind older).appendEntry b request =
    (s.appendEntry b request).map (resultBehind older) := by
  unfold appendEntry
  cases active : s.activeSegment with
  | none => simp [behind, active]
  | some position =>
      simp only [behind, active, Option.map_some, resultBehind, modify_behind]
      rfl

/-- What follows in `acquireAndAppend` once a free block was taken. -/
theorem acquire_taken {rest : List Nat} (free : s.freePool = b :: rest) :
    s.acquireAndAppend request io =
      (s.withNextBlock b rest io).currentSegment.elim
        (some (.failed .kIOError, s.withNextBlock b rest io)) fun seg =>
          if seg.fd = none then some (.failed .kIOError, s.withNextBlock b rest io)
          else ((s.withNextBlock b rest io).resetBlock b seg).appendEntry b request := by
  unfold acquireAndAppend takeBlock
  rw [free]
  dsimp only
  unfold withNextBlock
  split
  · rename_i missing
    rw [missing]
    rfl
  · rename_i seg current
    rw [current]
    rfl

theorem behind_acquire : (s.behind older).acquireAndAppend request io =
    (s.acquireAndAppend request io).map (resultBehind older) := by
  cases free : s.freePool with
  | nil =>
      have freeBehind : (s.behind older).freePool = [] := free
      unfold acquireAndAppend takeBlock
      rw [free, freeBehind]
      dsimp only
      have running : (s.behind older).flushRunning = s.flushRunning := rfl
      rw [running]
      split <;> rfl
  | cons b rest =>
      have next : (s.behind older).withNextBlock b rest io = (s.withNextBlock b rest io).behind older :=
        behind_segment_for_block { s with freePool := rest, activeBlock := some b } older b io
      rw [acquire_taken s b request io free, acquire_taken (s.behind older) b request io free, next,
        behind_current]
      cases (s.withNextBlock b rest io).currentSegment with
      | none => rfl
      | some seg =>
          dsimp only [Option.elim_some]
          split
          · rfl
          · exact behind_append_entry ((s.withNextBlock b rest io).resetBlock b seg) older b request

theorem behind_enter : (s.behind older).writeEnter request io =
    (s.writeEnter request io).map (resultBehind older) := by
  unfold writeEnter
  dsimp only
  split
  · rfl
  · rw [behind_active_block, behind_blocks]
    split
    · rfl
    · rename_i b isActive
      split
      · rfl
      · split
        · have retired : (s.behind older).retireBlock b = (s.retireBlock b).behind older := by
            unfold retireBlock
            rw [behind_blocks]
            split <;> rfl
          rw [retired]
          exact behind_acquire (s.retireBlock b) older request io
        · exact behind_append_entry s older b request

theorem behind_flush_pop : (s.behind older).flushPop =
    s.flushPop.map fun result => (result.1, result.2.behind older) := by
  have queue : (s.behind older).flushQueue = s.flushQueue := rfl
  unfold flushPop
  rw [queue]
  cases s.flushQueue with
  | nil => rfl
  | cons b rest =>
      dsimp only
      rw [behind_blocks]
      split <;> rfl

/-- The flush thread looks at the blocks and the files only. -/
theorem behind_flush_step (flush : FlushPc) (step : FlushStep) :
    (s.behind older).flushStep flush step =
      (s.flushStep flush step).map fun result => (result.1, result.2.behind older) := by
  unfold flushStep
  split
  · exact behind_flush_pop s older
  · rfl
  · rfl
  · rfl

theorem behind_retire : (s.behind older).retireActive = s.retireActive.behind older := by
  unfold retireActive
  rw [behind_active_block, behind_blocks]
  split
  · rfl
  · split <;> rfl

end Sections

/-! ## Opening -/

section Opening

variable {config : NvmeStoreConfig} {files : Files} {listing : List ScanEntry} {openIo : OpenIo}

def withoutSegments (config : NvmeStoreConfig) (files : Files) (next : Nat) : BlobStore :=
  { constructed config files with nextSegmentId := next }

/-- The scan adds segments and moves the next id. -/
theorem scan_only (listing : List ScanEntry) (s : BlobStore) :
    listing.foldl scanSegment s =
      { s with
        segments := (listing.foldl scanSegment s).segments
        nextSegmentId := (listing.foldl scanSegment s).nextSegmentId } := by
  induction listing generalizing s with
  | nil => rfl
  | cons entry listing ih =>
      have one : s.scanSegment entry =
          { s with
            segments := (s.scanSegment entry).segments
            nextSegmentId := (s.scanSegment entry).nextSegmentId } := by
        unfold scanSegment
        dsimp only
        split <;> rfl
      have later := ih (s.scanSegment entry)
      rw [List.foldl_cons]
      generalize listing.foldl scanSegment (s.scanSegment entry) = scanned at later ⊢
      rw [later, one]

theorem scan_behind (config : NvmeStoreConfig) (files : Files) (listing : List ScanEntry) :
    listing.foldl scanSegment (constructed config files) =
      (withoutSegments config files (listing.foldl scanSegment (constructed config files)).nextSegmentId).behind
        (listing.foldl scanSegment (constructed config files)).segments := by
  have scanned := scan_only listing (constructed config files)
  generalize listing.foldl scanSegment (constructed config files) = after at scanned ⊢
  rw [scanned]
  simp [behind, withoutSegments, constructed]

/-- An opened store is one with a first segment and a first block, behind the
segments that the scan found. -/
theorem open_behind (ok : (openStore config files openIo).1 = .kOk) (listed : openIo.listing = some listing) :
    ∃ seg b rest,
      ((withoutSegments config files
        (listing.foldl scanSegment (constructed config files)).nextSegmentId).createNewSegment
          openIo.segment).currentSegment = some seg ∧
      (List.range config.writeBlockPoolSize.toNat).reverse = b :: rest ∧
      (openStore config files openIo).2 =
        ({ ((withoutSegments config files
            (listing.foldl scanSegment (constructed config files)).nextSegmentId).createNewSegment
              openIo.segment).resetBlock b seg with
          freePool := rest
          activeBlock := some b
          flushRunning := true } : BlobStore).behind
            (listing.foldl scanSegment (constructed config files)).segments := by
  rcases open_store_cases ok with ⟨entries, seg, b, rest, found, current, pool, opened⟩
  have same : entries = listing := Option.some.inj (found.symm.trans listed)
  subst same
  rw [withSegments, scan_behind, behind_create, behind_current] at current
  refine ⟨seg, b, rest, current, pool, ?_⟩
  rw [opened, withSegments]
  conv_lhs => rw [scan_behind, behind_create]
  rfl

end Opening

end AttentionDB.BlobStore
