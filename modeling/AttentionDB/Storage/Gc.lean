import AttentionDB.Storage.BlobStoreSystem

/-!
# Garbage collection

The GC thread picks the segments with few live entries. It walks the file of
each one from the segment header on, hands every entry it reads to the rewrite
callback, and removes the segment whether or not the walk got to the end. The
callback is set; what it was called with is kept in a history, and so is what
every write placed. The file of a removed segment is closed, and its descriptor
number may be given to the next segment file, also while a write block still
has it.
-/

namespace AttentionDB

open ByteMap GuardedRuns

set_option autoImplicit false

/-! ## The header of an entry -/

def paddedSizeAt (image : Image) (offset : Nat) : Nat := decodeLe (slice image (offset + 8) 4)

def checksumAt (image : Image) (offset : Nat) : UInt32 :=
  UInt32.ofNat (decodeLe (slice image (offset + 12) 4))

def keyAt (image : Image) (offset : Nat) : StorageKey :=
  keyCodec.decode (slice image (offset + 24) keyCodec.width)

/-! ## The sections of the GC thread -/

/-- The locals of `gc_compact_segment`, and its calls of the callback. -/
structure GcScan where
  segmentId : Nat
  path : SegmentPath
  writeOffset : Nat
  offset : Nat := kSegmentHeaderSize
  calls : List WriteRequest := []

/-- The file that the block's descriptor stands for after a file was closed. -/
def WriteBlock.forget (block : WriteBlock) (path : SegmentPath) : WriteBlock :=
  { block with segmentFd := if block.segmentFd = some path then none else block.segmentFd }

/-- The number of the block's closed descriptor was given to a new file. -/
def WriteBlock.adopt (block : WriteBlock) (path : SegmentPath) : WriteBlock :=
  { block with segmentFd := some (block.segmentFd.getD path) }

namespace BlobStore

/-- The segments that a cycle will compact. The ratio is a `double` in the
source and an exact rational here. -/
def gcCandidates (s : BlobStore) (trigger : Rat) : List Nat :=
  (s.segments.zipIdx.filter fun (seg, i) =>
    s.activeSegment ≠ some i && seg.entryCount ≠ 0 &&
      decide ((seg.liveCount : Rat) / (seg.entryCount : Rat) < trigger)).map (·.1.id)

def gcFind (s : BlobStore) (segmentId : Nat) : Option GcScan :=
  match s.segments.zipIdx.find? fun (seg, i) => seg.id = segmentId && s.activeSegment ≠ some i with
  | none => none
  | some (seg, _) => seg.fd.map fun path => { segmentId, path, writeOffset := seg.writeOffset }

def gcReadHeader (s : BlobStore) (scan : GcScan) (readOk : Bool) : Option Nat :=
  let bytes := (s.files scan.path).pread scan.offset kEntryHeaderSize
  let ret := if readOk then toInt32 bytes.length else -1
  if ret < toInt32 kEntryHeaderSize then none
  else
    let paddedSize := paddedSizeAt (patch (fun _ => 0) 0 bytes) 0
    if paddedSize = 0 then none else some paddedSize

/-- The read of a whole entry, and what the callback gets. What the read leaves
unset in the buffer is zero here. -/
def gcReadEntry (s : BlobStore) (scan : GcScan) (paddedSize : Nat) (readOk : Bool) :
    Option WriteRequest :=
  let bytes := (s.files scan.path).pread scan.offset paddedSize
  let ret := if readOk then toInt32 bytes.length else -1
  if ret < toInt32 paddedSize then none
  else
    let image := patch (fun _ => 0) 0 bytes
    some
      { key := keyAt image 0
        data := blobAt image 0 (blobSizeAt image 0)
        checksum := checksumAt image 0 }

/-- A segment file is closed and deleted. A block that still has its descriptor
writes to no file until the number is given to another one. -/
def deleteFile (s : BlobStore) : Option SegmentPath → BlobStore
  | none => s
  | some path =>
      { s with
        files := Function.update s.files path File.empty
        blocks := fun b => (s.blocks b).forget path }

/-- The end of `gc_compact_segment`. Erasing moves the later segments up, and
`active_segment_` keeps pointing to the same one; when that one is erased there
is no result. -/
def gcRemove (s : BlobStore) (segmentId : Nat) : Option BlobStore :=
  match s.segments.findIdx? (·.id = segmentId) with
  | none => some s
  | some i =>
      if s.activeSegment = some i then none
      else
        some
          { s.deleteFile ((s.segments[i]?).bind (·.fd)) with
            segments := s.segments.eraseIdx i
            activeSegment := s.activeSegment.map fun active => if i < active then active - 1 else active }

end BlobStore

/-! ## The threads together -/

structure PlacedBlob where
  ack : Ack
  request : WriteRequest
  deriving DecidableEq

def PlacedBlob.segmentId (p : PlacedBlob) : Nat := p.ack.loc.segmentId

def placedIn (placed : List PlacedBlob) (segmentId : Nat) : List PlacedBlob :=
  placed.filter (·.segmentId = segmentId)

/-- Where the GC thread is: before the next candidate, before the read of a
header or of a whole entry, or before the removal. -/
inductive GcPc where
  | idle (candidates : List Nat)
  | header (scan : GcScan) (candidates : List Nat)
  | entry (scan : GcScan) (paddedSize : Nat) (candidates : List Nat)
  | removing (scan : GcScan) (candidates : List Nat)

/-- A removed segment: the calls of the callback before the removal, and the
blobs that writes had placed there. -/
structure GcRemoval where
  segmentId : Nat
  calls : List WriteRequest
  placed : List WriteRequest
  deriving DecidableEq

/-- `numbers` has the descriptor number of every file that was opened, and
`closed` the one that a block still has of a file that was closed. -/
structure GcSystem where
  system : StoreSystem
  gc : GcPc := .idle []
  placed : List PlacedBlob := []
  removals : List GcRemoval := []
  numbers : SegmentPath → Nat := fun _ => 0
  closed : Nat → Option Nat := fun _ => none

inductive GcStep where
  | collect
  | lookup
  | readHeader (readOk : Bool)
  | readEntry (readOk : Bool)
  | remove

/-- `fd` is the number that `open` returns if the step opens a segment file. -/
inductive GcLabel where
  | store (label : StoreLabel) (fd : Nat := 0)
  | markDead (loc : BlobLocation)
  | gc (step : GcStep)

def StoreSystem.requestOf (system : StoreSystem) : StoreLabel → Option WriteRequest
  | .writeBegin _ request _ => some request
  | .writeResume t _ | .writeDirect t _ _ =>
      match system.writers t with
      | .waiting request | .direct request => some request
      | .idle => none
  | _ => none

def StoreSystem.newlyPlaced (before : StoreSystem) (label : StoreLabel) (after : StoreSystem) :
    List PlacedBlob :=
  (after.acked.take (after.acked.length - before.acked.length)).flatMap fun ack =>
    (before.requestOf label).toList.map fun request => { ack, request }

namespace GcSystem

def store (gc : GcSystem) : BlobStore := gc.system.store

def setStore (gc : GcSystem) (store : BlobStore) : GcSystem :=
  { gc with system := { gc.system with store } }

def removalOf (gc : GcSystem) (scan : GcScan) : List GcRemoval :=
  if gc.store.segments.any (·.id = scan.segmentId) then
    [{ segmentId := scan.segmentId
       calls := scan.calls
       placed := (placedIn gc.placed scan.segmentId).map (·.request) }]
  else []

def openedFile (gc : GcSystem) (after : StoreSystem) : Option SegmentPath :=
  if gc.store.segments.length < after.store.segments.length then
    after.store.currentSegment.bind (·.fd)
  else none

def inUse (gc : GcSystem) (fd : Nat) : Bool :=
  gc.store.segments.any fun seg => seg.fd.any fun path => gc.numbers path = fd

def readerAfter (gc : GcSystem) (fd : Nat) (path : SegmentPath) : ReaderPc → ReaderPc
  | .disk call attempt old =>
      if gc.numbers old = fd ∧ ∀ seg ∈ gc.store.segments, seg.fd ≠ some old then
        .disk call attempt path
      else .disk call attempt old
  | pc => pc

/-- A file was opened and got the number `fd`. Who still has this number of a
closed file has the new one now. -/
def numbered (gc : GcSystem) (fd : Nat) (path : SegmentPath) : GcSystem :=
  { gc with
    system := { gc.system with
      store := { gc.store with
        blocks := fun b =>
          if gc.closed b = some fd then (gc.store.blocks b).adopt path else gc.store.blocks b }
      readers := fun r => gc.readerAfter fd path (gc.system.readers r) }
    numbers := Function.update gc.numbers path fd }

def closedAfter (gc : GcSystem) (store : BlobStore) (b : Nat) : Option Nat :=
  match (gc.store.blocks b).segmentFd, (store.blocks b).segmentFd with
  | some path, none => some (gc.numbers path)
  | _, _ => gc.closed b

def gcStep (trigger : Rat) (gc : GcSystem) : GcPc → GcStep → Option GcSystem
  | .idle [], .collect => some { gc with gc := .idle (gc.store.gcCandidates trigger) }
  | .idle (segmentId :: rest), .lookup =>
      match gc.store.gcFind segmentId with
      | none => some { gc with gc := .idle rest }
      | some scan => some { gc with gc := .header scan rest }
  | .header scan rest, .readHeader readOk =>
      if scan.offset < scan.writeOffset then
        match gc.store.gcReadHeader scan readOk with
        | none => some { gc with gc := .removing scan rest }
        | some paddedSize => some { gc with gc := .entry scan paddedSize rest }
      else some { gc with gc := .removing scan rest }
  | .entry scan paddedSize rest, .readEntry readOk =>
      match gc.store.gcReadEntry scan paddedSize readOk with
      | none => some { gc with gc := .removing scan rest }
      | some call =>
          some { gc with
            gc := .header
              { scan with offset := scan.offset + paddedSize, calls := scan.calls ++ [call] } rest }
  | .removing scan rest, .remove =>
      (gc.store.gcRemove scan.segmentId).map fun store =>
        { gc.setStore store with
          gc := .idle rest
          removals := gc.removalOf scan ++ gc.removals
          closed := gc.closedAfter store }
  | _, _ => none

def exec (trigger : Rat) (gc : GcSystem) : GcLabel → Option GcSystem
  | .store label fd =>
      (gc.system.exec label).bind fun after =>
        let next : GcSystem :=
          { gc with system := after, placed := gc.placed ++ gc.system.newlyPlaced label after }
        match gc.openedFile after with
        | none => some next
        | some path => if gc.inUse fd then none else some (next.numbered fd path)
  | .markDead loc => some (gc.setStore (gc.store.markDead loc))
  | .gc step => gc.gcStep trigger gc.gc step

end GcSystem

section Steps

variable {trigger : Rat} {gc next : GcSystem} {label : StoreLabel} {fd : Nat}

/-- A step of the store, after which blocks and readers may have another file. -/
theorem gc_store_step (moved : gc.exec trigger (.store label fd) = some next) :
    ∃ after, gc.system.exec label = some after ∧
      (next = { gc with system := after, placed := gc.placed ++ gc.system.newlyPlaced label after } ∨
        ∃ path, gc.openedFile after = some path ∧ gc.inUse fd = false ∧
          next = GcSystem.numbered
            { gc with system := after, placed := gc.placed ++ gc.system.newlyPlaced label after }
            fd path) := by
  simp only [GcSystem.exec, Option.bind_eq_some_iff] at moved
  obtain ⟨after, ran, moved⟩ := moved
  refine ⟨after, ran, ?_⟩
  split at moved
  · cases moved
    exact .inl rfl
  · rename_i path opened
    split at moved
    · contradiction
    · rename_i free
      cases moved
      exact .inr ⟨path, opened, by simpa using free, rfl⟩

/-- A block keeps the file that it has. -/
theorem numbered_block (gc : GcSystem) (fd : Nat) (path : SegmentPath) (b : Nat) :
    ∃ descriptor, (gc.numbered fd path).store.blocks b =
        { gc.store.blocks b with segmentFd := descriptor } ∧
      (descriptor = (gc.store.blocks b).segmentFd ∨
        (gc.store.blocks b).segmentFd = none ∧ descriptor = some path) := by
  have block : (gc.numbered fd path).store.blocks b =
      if gc.closed b = some fd then (gc.store.blocks b).adopt path else gc.store.blocks b := rfl
  rw [block]
  by_cases held : gc.closed b = some fd
  · rw [if_pos held, WriteBlock.adopt]
    cases own : (gc.store.blocks b).segmentFd with
    | none => exact ⟨some path, rfl, .inr ⟨rfl, rfl⟩⟩
    | some old => exact ⟨some old, rfl, .inl rfl⟩
  · rw [if_neg held]
    exact ⟨_, rfl, .inl rfl⟩

end Steps

/-- The files that are open have different numbers. -/
def Numbered (s : BlobStore) (numbers : SegmentPath → Nat) : Prop :=
  ∀ first ∈ s.segments, ∀ second ∈ s.segments,
    first.fd.map numbers = second.fd.map numbers → first.fd = second.fd

def gcMachine (trigger : Rat) : Machine GcSystem GcLabel where
  start gc := ∃ system numbers, storeMachine.start system ∧ Numbered system.store numbers ∧
    gc = { system, numbers }
  exec := GcSystem.exec trigger

end AttentionDB
