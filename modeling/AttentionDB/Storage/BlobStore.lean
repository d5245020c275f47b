import AttentionDB.Storage.Segment
import Mathlib.Logic.Function.Basic

/-!
# The blob store

The store as a state and one function for each section that runs under a lock
or issues one I/O call. `write` is cut where the source unlocks or sleeps, and
`read` where it leaves `block_mu_` and where it reads the file. What the system
decides (whether a segment file opens, how far a transfer gets) is an argument.
A write that would dereference a null `active_segment_` has no result.
-/

namespace AttentionDB

open ByteMap

set_option autoImplicit false

/-! ## Files -/

/-- The name of a segment file: the one `segment_path` prints for an id, or
any other name under which the scan of a directory reads an id. -/
inductive SegmentPath where
  | canonical (id : Nat)
  | other (name id : Nat)
  deriving DecidableEq, Repr

def SegmentPath.parsedId : SegmentPath → Nat
  | .canonical id => id
  | .other _ id => id

structure File where
  size : Nat
  data : Image

def File.empty : File := { size := 0, data := fun _ => 0 }

def File.pwrite (file : File) (offset : Nat) (bytes : List UInt8) : File :=
  { size := max file.size (offset + bytes.length), data := patch file.data offset bytes }

def File.pread (file : File) (offset count : Nat) : List UInt8 :=
  slice file.data offset (min count (file.size - offset))

abbrev Files := SegmentPath → File

/-- How a `sync_write` ends: everything was transferred, or the system failed
after a part of it. -/
inductive IoResult where
  | complete
  | failed (transferred : Nat)
  deriving DecidableEq, Repr

def toInt32 (n : Nat) : Int := (BitVec.ofNat 32 n).toInt

def syncWrite (files : Files) (fd : Option SegmentPath) (bytes : List UInt8) (offset : Nat) :
    IoResult → Int × Files
  | .complete =>
      match fd with
      | none => (-1, files)
      | some path =>
          (toInt32 bytes.length, Function.update files path ((files path).pwrite offset bytes))
  | .failed transferred =>
      match fd with
      | none => (-1, files)
      | some path =>
          (-1, Function.update files path ((files path).pwrite offset (bytes.take transferred)))

/-! ## State -/

structure BlobLocation where
  segmentId : Nat
  offset : Nat
  length : Nat
  diskSize : Nat
  deriving DecidableEq, Repr

structure WriteBlock where
  buf : Image
  pos : Nat := 0
  capacity : Nat
  segmentId : Nat := 0
  segmentOffset : Nat := 0
  entryCount : Nat := 0
  segmentFd : Option SegmentPath := none

def WriteBlock.reset (block : WriteBlock) (segmentId segmentOffset : Nat)
    (fd : Option SegmentPath) : WriteBlock :=
  { block with pos := 0, segmentId, segmentOffset, entryCount := 0, segmentFd := fd }

structure SegmentInfo where
  id : Nat
  fd : Option SegmentPath
  writeOffset : Nat
  entryCount : Nat
  liveCount : Nat
  deriving DecidableEq, Repr

def SegmentInfo.advance (seg : SegmentInfo) (diskSize : Nat) : SegmentInfo :=
  { seg with
    writeOffset := seg.writeOffset + diskSize
    entryCount := (seg.entryCount + 1) % 2 ^ 32
    liveCount := (seg.liveCount + 1) % 2 ^ 32 }

/-- `activeSegment` is a position in `segments`. `nextSegmentId` counts on past
32 bits, where the source wraps: the id of a segment is its value modulo 2^32.
`freePool` has the back of the source's vector first. -/
structure BlobStore where
  config : NvmeStoreConfig
  files : Files
  segments : List SegmentInfo := []
  activeSegment : Option Nat := none
  nextSegmentId : Nat := 0
  writeSequence : Nat := 0
  blocks : Nat → WriteBlock
  activeBlock : Option Nat := none
  flushQueue : List Nat := []
  freePool : List Nat := []
  flushingBlock : Option Nat := none
  flushRunning : Bool := false

structure SegmentIo where
  opened : Bool := true
  header : IoResult := .complete
  createdAt : Nat := 0
  deriving DecidableEq, Repr

structure WriteRequest where
  key : StorageKey
  data : List UInt8
  checksum : UInt32
  deriving DecidableEq, Repr

namespace BlobStore

def currentSegment (s : BlobStore) : Option SegmentInfo := s.activeSegment.bind (s.segments[·]?)

def setBlock (s : BlobStore) (b : Nat) (block : WriteBlock) : BlobStore :=
  { s with blocks := Function.update s.blocks b block }

/-- `create_new_segment` with `open_segment_fd` and `write_segment_header`. -/
def createNewSegment (s : BlobStore) (io : SegmentIo) : BlobStore :=
  let id := s.nextSegmentId % 2 ^ 32
  let s := { s with nextSegmentId := s.nextSegmentId + 1 }
  if io.opened then
    let path := SegmentPath.canonical id
    let header : SegmentHeader :=
      { segmentId := id, createdAt := io.createdAt, entryCount := 0, liveCount := 0 }
    let truncated := Function.update s.files path File.empty
    { s with
      files := (syncWrite truncated (some path) header.encode 0 io.header).2
      activeSegment := some s.segments.length
      segments := s.segments ++
        [{ id, fd := some path, writeOffset := kSegmentHeaderSize, entryCount := 0, liveCount := 0 }] }
  else { s with activeSegment := none }

/-! ## Opening -/

structure ScanEntry where
  path : SegmentPath
  opened : Bool := true
  headerRead : Bool := true
  statOk : Bool := true
  deriving DecidableEq, Repr

/-- A scanned file becomes a segment with the counts of its header, if that
can be read and has the magic number, and with nothing known otherwise. -/
def scanSegment (s : BlobStore) (entry : ScanEntry) : BlobStore :=
  let id := entry.path.parsedId % 2 ^ 32
  let s := { s with nextSegmentId := max s.nextSegmentId ((id + 1) % 2 ^ 32) }
  if entry.opened then
    let file := s.files entry.path
    let valid := entry.headerRead && decide (kSegmentHeaderSize ≤ file.size) &&
      decide (decodeLe (slice file.data 0 4) = kSegmentMagic)
    { s with
      segments := s.segments ++
        [{ id
           fd := some entry.path
           writeOffset := if valid && entry.statOk then file.size else 0
           entryCount := if valid then decodeLe (slice file.data 20 4) else 0
           liveCount := if valid then decodeLe (slice file.data 24 4) else 0 }] }
  else s

def blockCapacity (config : NvmeStoreConfig) : Nat := config.writeBlockSizeMb.toNat * 1024 * 1024

/-- `acquire_block` with a free block at hand; the caller sleeps otherwise. -/
def takeBlock (s : BlobStore) : Option (Nat × BlobStore) :=
  match s.freePool with
  | [] => none
  | b :: rest => some (b, { s with freePool := rest })

/-- The active block starts a new range at the end of a segment. -/
def resetBlock (s : BlobStore) (b : Nat) (seg : SegmentInfo) : BlobStore :=
  s.setBlock b ((s.blocks b).reset seg.id seg.writeOffset seg.fd)

/-- What the system provides to `open`: the directory listing, the first
segment file and the buffers of the pool. -/
structure OpenIo where
  listing : Option (List ScanEntry) := some []
  segment : SegmentIo := {}
  buffersAllocated : Bool := true

def constructed (config : NvmeStoreConfig) (files : Files) : BlobStore :=
  { config, files, blocks := fun _ => { buf := fun _ => 0, capacity := blockCapacity config } }

def openStore (config : NvmeStoreConfig) (files : Files) (io : OpenIo) : Status × BlobStore :=
  let s := constructed config files
  if config.paths = [] then (.kInvalidArgument, s)
  else
    match io.listing with
    | none => (.kIOError, s)
    | some listing =>
        let s := (listing.foldl scanSegment s).createNewSegment io.segment
        match s.currentSegment with
        | none => (.kIOError, s)
        | some seg =>
            if io.buffersAllocated then
              let s := { s with freePool := (List.range config.writeBlockPoolSize.toNat).reverse }
              match s.takeBlock with
              | none => (.kIOError, s)
              | some (b, s) =>
                  (.kOk, { s.resetBlock b seg with activeBlock := some b, flushRunning := true })
            else (.kIOError, s)

/-! ## Writing -/

inductive WriteOutcome where
  | stored (loc : BlobLocation)
  | failed (status : Status)
  | waiting
  | direct
  deriving DecidableEq, Repr

def entryHeader (s : BlobStore) (request : WriteRequest) : BlobEntryHeader :=
  { blobSize := request.data.length
    paddedSize := entryDiskSize request.data.length
    checksum := request.checksum.toNat
    sequence := s.writeSequence
    key := request.key }

def appendToBlock (s : BlobStore) (block : WriteBlock) (request : WriteRequest) : WriteBlock :=
  let diskSize := entryDiskSize request.data.length
  { block with
    buf := layEntry block.buf block.pos (s.entryHeader request) request.data diskSize
    pos := block.pos + diskSize
    entryCount := (block.entryCount + 1) % 2 ^ 32 }

def blockLocation (block : WriteBlock) (len : Nat) : BlobLocation :=
  { segmentId := block.segmentId
    offset := block.segmentOffset + block.pos
    length := len % 2 ^ 32
    diskSize := entryDiskSize len % 2 ^ 32 }

def appendEntry (s : BlobStore) (b : Nat) (request : WriteRequest) :
    Option (WriteOutcome × BlobStore) :=
  match s.activeSegment with
  | none => none
  | some active =>
      let block := s.blocks b
      let diskSize := entryDiskSize request.data.length
      some (.stored (blockLocation block request.data.length),
        { s with
          writeSequence := s.writeSequence + 1
          blocks := Function.update s.blocks b (s.appendToBlock block request)
          segments := s.segments.modify active (·.advance diskSize) })

/-- The segment for the next block: the active one while a whole block still
fits below `segment_size`. -/
def segmentForBlock (s : BlobStore) (b : Nat) (io : SegmentIo) : BlobStore :=
  match s.currentSegment with
  | none => s.createNewSegment io
  | some seg =>
      if s.config.segmentSize.toNat < seg.writeOffset + (s.blocks b).capacity then
        s.createNewSegment io
      else s

/-- `write` from `acquire_block` to its end: on the first try, and again each
time the writer is woken. Asleep, it leaves `active_block_` as it is. -/
def acquireAndAppend (s : BlobStore) (request : WriteRequest) (io : SegmentIo) :
    Option (WriteOutcome × BlobStore) :=
  match s.takeBlock with
  | none =>
      if s.flushRunning then some (.waiting, s)
      else some (.failed .kIOError, { s with activeBlock := none })
  | some (b, s) =>
      let s := { s with activeBlock := some b }
      let s := s.segmentForBlock b io
      match s.currentSegment with
      | none => some (.failed .kIOError, s)
      | some seg =>
          if seg.fd = none then some (.failed .kIOError, s)
          else (s.resetBlock b seg).appendEntry b request

/-- The active block leaves: to the flush queue if it holds entries. -/
def retireBlock (s : BlobStore) (b : Nat) : BlobStore :=
  if 0 < (s.blocks b).pos then { s with flushQueue := s.flushQueue ++ [b] }
  else { s with freePool := b :: s.freePool }

/-- `write` up to its end, its first sleep, or the direct path. -/
def writeEnter (s : BlobStore) (request : WriteRequest) (io : SegmentIo) :
    Option (WriteOutcome × BlobStore) :=
  let diskSize := entryDiskSize request.data.length
  if 2 ^ 32 - 1 - kEntryHeaderSize < request.data.length then some (.failed .kInvalidArgument, s)
  else
    match s.activeBlock with
    | none => some (.failed .kIOError, s)
    | some b =>
        if (s.blocks b).capacity < diskSize then some (.direct, s)
        else if (s.blocks b).capacity < (s.blocks b).pos + diskSize then
          (s.retireBlock b).acquireAndAppend request io
        else s.appendEntry b request

def segmentForEntry (s : BlobStore) (diskSize : Nat) (io : SegmentIo) : BlobStore :=
  match s.currentSegment with
  | none => s.createNewSegment io
  | some seg =>
      if s.config.segmentSize.toNat < seg.writeOffset + diskSize then s.createNewSegment io else s

/-- The zero-filled buffer of a direct write. -/
def directBytes (s : BlobStore) (request : WriteRequest) : List UInt8 :=
  let diskSize := entryDiskSize request.data.length
  slice (layEntry (fun _ => 0) 0 (s.entryHeader request) request.data diskSize) 0 diskSize

/-- The direct path, all of it under `segments_mu_`. -/
def writeDirect (s : BlobStore) (request : WriteRequest) (io : SegmentIo) (result : IoResult) :
    Option (WriteOutcome × BlobStore) :=
  let diskSize := entryDiskSize request.data.length
  let s := s.segmentForEntry diskSize io
  match s.activeSegment with
  | none => none
  | some active =>
      match s.segments[active]? with
      | none => none
      | some seg =>
          let written := syncWrite s.files seg.fd (s.directBytes request) seg.writeOffset result
          let s := { s with writeSequence := s.writeSequence + 1, files := written.2 }
          if written.1 < 0 then some (.failed .kIOError, s)
          else
            some (.stored
                { segmentId := seg.id
                  offset := seg.writeOffset
                  length := request.data.length % 2 ^ 32
                  diskSize := diskSize % 2 ^ 32 },
              { s with segments := s.segments.modify active (·.advance diskSize) })

/-! ## Flushing -/

inductive FlushPc where
  | idle
  | writing (b : Nat)
  | written (b : Nat)
  deriving DecidableEq, Repr

def FlushPc.block : FlushPc → Option Nat
  | .idle => none
  | .writing b => some b
  | .written b => some b

/-- The locked section that takes a block off the queue. -/
def flushPop (s : BlobStore) : Option (FlushPc × BlobStore) :=
  match s.flushQueue with
  | [] => none
  | b :: rest =>
      if (s.blocks b).pos = 0 then
        some (.idle, { s with flushQueue := rest, freePool := b :: s.freePool })
      else some (.writing b, { s with flushQueue := rest, flushingBlock := some b })

/-- The single `pwrite` of the block. A failure is only counted. -/
def flushWrite (s : BlobStore) (b : Nat) (result : IoResult) : BlobStore :=
  let block := s.blocks b
  let bytes := slice block.buf 0 (alignUp block.pos kAlignment)
  { s with files := (syncWrite s.files block.segmentFd bytes block.segmentOffset result).2 }

def flushRelease (s : BlobStore) (b : Nat) : BlobStore :=
  { s with flushingBlock := none, freePool := b :: s.freePool }

inductive FlushStep where
  | pop
  | write (result : IoResult)
  | release
  deriving DecidableEq, Repr

def flushStep (s : BlobStore) : FlushPc → FlushStep → Option (FlushPc × BlobStore)
  | .idle, .pop => s.flushPop
  | .writing b, .write result => some (.written b, s.flushWrite b result)
  | .written b, .release => some (.idle, s.flushRelease b)
  | _, _ => none

/-! ## Reading -/

/-- The test of `find_in_pending_blocks` for one block. -/
def covers (s : BlobStore) (loc : BlobLocation) (b : Nat) : Bool :=
  (s.blocks b).segmentId = loc.segmentId && (s.blocks b).segmentOffset ≤ loc.offset &&
    loc.offset < (s.blocks b).segmentOffset + (s.blocks b).pos

def pendingBlocks (s : BlobStore) : List Nat :=
  s.activeBlock.toList ++ s.flushingBlock.toList ++ s.flushQueue

def findInPendingBlocks (s : BlobStore) (loc : BlobLocation) : Option Nat :=
  s.pendingBlocks.find? (s.covers loc)

/-- What `read` returns, and the bytes it leaves in the caller's buffer. -/
structure ReadReply where
  status : Status
  bytes : List UInt8 := []
  deriving DecidableEq, Repr

/-- The locked look at the pending blocks; `none` falls through to the disk. -/
def readPending (s : BlobStore) (loc : BlobLocation) (bufLen : Nat) : Option ReadReply :=
  match s.findInPendingBlocks loc with
  | none => none
  | some b =>
      let block := s.blocks b
      let offset := loc.offset - block.segmentOffset
      let blobSize := blobSizeAt block.buf offset
      if bufLen < blobSize then some { status := .kBufferTooSmall }
      else some { status := .kOk, bytes := blobAt block.buf offset blobSize }

def segmentFd (s : BlobStore) (segmentId : Nat) : Option SegmentPath :=
  (s.segments.find? (·.id = segmentId)).bind (·.fd)

/-- The read of the file and the checks after it; `none` is the retry of the
first attempt. `readOk` is false when the system fails the read. -/
def readDisk (s : BlobStore) (path : SegmentPath) (loc : BlobLocation) (bufLen attempt : Nat)
    (readOk : Bool) : Option ReadReply :=
  let bytes := (s.files path).pread loc.offset loc.diskSize
  let ret := if readOk then toInt32 bytes.length else -1
  if ret < toInt32 loc.diskSize then
    if attempt = 0 then none else some { status := .kNotFound }
  else
    let image := patch (fun _ => 0) 0 bytes
    let blobSize := blobSizeAt image 0
    if blobSize = 0 ∨ bufLen < blobSize then
      if blobSize = 0 ∧ attempt = 0 then none
      else if bufLen < blobSize then some { status := .kBufferTooSmall }
      else some { status := .kNotFound }
    else some { status := .kOk, bytes := blobAt image 0 blobSize }

def markDead (s : BlobStore) (loc : BlobLocation) : BlobStore :=
  match s.segments.findIdx? (·.id = loc.segmentId) with
  | none => s
  | some i =>
      { s with
        segments := s.segments.modify i fun seg =>
          if 0 < seg.liveCount then { seg with liveCount := seg.liveCount - 1 } else seg }

end BlobStore

end AttentionDB
