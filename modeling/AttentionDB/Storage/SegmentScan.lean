import AttentionDB.Storage.PlacedEntries
import AttentionDB.Storage.GcSafety
import Mathlib.Logic.Relation

/-!
# What readers take from on-disk headers

`read` and the scan of `gc_compact_segment` allocate a buffer, let `sync_read`
fill it, and then follow the sizes of the header they find there. Each range of
a buffer that they touch is kept, with the size of the buffer. The scan is a
loop over the offsets of the file; it gets fuel, and enough of it is what the
length of the segment allows. A read buffer that cannot be allocated is a read
that fails, as `sync_read` then does.
-/

namespace AttentionDB

open ByteMap GuardedRuns

set_option autoImplicit false

/-! ## Reading into a buffer -/

/-- How a `sync_read` ends: with the request or the file, or with an error of
the system after a part of it. -/
inductive ReadResult where
  | complete
  | failed (transferred errno : Nat)
  deriving DecidableEq, Repr

/-- What `sync_read` returns, and the bytes it has stored by then. -/
def File.syncRead (file : File) (offset count : Nat) : ReadResult → Int × List UInt8
  | .complete => (toInt32 (file.pread offset count).length, file.pread offset count)
  | .failed transferred errno => (-(errno : Int), (file.pread offset count).take transferred)

/-- The bytes `[start, start + count)` of a buffer of `size` bytes are used. -/
structure BufferAccess where
  size : Nat
  start : Nat
  count : Nat
  deriving DecidableEq, Repr

def BufferAccess.Inside (access : BufferAccess) : Prop := access.start + access.count ≤ access.size

instance (access : BufferAccess) : Decidable access.Inside := inferInstanceAs (Decidable (_ ≤ _))

/-! ## The disk path of read -/

def receivedBlobSize (file : File) (loc : BlobLocation) (result : ReadResult) : Nat :=
  blobSizeAt (patch (fun _ => 0) 0 (file.syncRead loc.offset loc.diskSize result).2) 0

/-- What one attempt of `read` takes from its buffer: the size in the header,
and the blob that it copies to the caller. -/
def readAccesses (file : File) (loc : BlobLocation) (bufLen : Nat) (result : ReadResult) :
    List BufferAccess :=
  if (file.syncRead loc.offset loc.diskSize result).1 < toInt32 loc.diskSize then []
  else
    let blobSize := receivedBlobSize file loc result
    { size := loc.diskSize, start := 4, count := 4 } ::
      if blobSize = 0 ∨ bufLen < blobSize then []
      else [{ size := loc.diskSize, start := kEntryHeaderSize, count := blobSize }]

/-- A reply with bytes is the copy of the range after the header. -/
theorem read_disk_copies {s : BlobStore} {path : SegmentPath} {loc : BlobLocation}
    {bufLen attempt : Nat} {reply : BlobStore.ReadReply}
    (run : s.readDisk path loc bufLen attempt true = some reply) (ok : reply.status = .kOk) :
    readAccesses (s.files path) loc bufLen .complete =
      [{ size := loc.diskSize, start := 4, count := 4 },
       { size := loc.diskSize, start := kEntryHeaderSize, count := reply.bytes.length }] := by
  let file := s.files path
  unfold BlobStore.readDisk at run
  simp only [if_true] at run
  unfold readAccesses
  split at run
  · split at run
    · contradiction
    · cases run
      contradiction
  · rename_i whole
    have enough : ¬(file.syncRead loc.offset loc.diskSize .complete).1 < toInt32 loc.diskSize := whole
    rw [if_neg enough]
    split at run
    · split at run
      · contradiction
      · split at run
        all_goals
          cases run
          contradiction
    · rename_i read
      have usable : ¬(receivedBlobSize file loc .complete = 0 ∨
          bufLen < receivedBlobSize file loc .complete) := read
      cases run
      simp only [blobAt, slice_length]
      rw [if_neg usable]
      rfl

/-- The range is inside the buffer unless a header that the checks let pass
claims more than the entry has room for. -/
theorem read_inside_iff (file : File) (loc : BlobLocation) (bufLen : Nat) (result : ReadResult) :
    (∀ access ∈ readAccesses file loc bufLen result, access.Inside) ↔
      (toInt32 loc.diskSize ≤ (file.syncRead loc.offset loc.diskSize result).1 →
        8 ≤ loc.diskSize ∧
          (receivedBlobSize file loc result ≠ 0 → receivedBlobSize file loc result ≤ bufLen →
            kEntryHeaderSize + receivedBlobSize file loc result ≤ loc.diskSize)) := by
  unfold readAccesses
  by_cases short : (file.syncRead loc.offset loc.diskSize result).1 < toInt32 loc.diskSize
  · simp [short]
  · have passes : toInt32 loc.diskSize ≤ (file.syncRead loc.offset loc.diskSize result).1 := by omega
    rw [if_neg short]
    by_cases unusable : receivedBlobSize file loc result = 0 ∨
        bufLen < receivedBlobSize file loc result
    · have vacuous : receivedBlobSize file loc result ≠ 0 →
          ¬receivedBlobSize file loc result ≤ bufLen := by
        omega
      simp +contextual [unusable, passes, vacuous, BufferAccess.Inside]
    · have usable : receivedBlobSize file loc result ≠ 0 ∧
          receivedBlobSize file loc result ≤ bufLen := by
        omega
      simp [passes, usable, BufferAccess.Inside]

/-- Below 2 GiB only a read of the whole range passes. -/
theorem read_passes_whole {file : File} {loc : BlobLocation} {result : ReadResult}
    (positive : 8 ≤ loc.diskSize) (small : loc.diskSize < 2 ^ 31)
    (passes : toInt32 loc.diskSize ≤ (file.syncRead loc.offset loc.diskSize result).1) :
    loc.offset + loc.diskSize ≤ file.size ∧
      receivedBlobSize file loc result = blobSizeAt file.data loc.offset := by
  rw [BlobStore.to_int32_small _ small] at passes
  cases result with
  | failed transferred errno =>
      simp only [File.syncRead] at passes
      omega
  | complete =>
      have count : min loc.diskSize (file.size - loc.offset) < 2 ^ 31 := by omega
      simp only [File.syncRead, File.pread, slice_length, BlobStore.to_int32_small _ count] at passes
      have whole : min loc.diskSize (file.size - loc.offset) = loc.diskSize := by omega
      refine ⟨by omega, ?_⟩
      have copied := slice_patch_copy (fun _ => 0) file.data 0 loc.offset loc.diskSize 4 4 (by omega)
      simp only [receivedBlobSize, File.syncRead, File.pread, whole, blobSizeAt]
      exact congrArg decodeLe copied

/-- An entry that is still as it was written keeps its reads inside. -/
theorem intact_read_inside {s : BlobStore} {config : NvmeStoreConfig} {ack : Ack} {path : SegmentPath}
    (shape : BlobStore.AckShape config ack) (disk : BlobStore.OnDisk s ack path) (bufLen : Nat)
    (result : ReadResult) :
    ∀ access ∈ readAccesses (s.files path) ack.loc bufLen result, access.Inside := by
  have room := shape.positive
  unfold kEntryHeaderSize at room
  apply (read_inside_iff _ _ _ _).2
  intro passes
  rcases read_passes_whole (by omega) shape.small passes with ⟨_, size⟩
  refine ⟨by omega, ?_⟩
  intro _ _
  rw [size, disk.entry.size]
  unfold kEntryHeaderSize
  omega

/-! ## The scan -/

/-- The system's part at one offset of the scan, and what the entry buffer
holds before it is read into. -/
structure ScanIo where
  header : ReadResult := .complete
  allocated : Bool := true
  memory : Image := fun _ => 0
  entry : ReadResult := .complete

/-- `EFAULT`, which a read into a null buffer fails with. -/
def kBadAddress : Nat := 14

def ScanIo.entryRead (io : ScanIo) : ReadResult :=
  if io.allocated then io.entry else .failed 0 kBadAddress

def ScanIo.bufferSize (io : ScanIo) (paddedSize : Nat) : Nat := if io.allocated then paddedSize else 0

/-- The read of a header, `padded_size` of it; `none` ends the scan. -/
def File.scanHeader (file : File) (offset : Nat) (result : ReadResult) : Option Nat :=
  let read := file.syncRead offset kEntryHeaderSize result
  if read.1 < toInt32 kEntryHeaderSize then none
  else some (paddedSizeAt (patch (fun _ => 0) 0 read.2) 0)

def File.scanEntry (file : File) (offset paddedSize : Nat) (io : ScanIo) : Option Image :=
  let read := file.syncRead offset paddedSize io.entryRead
  if read.1 < toInt32 paddedSize then none else some (patch io.memory 0 read.2)

def entryCall (buffer : Image) : WriteRequest :=
  { key := keyAt buffer 0
    data := blobAt buffer 0 (blobSizeAt buffer 0)
    checksum := checksumAt buffer 0 }

/-- A header was looked at, or a callback was made from a buffer of `size`
bytes for the entry at `offset`. -/
inductive ScanEvent where
  | header
  | entry (offset size : Nat) (call : WriteRequest)
  deriving DecidableEq

/-- The ranges: `padded_size` in `read_buf`; `key_data`, `blob_size`,
`checksum` and the callback's blob in `full_buf`. -/
def ScanEvent.accesses : ScanEvent → List BufferAccess
  | .header => [{ size := kAlignment, start := 8, count := 4 }]
  | .entry _ size call =>
      [{ size, start := 24, count := keyCodec.width },
       { size, start := 4, count := 4 },
       { size, start := 12, count := 4 },
       { size, start := kEntryHeaderSize, count := call.data.length }]

/-- The loop of `gc_compact_segment` over one file, from `offset` on. -/
def gcWalk (file : File) (writeOffset : Nat) (io : Nat → ScanIo) : Nat → Nat → Option (List ScanEvent)
  | 0, _ => none
  | fuel + 1, offset =>
      if offset < writeOffset then
        match file.scanHeader offset (io offset).header with
        | none => some []
        | some paddedSize =>
            if paddedSize = 0 then some [.header]
            else
              match file.scanEntry offset paddedSize (io offset) with
              | none => some [.header]
              | some buffer =>
                  (gcWalk file writeOffset io fuel (offset + paddedSize)).map fun later =>
                    .header :: .entry offset ((io offset).bufferSize paddedSize) (entryCall buffer) ::
                      later
      else some []

/-! ## The sections of the GC thread do the same -/

theorem gc_read_header_scan (s : BlobStore) (scan : GcScan) :
    s.gcReadHeader scan true =
      ((s.files scan.path).scanHeader scan.offset .complete).filter (· ≠ 0) := by
  unfold BlobStore.gcReadHeader File.scanHeader File.syncRead
  simp only [if_true]
  split
  · rfl
  · split
    · rename_i zero
      simp [Option.filter, zero]
    · rename_i positive
      simp [Option.filter, positive]

theorem gc_read_entry_scan (s : BlobStore) (scan : GcScan) (paddedSize : Nat) :
    s.gcReadEntry scan paddedSize true =
      ((s.files scan.path).scanEntry scan.offset paddedSize {}).map entryCall := by
  unfold BlobStore.gcReadEntry File.scanEntry File.syncRead
  simp only [if_true, ScanIo.entryRead]
  split <;> rfl

/-! ## What a header on disk decides -/

section Scan

variable {file : File} {writeOffset : Nat} {io : Nat → ScanIo} {offset : Nat}

/-- The header at `offset` passes the checks of the scan: it is in the file,
`padded_size` is not zero, and the read of that many bytes is not found short. -/
structure HeaderPasses (file : File) (offset : Nat) (io : ScanIo) : Prop where
  honoured : io.header = .complete
  inFile : offset + kEntryHeaderSize ≤ file.size
  nonzero : paddedSizeAt file.data offset ≠ 0
  enough : toInt32 (paddedSizeAt file.data offset) ≤
    (file.syncRead offset (paddedSizeAt file.data offset) io.entryRead).1

def entryBuffer (file : File) (offset : Nat) (io : ScanIo) : Image :=
  patch io.memory 0 (file.syncRead offset (paddedSizeAt file.data offset) io.entryRead).2

def HeaderFits (file : File) (offset : Nat) (io : ScanIo) : Prop :=
  kEntryHeaderSize + blobSizeAt (entryBuffer file offset io) 0 ≤
    io.bufferSize (paddedSizeAt file.data offset)

def ScanNext (file : File) (writeOffset : Nat) (io : Nat → ScanIo) (offset next : Nat) : Prop :=
  offset < writeOffset ∧ HeaderPasses file offset (io offset) ∧
    next = offset + paddedSizeAt file.data offset

theorem scan_header_some (result : ReadResult) (paddedSize : Nat) :
    file.scanHeader offset result = some paddedSize ↔
      result = .complete ∧ offset + kEntryHeaderSize ≤ file.size ∧
        paddedSize = paddedSizeAt file.data offset := by
  have width : toInt32 kEntryHeaderSize = 64 := rfl
  unfold File.scanHeader
  cases result with
  | failed transferred errno =>
      have short : -(errno : Int) < toInt32 kEntryHeaderSize := by omega
      simp [File.syncRead, short]
  | complete =>
      have count : min kEntryHeaderSize (file.size - offset) < 2 ^ 31 := by
        unfold kEntryHeaderSize
        omega
      simp only [File.syncRead, File.pread, slice_length, BlobStore.to_int32_small _ count, width]
      by_cases whole : min kEntryHeaderSize (file.size - offset) = kEntryHeaderSize
      · have inFile : offset + kEntryHeaderSize ≤ file.size := by
          unfold kEntryHeaderSize at *
          omega
        have copied := slice_patch_copy (fun _ => 0) file.data 0 offset kEntryHeaderSize 8 4 (by decide)
        have padded : paddedSizeAt (patch (fun _ => 0) 0 (slice file.data offset kEntryHeaderSize)) 0 =
            paddedSizeAt file.data offset := congrArg decodeLe copied
        rw [whole, if_neg (by decide), padded]
        simp [inFile, eq_comm]
      · have outside : ¬offset + kEntryHeaderSize ≤ file.size := by omega
        rw [if_pos (by unfold kEntryHeaderSize at *; omega)]
        simp [outside]

theorem scan_entry_some (buffer : Image) :
    file.scanEntry offset (paddedSizeAt file.data offset) (io offset) = some buffer ↔
      toInt32 (paddedSizeAt file.data offset) ≤
          (file.syncRead offset (paddedSizeAt file.data offset) (io offset).entryRead).1 ∧
        buffer = entryBuffer file offset (io offset) := by
  unfold File.scanEntry
  simp only
  split
  · rename_i short
    simp [short]
  · rename_i whole
    have enough := Int.not_lt.1 whole
    simp [enough, entryBuffer, eq_comm]

/-- One round of the loop. -/
theorem walk_cases (file : File) (writeOffset : Nat) (io : Nat → ScanIo) (offset : Nat) :
    (∃ events, (∀ event ∈ events, event = .header) ∧
      (∀ next, ¬ScanNext file writeOffset io offset next) ∧
      ∀ fuel, gcWalk file writeOffset io (fuel + 1) offset = some events) ∨
    (ScanNext file writeOffset io offset (offset + paddedSizeAt file.data offset) ∧
      ∀ fuel, gcWalk file writeOffset io (fuel + 1) offset =
        (gcWalk file writeOffset io fuel (offset + paddedSizeAt file.data offset)).map fun later =>
          .header ::
            .entry offset ((io offset).bufferSize (paddedSizeAt file.data offset))
              (entryCall (entryBuffer file offset (io offset))) :: later) := by
  by_cases below : offset < writeOffset
  · cases header : file.scanHeader offset (io offset).header with
    | none =>
        left
        refine ⟨[], by simp, ?_, fun fuel => by simp [gcWalk, below, header]⟩
        rintro next ⟨_, passes, _⟩
        have found : file.scanHeader offset (io offset).header = some _ :=
          (scan_header_some _ _).2 ⟨passes.honoured, passes.inFile, rfl⟩
        rw [header] at found
        contradiction
    | some paddedSize =>
        rcases (scan_header_some _ _).1 header with ⟨honoured, inFile, rfl⟩
        by_cases zero : paddedSizeAt file.data offset = 0
        · left
          refine ⟨[.header], by simp, ?_, fun fuel => by simp [gcWalk, below, header, zero]⟩
          rintro next ⟨_, passes, _⟩
          exact passes.nonzero zero
        · cases entry : file.scanEntry offset (paddedSizeAt file.data offset) (io offset) with
          | none =>
              left
              refine ⟨[.header], by simp, ?_, fun fuel => by simp [gcWalk, below, header, zero, entry]⟩
              rintro next ⟨_, passes, _⟩
              have found : file.scanEntry offset (paddedSizeAt file.data offset) (io offset) = some _ :=
                (scan_entry_some _).2 ⟨passes.enough, rfl⟩
              rw [entry] at found
              contradiction
          | some buffer =>
              right
              rcases (scan_entry_some _).1 entry with ⟨enough, rfl⟩
              exact ⟨⟨below, ⟨honoured, inFile, zero, enough⟩, rfl⟩,
                fun fuel => by simp [gcWalk, below, header, zero, entry]⟩
  · left
    refine ⟨[], by simp, ?_, fun fuel => by simp [gcWalk, below]⟩
    rintro next ⟨inside, _⟩
    exact below inside

theorem entry_accesses_inside (visited size : Nat) (buffer : Image) :
    (∀ access ∈ (ScanEvent.entry visited size (entryCall buffer)).accesses, access.Inside) ↔
      kEntryHeaderSize + blobSizeAt buffer 0 ≤ size := by
  simp only [ScanEvent.accesses, entryCall, blobAt, slice_length, key_width, List.forall_mem_cons,
    List.not_mem_nil, false_imp_iff, implies_true, and_true, BufferAccess.Inside]
  unfold kEntryHeaderSize
  omega

theorem header_access_inside : ∀ access ∈ ScanEvent.header.accesses, access.Inside := by decide

/-- The scan ends, within as many rounds as there are bytes to go, and stays
inside its buffers unless a header that it follows claims too much. -/
theorem walk_inside_iff (file : File) (writeOffset : Nat) (io : Nat → ScanIo) (start bound : Nat)
    (enough : writeOffset - start < bound) : ∃ events,
      (∀ fuel, bound ≤ fuel → gcWalk file writeOffset io fuel start = some events) ∧
      ((∀ event ∈ events, ∀ access ∈ event.accesses, access.Inside) ↔
        ∀ offset, Relation.ReflTransGen (ScanNext file writeOffset io) start offset →
          offset < writeOffset → HeaderPasses file offset (io offset) →
            HeaderFits file offset (io offset)) := by
  induction bound generalizing start with
  | zero => omega
  | succ bound ih =>
      have positive : ∀ fuel, bound + 1 ≤ fuel → ∃ less, fuel = less + 1 ∧ bound ≤ less :=
        fun fuel more => ⟨fuel - 1, by omega, by omega⟩
      rcases walk_cases file writeOffset io start with ⟨events, headers, stuck, ends⟩ | ⟨next, goesOn⟩
      · refine ⟨events, ?_, ?_⟩
        · intro fuel more
          rcases positive fuel more with ⟨less, rfl, _⟩
          exact ends less
        · constructor
          · intro _ offset reached below passes
            -- no round follows, so the only offset is the first one, and it does not pass
            rcases Relation.ReflTransGen.cases_head reached with rfl | ⟨next, step, _⟩
            · exact absurd ⟨below, passes, rfl⟩ (stuck _)
            · exact absurd step (stuck next)
          · intro _ event member
            rw [headers event member]
            exact header_access_inside
      · have nonzero := next.2.1.nonzero
        have below := next.1
        rcases ih (start + paddedSizeAt file.data start) (by omega) with ⟨later, ends, inside⟩
        refine ⟨.header ::
          .entry start ((io start).bufferSize (paddedSizeAt file.data start))
            (entryCall (entryBuffer file start (io start))) :: later, ?_, ?_⟩
        · intro fuel more
          rcases positive fuel more with ⟨less, rfl, most⟩
          rw [goesOn less, ends less most]
          rfl
        · simp only [List.forall_mem_cons, entry_accesses_inside]
          rw [inside]
          constructor
          · rintro ⟨_, fits, rest⟩ offset reached inFile passes
            rcases Relation.ReflTransGen.cases_head reached with rfl | ⟨middle, step, onward⟩
            · exact fits
            · rw [step.2.2] at onward
              exact rest offset onward inFile passes
          · intro all
            refine ⟨header_access_inside, all start .refl below next.2.1, ?_⟩
            intro offset onward inFile passes
            exact all offset (.head next onward) inFile passes

end Scan

/-! ## Trusting the sizes on disk -/

/-- For every content of the file: a read of any location stays inside its
buffer exactly when a header that passes the checks claims no more than
`disk_size` has room for, and the scan of a segment, which always ends, stays
inside exactly when this holds of every header that it follows. -/
theorem header_trust_iff (file : File) (loc : BlobLocation) (bufLen : Nat) (result : ReadResult)
    (writeOffset : Nat) (io : Nat → ScanIo) :
    ((∀ access ∈ readAccesses file loc bufLen result, access.Inside) ↔
      (toInt32 loc.diskSize ≤ (file.syncRead loc.offset loc.diskSize result).1 →
        8 ≤ loc.diskSize ∧
          (receivedBlobSize file loc result ≠ 0 → receivedBlobSize file loc result ≤ bufLen →
            kEntryHeaderSize + receivedBlobSize file loc result ≤ loc.diskSize))) ∧
    ∃ events,
      (∀ fuel, writeOffset - kSegmentHeaderSize + 1 ≤ fuel →
        gcWalk file writeOffset io fuel kSegmentHeaderSize = some events) ∧
      ((∀ event ∈ events, ∀ access ∈ event.accesses, access.Inside) ↔
        ∀ offset, Relation.ReflTransGen (ScanNext file writeOffset io) kSegmentHeaderSize offset →
          offset < writeOffset → HeaderPasses file offset (io offset) →
            HeaderFits file offset (io offset)) :=
  ⟨read_inside_iff file loc bufLen result,
    walk_inside_iff file writeOffset io kSegmentHeaderSize _ (Nat.lt_succ_self _)⟩

def openedSystem : StoreSystem :=
  { store := (BlobStore.openStore twoBlockConfig (fun _ => File.empty) {}).2 }

def writtenSystem : StoreSystem :=
  last storeMachine openedSystem [.writeBegin 0 (smallRequest 1) {}]

def writtenAck : Ack := { loc := smallLocation 1, data := [1], block := some 1 }

/-- A file whose only header claims `blobSize` bytes of blob and `paddedSize`
bytes of entry. -/
def claimingFile (blobSize paddedSize : Nat) : File :=
  { size := 8192
    data := patch (patch (fun _ => 0) (4096 + 4) (encodeLe 4 blobSize)) (4096 + 8)
      (encodeLe 4 paddedSize) }

/-- A header that claims 5000 bytes in an entry of 4096 makes `read` copy past
its buffer, and one that claims an entry of a single byte makes the scan look
past its own. -/
theorem claimed_sizes_overrun :
    (Reach storeMachine writtenSystem ∧ writtenAck ∈ writtenSystem.acked ∧
      ¬∀ access ∈ readAccesses (claimingFile 5000 4096) writtenAck.loc 8192 .complete,
        access.Inside) ∧
    ∃ events, gcWalk (claimingFile 0 1) 8192 (fun _ => {}) 4097 kSegmentHeaderSize = some events ∧
      ¬∀ event ∈ events, ∀ access ∈ event.accesses, access.Inside := by
  have started : Reach storeMachine openedSystem :=
    .start ⟨twoBlockConfig, fun _ => File.empty, {}, by decide, rfl⟩
  have written : Reach storeMachine writtenSystem := started.to_last _ (by decide +kernel)
  have scanned : ((gcWalk (claimingFile 0 1) 8192 (fun _ => {}) 4097 kSegmentHeaderSize).map fun events =>
      decide (∀ event ∈ events, ∀ access ∈ event.accesses, access.Inside)) = some false := by
    decide +kernel
  refine ⟨⟨written, by decide +kernel, by decide +kernel⟩, ?_⟩
  rcases Option.map_eq_some_iff.1 scanned with ⟨events, ends, outside⟩
  exact ⟨events, ends, of_decide_eq_false outside⟩

end AttentionDB
