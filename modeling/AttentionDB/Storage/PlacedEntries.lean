import AttentionDB.Lib.Rows
import AttentionDB.Storage.Gc
import AttentionDB.Storage.WriteSections

/-!
# The entry that a write leaves

What the header and the blob of a placed entry are, in a block and in a file,
and what the two reads of a GC walk see of an entry that is in the file.
-/

namespace AttentionDB

open ByteMap BlobStore Rows

set_option autoImplicit false

def headerOf (request : WriteRequest) (sequence : Nat) : BlobEntryHeader :=
  { blobSize := request.data.length
    paddedSize := entryDiskSize request.data.length
    checksum := request.checksum.toNat
    sequence
    key := request.key }

structure EntryOf (image : Image) (offset : Nat) (request : WriteRequest) : Prop where
  header : ∃ sequence, slice image offset 54 = (headerOf request sequence).encode
  blob : blobAt image offset request.data.length = request.data

section Entries

variable {image : Image} {offset : Nat} {request : WriteRequest}

theorem EntryOf.congr {left right : Image} {first second : Nat}
    (same : ∀ i, i < kEntryHeaderSize + request.data.length → left (first + i) = right (second + i))
    (entry : EntryOf right second request) : EntryOf left first request := by
  constructor
  · rcases entry.header with ⟨sequence, header⟩
    refine ⟨sequence, ?_⟩
    rw [← header]
    apply slice_congr
    intro i bound
    exact same i (by unfold kEntryHeaderSize; omega)
  · have moved : blobAt left first request.data.length = blobAt right second request.data.length := by
      apply slice_congr
      intro i bound
      have shifted := same (kEntryHeaderSize + i) (by omega)
      simpa [Nat.add_assoc] using shifted
    rw [moved]
    exact entry.blob

theorem EntryOf.patch_apart {start : Nat} {bytes : List UInt8}
    (apart : offset + kEntryHeaderSize + request.data.length ≤ start ∨ start + bytes.length ≤ offset)
    (entry : EntryOf image offset request) : EntryOf (patch image start bytes) offset request := by
  apply EntryOf.congr _ entry
  intro i bound
  exact patch_outside image start bytes (offset + i) (by omega)

theorem EntryOf.patch_copy (target : Image) (dest total : Nat) {source : Image} {origin skip : Nat}
    (fits : skip + kEntryHeaderSize + request.data.length ≤ total)
    (entry : EntryOf source (origin + skip) request) :
    EntryOf (patch target dest (slice source origin total)) (dest + skip) request := by
  apply EntryOf.congr _ entry
  intro i bound
  exact patch_slice_at target source dest origin total skip i (by omega)

/-- What the append and the direct path lay down. -/
theorem lay_entry_of (image : Image) (offset sequence diskSize : Nat) (request : WriteRequest) :
    EntryOf (layEntry image offset (headerOf request sequence) request.data diskSize) offset request := by
  unfold layEntry
  constructor
  · refine ⟨sequence, ?_⟩
    rw [slice_patch_disjoint _ _ _ _ _ (by unfold kEntryHeaderSize; omega),
      slice_patch_disjoint _ _ _ _ _ (by unfold kEntryHeaderSize; omega)]
    have whole := slice_patch_same image offset (headerOf request sequence).encode
    rwa [entry_header_length] at whole
  · unfold blobAt
    rw [slice_patch_disjoint _ _ _ _ _ (by omega)]
    exact slice_patch_same _ _ request.data

/-! ## The fields -/

theorem header_padded_size (header : BlobEntryHeader) :
    (header.encode.drop 8).take 4 = encodeLe 4 header.paddedSize := by
  have before : (encodeLe 4 30 ++ encodeLe 4 header.blobSize).length = 8 := by simp
  have parts : header.encode = (encodeLe 4 30 ++ encodeLe 4 header.blobSize) ++
      (encodeLe 4 header.paddedSize ++
        (encodeLe 4 header.checksum ++ (encodeLe 8 header.sequence ++ header.key.bytes))) := by
    simp only [BlobEntryHeader.encode, List.append_assoc]
  rw [parts, List.drop_left' before, List.take_left' (encode_le_length 4 _)]

theorem header_checksum (header : BlobEntryHeader) :
    (header.encode.drop 12).take 4 = encodeLe 4 header.checksum := by
  have before : (encodeLe 4 30 ++ encodeLe 4 header.blobSize ++ encodeLe 4 header.paddedSize).length =
      12 := by simp
  have parts : header.encode =
      (encodeLe 4 30 ++ encodeLe 4 header.blobSize ++ encodeLe 4 header.paddedSize) ++
        (encodeLe 4 header.checksum ++ (encodeLe 8 header.sequence ++ header.key.bytes)) := by
    simp only [BlobEntryHeader.encode, List.append_assoc]
  rw [parts, List.drop_left' before, List.take_left' (encode_le_length 4 _)]

theorem header_key (header : BlobEntryHeader) :
    (header.encode.drop 24).take 30 = header.key.bytes := by
  have before : (encodeLe 4 30 ++ encodeLe 4 header.blobSize ++ encodeLe 4 header.paddedSize ++
      encodeLe 4 header.checksum ++ encodeLe 8 header.sequence).length = 24 := by simp
  unfold BlobEntryHeader.encode
  rw [List.drop_left' before]
  exact List.take_of_length_le (by simp)

/-- A field of the header is a part of its encoding. -/
theorem header_field {sequence : Nat} (header : slice image offset 54 = (headerOf request sequence).encode)
    (skip keep : Nat) (fits : skip + keep ≤ 54) :
    slice image (offset + skip) keep = ((headerOf request sequence).encode.drop skip).take keep := by
  rw [← header, slice_drop_take _ _ _ _ _ fits]

theorem padded_size_of {sequence : Nat}
    (header : slice image offset 54 = (headerOf request sequence).encode)
    (small : entryDiskSize request.data.length < 2 ^ 32) :
    paddedSizeAt image offset = entryDiskSize request.data.length := by
  unfold paddedSizeAt
  rw [header_field header 8 4 (by omega), header_padded_size, decode_encode_le]
  exact Nat.mod_eq_of_lt small

theorem EntryOf.key (entry : EntryOf image offset request) : keyAt image offset = request.key := by
  rcases entry.header with ⟨sequence, header⟩
  unfold keyAt
  rw [key_width, header_field header 24 30 (by omega), header_key, ← key_codec_bytes,
    keyCodec.decode_encode]
  rfl

theorem EntryOf.checksum (entry : EntryOf image offset request) :
    checksumAt image offset = request.checksum := by
  rcases entry.header with ⟨sequence, header⟩
  unfold checksumAt
  rw [header_field header 12 4 (by omega), header_checksum, decode_encode_le]
  have bound := request.checksum.toNat_lt
  have same : (headerOf request sequence).checksum % 256 ^ 4 = request.checksum.toNat :=
    Nat.mod_eq_of_lt bound
  rw [same, UInt32.ofNat_toNat]

theorem EntryOf.blob_size (entry : EntryOf image offset request) (short : request.data.length < 2 ^ 32) :
    blobSizeAt image offset = request.data.length := by
  rcases entry.header with ⟨sequence, header⟩
  unfold blobSizeAt
  rw [header_field header 4 4 (by omega), header_blob_size, decode_encode_le]
  exact Nat.mod_eq_of_lt short

end Entries

/-! ## The two reads of the walk -/

structure FileHolds (file : File) (offset : Nat) (request : WriteRequest) : Prop where
  inside : offset + entryDiskSize request.data.length ≤ file.size
  entry : EntryOf file.data offset request

structure RequestOk (request : WriteRequest) : Prop where
  short : request.data.length < 2 ^ 32
  small : entryDiskSize request.data.length < 2 ^ 32

theorem RequestOk.positive {request : WriteRequest} (ok : RequestOk request) :
    0 < entryDiskSize request.data.length := by
  have fits := entry_fits request.data.length ok.short
  unfold kEntryHeaderSize at fits
  omega

section Reads

variable {s : BlobStore} {scan : GcScan} {request : WriteRequest}

theorem gc_reads_header (ok : RequestOk request)
    (holds : FileHolds (s.files scan.path) scan.offset request) :
    s.gcReadHeader scan true = some (entryDiskSize request.data.length) := by
  have fits := entry_fits request.data.length ok.short
  have inside := holds.inside
  have whole : min kEntryHeaderSize ((s.files scan.path).size - scan.offset) = kEntryHeaderSize := by
    omega
  have padded : paddedSizeAt (patch (fun _ => 0) 0
      ((s.files scan.path).pread scan.offset kEntryHeaderSize)) 0 =
        entryDiskSize request.data.length := by
    rcases holds.entry.header with ⟨sequence, header⟩
    have copied := slice_patch_copy (fun _ => 0) (s.files scan.path).data 0 scan.offset
      kEntryHeaderSize 0 54 (by decide)
    rw [File.pread, whole]
    apply padded_size_of _ ok.small
    · exact sequence
    · simpa [header] using copied
  have positive := ok.positive
  have length : ((s.files scan.path).pread scan.offset kEntryHeaderSize).length = kEntryHeaderSize := by
    rw [File.pread, whole, slice_length]
  unfold gcReadHeader
  simp only [padded, length, if_true]
  rw [if_neg (Int.lt_irrefl _), if_neg (by omega)]

theorem gc_reads_entry (ok : RequestOk request)
    (holds : FileHolds (s.files scan.path) scan.offset request) :
    s.gcReadEntry scan (entryDiskSize request.data.length) true = some request := by
  have fits := entry_fits request.data.length ok.short
  have inside := holds.inside
  have whole : min (entryDiskSize request.data.length) ((s.files scan.path).size - scan.offset) =
      entryDiskSize request.data.length := by
    omega
  have read : EntryOf (patch (fun _ => 0) 0 ((s.files scan.path).pread scan.offset
      (entryDiskSize request.data.length))) 0 request := by
    rw [File.pread, whole]
    have start : EntryOf (s.files scan.path).data (scan.offset + 0) request := holds.entry
    have copied := start.patch_copy (fun _ => 0) 0 (entryDiskSize request.data.length) (by omega)
    exact copied
  have length : ((s.files scan.path).pread scan.offset (entryDiskSize request.data.length)).length =
      entryDiskSize request.data.length := by
    rw [File.pread, whole, slice_length]
  unfold gcReadEntry
  simp only [length, if_true, read.key, read.checksum, read.blob_size ok.short, read.blob]
  rw [if_neg (Int.lt_irrefl _)]

end Reads

end AttentionDB
