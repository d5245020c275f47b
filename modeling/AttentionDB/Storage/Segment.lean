import AttentionDB.Core.Types
import AttentionDB.Lib.FixedCodec

/-!
# The segment file format

A segment file is one 4 KiB header and a run of entries. An entry is a 64-byte
header, the blob, and zeros up to the next multiple of 4 KiB. The buffered path
stores the 54 named bytes of the entry header and leaves the reserved ones as
they were in the buffer.
-/

namespace AttentionDB

open ByteMap

set_option autoImplicit false

def kSegmentMagic : Nat := 0x41444253

def kSegmentVersion : Nat := 1

def kSegmentHeaderSize : Nat := 4096

def kEntryHeaderSize : Nat := 64

def kAlignment : Nat := 4096

def alignUp (val alignment : Nat) : Nat :=
  (BitVec.ofNat 64 (val + alignment - 1) &&& ~~~BitVec.ofNat 64 (alignment - 1)).toNat

def entryDiskSize (blobSize : Nat) : Nat :=
  let raw := (kEntryHeaderSize + blobSize) % 2 ^ 64
  if raw < blobSize then 2 ^ 64 - 1 else alignUp raw kAlignment

structure SegmentHeader where
  segmentId : Nat
  createdAt : Nat
  entryCount : Nat
  liveCount : Nat

def SegmentHeader.encode (header : SegmentHeader) : List UInt8 :=
  encodeLe 4 kSegmentMagic ++ encodeLe 4 kSegmentVersion ++ encodeLe 4 header.segmentId ++
    encodeLe 8 header.createdAt ++ encodeLe 4 header.entryCount ++ encodeLe 4 header.liveCount ++
    encodeLe 4 0 ++ List.replicate (4096 - 32) 0

/-- The packed key as `memcpy` copies it. -/
def StorageKey.bytes (key : StorageKey) : List UInt8 :=
  encodeLe 8 key.modelId.toNat ++ encodeLe 8 key.tenantId.toNat ++ encodeLe 8 key.chunkHash.toNat ++
    encodeLe 2 key.layerGroupId.toNat ++ encodeLe 4 key.chunkIndex.toNat

def keyCodec : FixedCodec StorageKey :=
  (FixedCodec.u64.pair <| FixedCodec.u64.pair <| FixedCodec.u64.pair <|
    FixedCodec.u16.pair FixedCodec.u32).xmap
    (fun fields => ⟨fields.1, fields.2.1, fields.2.2.1, fields.2.2.2.1, fields.2.2.2.2⟩)
    (fun key => (key.modelId, key.tenantId, key.chunkHash, key.layerGroupId, key.chunkIndex))
    (fun _ => rfl) fun _ => rfl

theorem key_width : keyCodec.width = 30 := rfl

theorem key_codec_bytes (key : StorageKey) : keyCodec.encode key = key.bytes := by
  unfold StorageKey.bytes
  simp only [List.append_assoc]
  rfl

structure BlobEntryHeader where
  blobSize : Nat
  paddedSize : Nat
  checksum : Nat
  sequence : Nat
  key : StorageKey

/-- The stored fields of the header, 54 of its 64 bytes. -/
def BlobEntryHeader.encode (header : BlobEntryHeader) : List UInt8 :=
  encodeLe 4 30 ++ encodeLe 4 header.blobSize ++ encodeLe 4 header.paddedSize ++
    encodeLe 4 header.checksum ++ encodeLe 8 header.sequence ++ header.key.bytes

def blobSizeAt (image : Image) (offset : Nat) : Nat := decodeLe (slice image (offset + 4) 4)

def blobAt (image : Image) (offset count : Nat) : List UInt8 :=
  slice image (offset + kEntryHeaderSize) count

/-- The bytes of the entry at `offset` read back as `blob`. -/
structure EntryAt (image : Image) (offset : Nat) (blob : List UInt8) : Prop where
  size : blobSizeAt image offset = blob.length
  bytes : blobAt image offset blob.length = blob

/-! ## Sizes -/

theorem align_up_eq (val : Nat) (fits : val + kAlignment - 1 < 2 ^ 64) :
    alignUp val kAlignment = (val + 4095) / 4096 * 4096 := by
  have masked : BitVec.ofNat 64 (val + kAlignment - 1) &&& ~~~BitVec.ofNat 64 (kAlignment - 1) =
      (BitVec.ofNat 64 (val + kAlignment - 1) >>> 12) <<< 12 := by
    apply BitVec.eq_of_getLsbD_eq
    intro i bound
    have low : (BitVec.ofNat 64 (kAlignment - 1)).getLsbD i = decide (i < 12) := by
      revert i
      decide
    simp only [BitVec.getLsbD_and, BitVec.getLsbD_not, BitVec.getLsbD_shiftLeft,
      BitVec.getLsbD_ushiftRight, low]
    by_cases below : i < 12
    · simp [below]
    · have inside : 12 + (i - 12) = i := by omega
      simp [below, bound, inside]
  unfold alignUp
  rw [masked, BitVec.toNat_shiftLeft, BitVec.toNat_ushiftRight, BitVec.toNat_ofNat,
    Nat.mod_eq_of_lt fits, Nat.shiftRight_eq_div_pow, Nat.shiftLeft_eq]
  unfold kAlignment at *
  omega

theorem entry_disk_size_eq (len : Nat) (short : len < 2 ^ 32) :
    entryDiskSize len = (len + 64 + 4095) / 4096 * 4096 := by
  have raw : (kEntryHeaderSize + len) % 2 ^ 64 = len + 64 := by
    unfold kEntryHeaderSize
    omega
  unfold entryDiskSize
  rw [raw, if_neg (by omega), align_up_eq _ (by unfold kAlignment; omega)]

theorem entry_fits (len : Nat) (short : len < 2 ^ 32) :
    kEntryHeaderSize + len ≤ entryDiskSize len := by
  rw [entry_disk_size_eq len short]
  unfold kEntryHeaderSize
  omega

theorem entry_disk_size_aligned (len : Nat) (short : len < 2 ^ 32) :
    entryDiskSize len % kAlignment = 0 := by
  rw [entry_disk_size_eq len short]
  unfold kAlignment
  omega

theorem entry_disk_size_le (len : Nat) (short : len < 2 ^ 32) :
    entryDiskSize len ≤ 2 ^ 32 + 4096 := by
  rw [entry_disk_size_eq len short]
  omega

theorem align_up_aligned (val : Nat) (small : val < 2 ^ 63) (aligned : val % kAlignment = 0) :
    alignUp val kAlignment = val := by
  rw [align_up_eq val (by unfold kAlignment; omega)]
  unfold kAlignment at aligned
  omega

@[simp] theorem key_bytes_length (key : StorageKey) : key.bytes.length = 30 := by
  simp [StorageKey.bytes]

@[simp] theorem entry_header_length (header : BlobEntryHeader) : header.encode.length = 54 := by
  simp [BlobEntryHeader.encode]

@[simp] theorem segment_header_length (header : SegmentHeader) :
    header.encode.length = kSegmentHeaderSize := by
  simp only [SegmentHeader.encode, List.length_append, encode_le_length, List.length_replicate]
  rfl

/-! ## Entries in a byte map -/

theorem header_blob_size (header : BlobEntryHeader) :
    (header.encode.drop 4).take 4 = encodeLe 4 header.blobSize := by
  unfold BlobEntryHeader.encode
  simp only [List.append_assoc]
  rw [List.drop_left' (encode_le_length 4 30), List.take_left' (encode_le_length 4 _)]

theorem EntryAt.congr {left right : Image} {first second : Nat} {blob : List UInt8}
    (same : ∀ i, i < kEntryHeaderSize + blob.length → left (first + i) = right (second + i))
    (entry : EntryAt right second blob) : EntryAt left first blob := by
  constructor
  · have header : slice left (first + 4) 4 = slice right (second + 4) 4 := by
      apply slice_congr
      intro i bound
      have shifted := same (4 + i) (by unfold kEntryHeaderSize; omega)
      simpa [Nat.add_assoc] using shifted
    unfold blobSizeAt
    rw [header]
    exact entry.size
  · have body : blobAt left first blob.length = blobAt right second blob.length := by
      apply slice_congr
      intro i bound
      have shifted := same (kEntryHeaderSize + i) (by omega)
      simpa [Nat.add_assoc] using shifted
    rw [body]
    exact entry.bytes

/-- A write that does not touch the entry keeps it. -/
theorem EntryAt.patch_apart {image : Image} {offset start : Nat} {blob bytes : List UInt8}
    (apart : offset + kEntryHeaderSize + blob.length ≤ start ∨ start + bytes.length ≤ offset)
    (entry : EntryAt image offset blob) : EntryAt (patch image start bytes) offset blob := by
  apply EntryAt.congr _ entry
  intro i bound
  exact patch_outside image start bytes (offset + i) (by omega)

/-- Copying a range that holds the whole entry copies the entry. -/
theorem EntryAt.patch_copy (target : Image) (dest total : Nat) {source : Image} {origin skip : Nat}
    {blob : List UInt8}
    (fits : skip + kEntryHeaderSize + blob.length ≤ total)
    (entry : EntryAt source (origin + skip) blob) :
    EntryAt (patch target dest (slice source origin total)) (dest + skip) blob := by
  apply EntryAt.congr _ entry
  intro i bound
  exact patch_slice_at target source dest origin total skip i (by omega)

def layEntry (image : Image) (offset : Nat) (header : BlobEntryHeader) (blob : List UInt8)
    (diskSize : Nat) : Image :=
  let image := patch image offset header.encode
  let image := patch image (offset + kEntryHeaderSize) blob
  patch image (offset + kEntryHeaderSize + blob.length)
    (List.replicate (diskSize - (kEntryHeaderSize + blob.length)) 0)

theorem lay_entry_outside (image : Image) (offset : Nat) (header : BlobEntryHeader)
    (blob : List UInt8) (diskSize i : Nat) (fits : kEntryHeaderSize + blob.length ≤ diskSize)
    (outside : i < offset ∨ offset + diskSize ≤ i) :
    layEntry image offset header blob diskSize i = image i := by
  unfold layEntry kEntryHeaderSize at *
  rw [patch_outside _ _ _ _ (by simp; omega), patch_outside _ _ _ _ (by omega),
    patch_outside _ _ _ _ (by simp; omega)]

theorem lay_entry_at (image : Image) (offset : Nat) (header : BlobEntryHeader)
    (blob : List UInt8) (diskSize : Nat) (size : header.blobSize = blob.length)
    (short : blob.length < 2 ^ 32) : EntryAt (layEntry image offset header blob diskSize) offset blob := by
  unfold layEntry
  constructor
  · unfold blobSizeAt
    rw [slice_patch_disjoint _ _ _ _ _ (by unfold kEntryHeaderSize; omega),
      slice_patch_disjoint _ _ _ _ _ (by unfold kEntryHeaderSize; omega),
      slice_patch_within _ _ _ _ _ (by simp), header_blob_size, decode_encode_le, size]
    omega
  · unfold blobAt
    rw [slice_patch_disjoint _ _ _ _ _ (by omega)]
    exact slice_patch_same _ _ blob

end AttentionDB
