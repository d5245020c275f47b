import AttentionDB.Engine.Engine
import AttentionDB.Storage.PlacedEntries

/-!
# The width of an entry's size

The size of an entry is computed in 64 bits, stored in 32-bit fields, and
returned as an `int` by the I/O engine that writes it. The only check is on the
length of the blob, before rounding: it lets through sizes that the narrower
types cannot hold.
-/

namespace AttentionDB

open ByteMap BlobStore

set_option autoImplicit false

/-- What the length check of `write` accepts. -/
def Accepted (len : Nat) : Prop := len ≤ 2 ^ 32 - 1 - kEntryHeaderSize

variable {len : Nat}

theorem Accepted.short (accepted : Accepted len) : len < 2 ^ 32 := by
  unfold Accepted at accepted
  omega

/-! ## The two narrow types -/

/-- An `int` holds what a `size_t` counted exactly below 2^31. -/
theorem to_int32_exact (n : Nat) : toInt32 n = n ↔ n < 2 ^ 31 := by
  constructor
  · intro exactly
    have bound : 2 * (BitVec.ofNat 32 n).toInt < 2 ^ 32 := BitVec.two_mul_toInt_lt
    unfold toInt32 at exactly
    omega
  · exact to_int32_small n

theorem size_fits_int (short : len < 2 ^ 32) :
    entryDiskSize len < 2 ^ 31 ↔ len ≤ 2 ^ 31 - kAlignment - kEntryHeaderSize := by
  rw [entry_disk_size_eq len short]
  unfold kAlignment kEntryHeaderSize
  omega

theorem size_fits_word (short : len < 2 ^ 32) :
    entryDiskSize len < 2 ^ 32 ↔ len ≤ 2 ^ 32 - kAlignment - kEntryHeaderSize := by
  rw [entry_disk_size_eq len short]
  unfold kAlignment kEntryHeaderSize
  omega

theorem disk_size_least (short : len < 2 ^ 32) :
    IsLeast {size | kAlignment ∣ size ∧ kEntryHeaderSize + len ≤ size} (entryDiskSize len) := by
  constructor
  · exact ⟨Nat.dvd_of_mod_eq_zero (entry_disk_size_aligned len short), entry_fits len short⟩
  · rintro size ⟨⟨blocks, rfl⟩, enough⟩
    rw [entry_disk_size_eq len short]
    unfold kAlignment kEntryHeaderSize at *
    omega

/-! ## A direct write that is transferred as a whole -/

section Direct

variable {s after : BlobStore} {request : WriteRequest} {io : SegmentIo} {seg : SegmentInfo}
  {path : SegmentPath}

def placedLocation (seg : SegmentInfo) (len : Nat) : BlobLocation :=
  { segmentId := seg.id
    offset := seg.writeOffset
    length := len % 2 ^ 32
    diskSize := entryDiskSize len % 2 ^ 32 }

theorem direct_bytes_entry (file : File) (offset : Nat) (short : request.data.length < 2 ^ 32) :
    EntryOf (file.pwrite offset (s.directBytes request)).data offset request := by
  have fits := entry_fits request.data.length short
  have laid : EntryOf (layEntry (fun _ => 0) 0 (s.entryHeader request) request.data
      (entryDiskSize request.data.length)) (0 + 0) request :=
    lay_entry_of (fun _ => 0) 0 s.writeSequence _ request
  exact laid.patch_copy file.data offset (entryDiskSize request.data.length) (by omega)

/-- The size alone decides the reply, through the `int` that the I/O engine
returns; the entry is in the file either way. -/
theorem write_direct_complete (short : request.data.length < 2 ^ 32)
    (current : (s.segmentForEntry (entryDiskSize request.data.length) io).currentSegment = some seg)
    (opened : seg.fd = some path) :
    ∃ after, s.writeDirect request io .complete =
        some (if toInt32 (entryDiskSize request.data.length) < 0 then .failed .kIOError
          else .stored (placedLocation seg request.data.length), after) ∧
      EntryOf (after.files path).data seg.writeOffset request := by
  generalize isT : s.segmentForEntry (entryDiskSize request.data.length) io = t at current
  rcases Option.bind_eq_some_iff.1 current with ⟨active, isActive, found⟩
  have length : (t.directBytes request).length = entryDiskSize request.data.length := by
    simp [directBytes]
  have placed : EntryOf ((t.files path).pwrite seg.writeOffset (t.directBytes request)).data
      seg.writeOffset request :=
    direct_bytes_entry _ _ short
  unfold writeDirect
  simp only [isT, isActive, found, opened, syncWrite, length]
  split
  · exact ⟨_, rfl, by simpa using placed⟩
  · exact ⟨_, rfl, by simpa using placed⟩

end Direct

/-! ## The fields -/

/-- The 32-bit fields that carry the size: in the header and the location of
both write paths, and in the location that `get` rebuilds. -/
structure ExactFields (len : Nat) : Prop where
  least : IsLeast {size | kAlignment ∣ size ∧ kEntryHeaderSize + len ≤ size} (entryDiskSize len)
  buffered : ∀ (s after : BlobStore) (b : Nat) (request : WriteRequest) (loc : BlobLocation),
    request.data.length = len → s.appendEntry b request = some (.stored loc, after) →
    loc.length = len ∧ loc.diskSize = entryDiskSize len ∧
      paddedSizeAt (after.blocks b).buf (s.blocks b).pos = entryDiskSize len
  direct : ∀ (s after : BlobStore) (request : WriteRequest) (io : SegmentIo) (seg : SegmentInfo)
    (path : SegmentPath) (loc : BlobLocation), request.data.length = len →
    (s.segmentForEntry (entryDiskSize len) io).currentSegment = some seg → seg.fd = some path →
    s.writeDirect request io .complete = some (.stored loc, after) →
    loc.length = len ∧ loc.diskSize = entryDiskSize len ∧
      paddedSizeAt (after.files path).data loc.offset = entryDiskSize len
  rebuilt : ∀ entry : IndexEntry, entry.length.toNat = len →
    (Engine.entryLocation entry).diskSize = entryDiskSize len

/-- The fields, and the transfer: the `int` of a complete transfer is the size,
and a direct write that was transferred as a whole succeeds. -/
structure ExactSizes (len : Nat) : Prop extends ExactFields len where
  transferred : ∀ (files : Files) (path : SegmentPath) (bytes : List UInt8) (offset : Nat),
    bytes.length = entryDiskSize len →
    (syncWrite files (some path) bytes offset .complete).1 = entryDiskSize len
  written : ∀ (s : BlobStore) (request : WriteRequest) (io : SegmentIo) (seg : SegmentInfo),
    request.data.length = len →
    (s.segmentForEntry (entryDiskSize len) io).currentSegment = some seg → seg.fd ≠ none →
    ∃ loc after, s.writeDirect request io .complete = some (.stored loc, after)

theorem EntryOf.padded_size {image : Image} {offset : Nat} {request : WriteRequest}
    (entry : EntryOf image offset request) (small : entryDiskSize request.data.length < 2 ^ 32) :
    paddedSizeAt image offset = entryDiskSize request.data.length := by
  rcases entry.header with ⟨sequence, header⟩
  exact padded_size_of header small

theorem exact_fields (short : len < 2 ^ 32) (small : entryDiskSize len < 2 ^ 32) :
    ExactFields len where
  least := disk_size_least short
  buffered := by
    rintro s after b request loc rfl run
    rcases append_entry_cases run with ⟨active, _, isLoc, rfl⟩
    cases isLoc
    refine ⟨Nat.mod_eq_of_lt short, Nat.mod_eq_of_lt small, ?_⟩
    rw [appended_block]
    exact (lay_entry_of _ _ s.writeSequence _ request).padded_size small
  direct := by
    rintro s after request io seg path loc rfl current opened run
    rcases write_direct_complete short current opened with ⟨after, same, placed⟩
    rw [run] at same
    split at same
    · cases same
    · cases same
      exact ⟨Nat.mod_eq_of_lt short, Nat.mod_eq_of_lt small, placed.padded_size small⟩
  rebuilt := by
    rintro entry rfl
    exact Nat.mod_eq_of_lt small

def entryOfLength (len : Nat) : IndexEntry := { IndexEntry.zero with length := UInt32.ofNat len }

theorem exact_fields_iff (accepted : Accepted len) :
    ExactFields len ↔ len ≤ 2 ^ 32 - kAlignment - kEntryHeaderSize := by
  rw [← size_fits_word accepted.short]
  constructor
  · intro fields
    have isLength : (entryOfLength len).length.toNat = len :=
      UInt32.toNat_ofNat_of_lt' accepted.short
    have same := fields.rebuilt (entryOfLength len) isLength
    change entryDiskSize (entryOfLength len).length.toNat % 2 ^ 32 = _ at same
    rw [isLength] at same
    omega
  · exact exact_fields accepted.short

def zeroEntry (len : Nat) : List UInt8 := List.replicate (entryDiskSize len) 0

theorem zero_entry_result (len : Nat) : (syncWrite (fun _ => File.empty) (some (.canonical 0))
    (zeroEntry len) 0 .complete).1 = toInt32 (entryDiskSize len) := by
  unfold syncWrite zeroEntry
  simp only [List.length_replicate]

theorem exact_sizes_below (sizes : ExactSizes len) : entryDiskSize len < 2 ^ 31 := by
  have counted := sizes.transferred (fun _ => File.empty) (.canonical 0) (zeroEntry len) 0
    List.length_replicate
  rw [zero_entry_result] at counted
  exact (to_int32_exact _).1 counted

/-- The sizes of an accepted blob are exact exactly when its rounded size is
below 2^31. -/
theorem exact_sizes_iff (accepted : Accepted len) :
    ExactSizes len ↔ len ≤ 2 ^ 31 - kAlignment - kEntryHeaderSize := by
  rw [← size_fits_int accepted.short]
  constructor
  · exact exact_sizes_below
  · intro small
    have counted := to_int32_small _ small
    refine { exact_fields accepted.short (by omega) with transferred := ?_, written := ?_ }
    · intro files path bytes offset length
      unfold syncWrite
      simp only [length]
      exact counted
    · rintro s request io seg rfl current opened
      rcases Option.ne_none_iff_exists'.1 opened with ⟨path, isPath⟩
      rcases write_direct_complete accepted.short current isPath with ⟨after, run, _⟩
      rw [counted, if_neg (by omega)] at run
      exact ⟨_, after, run⟩

theorem exact_sizes_iff_limit : ExactSizes (2 ^ 31 - 4160) ∧ ¬ExactSizes (2 ^ 31 - 4159) := by
  constructor
  · exact (exact_sizes_iff (by unfold Accepted; decide)).2 (by decide)
  · intro sizes
    exact absurd ((exact_sizes_iff (by unfold Accepted; decide)).1 sizes) (by decide)

/-- A blob of 2^31 bytes is written as a whole and reported as an error. -/
theorem complete_transfer_negative : Accepted (2 ^ 31) ∧
    (syncWrite (fun _ => File.empty) (some (.canonical 0)) (zeroEntry (2 ^ 31)) 0 .complete).1 < 0 ∧
    ¬ExactSizes (2 ^ 31) := by
  refine ⟨by unfold Accepted; decide, ?_, ?_⟩
  · rw [zero_entry_result]
    decide +kernel
  · intro sizes
    exact absurd (exact_sizes_below sizes) (by decide +kernel)

end AttentionDB
