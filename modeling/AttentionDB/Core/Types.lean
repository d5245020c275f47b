import Mathlib.Data.List.AList
import Mathlib.Data.Rat.Defs
import Mathlib.Data.UInt

/-!
# Core types

The plain data of the server: statuses, storage keys, index entries, put
options and the configuration records. Fixed-width fields keep their width.
-/

namespace AttentionDB

set_option autoImplicit false

inductive Status where
  | kOk
  | kNotFound
  | kRejectedAdmission
  | kRejectedBackpressure
  | kFull
  | kBufferTooSmall
  | kCorruption
  | kIOError
  | kInvalidArgument
  | kAlreadyExists
  | kShutdown
  deriving DecidableEq, Repr

/-- `Tier::kT1Dram`; the tier of an index entry is stored as a raw byte, so an
entry read from a checkpoint may carry any value. -/
def kT1Dram : UInt8 := 1

def kT2Nvme : UInt8 := 2

inductive EntryType where
  | kConversation
  | kSystemPrompt
  | kRagContext
  deriving DecidableEq, Repr

/-- `SlruSegment::kProbationary`, the value every put stores. -/
def kProbationary : UInt8 := 0

/-- The packed 30-byte key. Equality in the source is `memcmp` on those bytes,
which is equality of the five fields. -/
structure StorageKey where
  modelId : UInt64
  tenantId : UInt64
  chunkHash : UInt64
  layerGroupId : UInt16
  chunkIndex : UInt32
  deriving DecidableEq, Repr

/-- The 64-byte index entry. The two 48-bit timestamps are kept as numbers of
that width. -/
structure IndexEntry where
  tier : UInt8
  address : UInt64
  length : UInt32
  segmentId : UInt32
  flags : UInt16
  recomputeCost : UInt32
  lastAccess : BitVec 48
  accessCount : UInt16
  slruSegment : UInt8
  numTokens : UInt32
  createdAt : BitVec 48
  checksum : UInt32
  reserved : Vector UInt8 18
  deriving DecidableEq, Repr

/-- The entry after `memset(&entry, 0, sizeof(entry))`. -/
def IndexEntry.zero : IndexEntry where
  tier := 0
  address := 0
  length := 0
  segmentId := 0
  flags := 0
  recomputeCost := 0
  lastAccess := 0
  accessCount := 0
  slruSegment := 0
  numTokens := 0
  createdAt := 0
  checksum := 0
  reserved := Vector.replicate 18 0

/-- `set_last_access_us`: the low six bytes of the clock value. -/
def IndexEntry.setLastAccessUs (entry : IndexEntry) (us : Nat) : IndexEntry :=
  { entry with lastAccess := BitVec.ofNat 48 us }

def IndexEntry.setCreatedAtUs (entry : IndexEntry) (us : Nat) : IndexEntry :=
  { entry with createdAt := BitVec.ofNat 48 us }

/-- `touch`: new access time, saturating access count. Nothing that says where
the blob is, or what it is, changes. -/
def IndexEntry.touch (entry : IndexEntry) (now : Nat) : IndexEntry :=
  { entry with
    lastAccess := BitVec.ofNat 48 now
    accessCount := if entry.accessCount < 65535 then entry.accessCount + 1 else entry.accessCount }

@[simp] theorem touch_tier (entry : IndexEntry) (now : Nat) : (entry.touch now).tier = entry.tier := rfl

@[simp] theorem touch_address (entry : IndexEntry) (now : Nat) :
    (entry.touch now).address = entry.address := rfl

@[simp] theorem touch_length (entry : IndexEntry) (now : Nat) :
    (entry.touch now).length = entry.length := rfl

@[simp] theorem touch_segment_id (entry : IndexEntry) (now : Nat) :
    (entry.touch now).segmentId = entry.segmentId := rfl

@[simp] theorem touch_recompute_cost (entry : IndexEntry) (now : Nat) :
    (entry.touch now).recomputeCost = entry.recomputeCost := rfl

@[simp] theorem touch_checksum (entry : IndexEntry) (now : Nat) :
    (entry.touch now).checksum = entry.checksum := rfl

structure PutOpts where
  numTokens : UInt32 := 0
  recomputeCost : UInt32 := 0
  entryType : EntryType := .kConversation
  ttlSeconds : UInt32 := 0
  deriving DecidableEq, Repr

structure DramCacheConfig where
  enabled : Bool := true
  sizeBytes : UInt64 := 17179869184
  sizeClasses : List UInt64 := [65536, 131072, 262144, 524288, 1048576, 2097152, 4194304]
  deriving DecidableEq, Repr

structure NvmeStoreConfig where
  enabled : Bool := true
  paths : List String := ["/mnt/nvme0/attentiondb"]
  segmentSize : UInt64 := 1073741824
  writeBlockSizeMb : UInt32 := 8
  writeBlockPoolSize : UInt32 := 8
  deriving DecidableEq, Repr

structure AdmissionConfig where
  minRecomputeCost : UInt32 := 64
  baseThreshold : UInt32 := 100
  deriving DecidableEq, Repr

/-- The ratio is a `double` in the source and an exact rational here. -/
structure EvictionConfig where
  protectedRatio : Rat := 1 / 4
  deriving DecidableEq, Repr

structure Config where
  dramCache : DramCacheConfig := {}
  nvmeStore : NvmeStoreConfig := {}
  admission : AdmissionConfig := {}
  eviction : EvictionConfig := {}
  deriving DecidableEq, Repr

end AttentionDB
