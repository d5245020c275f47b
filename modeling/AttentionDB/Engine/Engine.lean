import AttentionDB.Admission.Admission
import AttentionDB.Engine.Crc32
import AttentionDB.Eviction.CwSlru
import AttentionDB.Index.ConcurrentHashMap
import AttentionDB.Memory.SlabAllocator
import AttentionDB.Storage.BlobStoreSystem

/-!
# The engine

`put`, `get`, `del` and `open` of the engine, one call at a time. What a call
learns from outside (the clock, the steps of the flush thread while it runs,
the results of I/O) is an argument of the call. A call that does not return has
no result: a writer that is never woken, or a null `active_segment_`.
-/

namespace AttentionDB

open ByteMap BlobStore

set_option autoImplicit false

/-! ## The blob store as the engine calls it -/

/-- `t2_store_` with its flush thread. Three histories are kept: what was
acknowledged, the lengths handed to `write`, and how many writes were refused. -/
structure T2 where
  store : BlobStore
  flush : FlushPc := .idle
  acked : List Ack := []
  handed : List Nat := []
  refused : Nat := 0

/-- What happens around one call of `write`: the flush steps before each of its
sections, the segments it opens and the result of a direct write. -/
structure T2WriteIo where
  before : List FlushStep := []
  segment : SegmentIo := {}
  naps : List (List FlushStep × SegmentIo) := []
  directBefore : List FlushStep := []
  directSegment : SegmentIo := {}
  directResult : IoResult := .complete

structure T2ReadIo where
  beforePending : List FlushStep := []
  beforeLookup : List FlushStep := []
  beforeDisk : List FlushStep := []
  readOk : Bool := true

namespace T2

def flushRun (t2 : T2) : List FlushStep → Option T2
  | [] => some t2
  | step :: steps =>
      match t2.store.flushStep t2.flush step with
      | none => none
      | some (flush, store) => flushRun { t2 with flush, store } steps

def stored (t2 : T2) (request : WriteRequest) (loc : BlobLocation) (block : Option Nat) : T2 :=
  { t2 with acked := { loc, data := request.data, block } :: t2.acked }

/-- The writer asleep in `acquire_block`, woken once for each nap. -/
def sleep (request : WriteRequest) :
    List (List FlushStep × SegmentIo) → T2 → Option ((Status × BlobLocation) × T2)
  | [], _ => none
  | (steps, io) :: naps, t2 =>
      match t2.flushRun steps with
      | none => none
      | some t2 =>
          match t2.store.acquireAndAppend request io with
          | none | some (.direct, _) => none
          | some (.waiting, store) => sleep request naps { t2 with store }
          | some (.failed status, store) =>
              some ((status, ⟨0, 0, 0, 0⟩), { t2 with store, refused := t2.refused + 1 })
          | some (.stored loc, store) =>
              some ((.kOk, loc), { t2 with store }.stored request loc store.activeBlock)

/-- `BlobStore::write`; the location means nothing unless the status is `kOk`. -/
def write (t2 : T2) (request : WriteRequest) (io : T2WriteIo) :
    Option ((Status × BlobLocation) × T2) :=
  let t2 := { t2 with handed := request.data.length :: t2.handed }
  match t2.flushRun io.before with
  | none => none
  | some t2 =>
      match t2.store.writeEnter request io.segment with
      | none => none
      | some (.waiting, store) => sleep request io.naps { t2 with store }
      | some (.failed status, store) =>
          some ((status, ⟨0, 0, 0, 0⟩), { t2 with store, refused := t2.refused + 1 })
      | some (.stored loc, store) =>
          some ((.kOk, loc), { t2 with store }.stored request loc store.activeBlock)
      | some (.direct, store) =>
          match { t2 with store }.flushRun io.directBefore with
          | none => none
          | some t2 =>
              match t2.store.writeDirect request io.directSegment io.directResult with
              | some (.stored loc, store) =>
                  some ((.kOk, loc), { t2 with store }.stored request loc none)
              | some (.failed status, store) =>
                  some ((status, ⟨0, 0, 0, 0⟩), { t2 with store, refused := t2.refused + 1 })
              | _ => none

def readAttempt (t2 : T2) (loc : BlobLocation) (bufLen attempt : Nat) (io : T2ReadIo) :
    Option (Option ReadReply × T2) :=
  match t2.flushRun io.beforePending with
  | none => none
  | some t2 =>
      match t2.store.readPending loc bufLen with
      | some reply => some (some reply, t2)
      | none =>
          match t2.flushRun io.beforeLookup with
          | none => none
          | some t2 =>
              match t2.store.segmentFd loc.segmentId with
              | none => some (some { status := .kNotFound }, t2)
              | some path =>
                  match t2.flushRun io.beforeDisk with
                  | none => none
                  | some t2 =>
                      some (t2.store.readDisk path loc bufLen attempt io.readOk, t2)

def read (t2 : T2) (loc : BlobLocation) (bufLen : Nat) (first second : T2ReadIo) :
    Option (ReadReply × T2) :=
  match t2.readAttempt loc bufLen 0 first with
  | none => none
  | some (some reply, t2) => some (reply, t2)
  | some (none, t2) =>
      match t2.readAttempt loc bufLen 1 second with
      | none => none
      | some (some reply, t2) => some (reply, t2)
      | some (none, t2) => some ({ status := .kNotFound }, t2)

def markDead (t2 : T2) (loc : BlobLocation) : T2 := { t2 with store := t2.store.markDead loc }

end T2

/-! ## The engine -/

structure Engine where
  config : Config
  index : ConcurrentHashMap
  t1Allocator : Option SlabAllocator
  memory : Image
  t2Store : Option T2
  t1Eviction : CwSlru
  t2Eviction : CwSlru
  admission : AdmissionControl

structure EvictIo where
  now : Nat := 0
  t2 : T2WriteIo := {}

/-- The clock readings of a put, its blob store call, and what happens in each
round of the eviction that follows. -/
structure PutIo where
  createdAt : Nat := 0
  lastAccess : Nat := 0
  now : Nat := 0
  t2 : T2WriteIo := {}
  evictions : Nat → EvictIo := fun _ => {}

structure GetIo where
  now : Nat := 0
  touchedAt : Nat := 0
  first : T2ReadIo := {}
  second : T2ReadIo := {}

namespace Engine

def freeT1 (e : Engine) (ptr : Nat) : Engine :=
  { e with t1Allocator := e.t1Allocator.map (·.freeByPtr ptr) }

def storageUtilization (e : Engine) : Rat :=
  match e.t1Allocator with
  | none => 0
  | some a => if 0 < a.totalCapacity then (a.usedBytes : Rat) / a.totalCapacity else 0

/-! ### Eviction -/

/-- `used_bytes() > total_capacity() * 0.95` -/
def overWatermark (e : Engine) : Bool :=
  match e.t1Allocator with
  | none => false
  | some a => a.totalCapacity * 95 < a.usedBytes * 100

def demotedEntry (entry : IndexEntry) (loc : BlobLocation) : IndexEntry :=
  { entry with
    tier := kT2Nvme
    address := UInt64.ofNat loc.offset
    segmentId := UInt32.ofNat loc.segmentId }

/-- What is done with a T1 entry that was chosen: demoted if it is warm enough
and the blob store takes it, erased otherwise; its slot is freed either way. -/
def evictEntry (e : Engine) (victim : StorageKey) (entry : IndexEntry) (io : EvictIo) :
    Option Engine :=
  let ptr := entry.address.toNat
  let dropped := { e with index := e.index.erase victim }
  match e.t2Store with
  | none => some (dropped.freeT1 ptr)
  | some t2 =>
      if entry.recomputeCost < e.config.admission.minRecomputeCost then some (dropped.freeT1 ptr)
      else
        let data := slice e.memory ptr entry.length.toNat
        match t2.write { key := victim, data, checksum := entry.checksum } io.t2 with
        | none => none
        | some ((status, loc), t2) =>
            if status = .kOk then
              let demoted :=
                { e with
                  t2Store := some t2
                  index := e.index.upsert victim (demotedEntry entry loc)
                  t2Eviction := e.t2Eviction.onInsert victim entry.recomputeCost victim.chunkIndex io.now }
              some (demoted.freeT1 ptr)
            else some ({ dropped with t2Store := some t2 }.freeT1 ptr)

/-- One round of `evict_if_needed` after a victim was chosen. -/
def evictVictim (e : Engine) (victim : StorageKey) (io : EvictIo) : Option Engine :=
  match e.index.find victim with
  | none => some e
  | some entry => if entry.tier = kT1Dram then e.evictEntry victim entry io else some e

/-- The loop of `evict_if_needed`. Every round takes a victim out of the
tracker, so one more round than the tracker has entries is enough. -/
def evictLoop (io : Nat → EvictIo) : Nat → Nat → Engine → Option Engine
  | 0, _, e => some e
  | fuel + 1, round, e =>
      if e.overWatermark then
        match e.t1Eviction.evict with
        | (none, _) => some e
        | (some victim, t1Eviction) =>
            match { e with t1Eviction }.evictVictim victim (io round) with
            | none => none
            | some e => evictLoop io fuel (round + 1) e
      else some e

def evictIfNeeded (e : Engine) (io : Nat → EvictIo) : Option Engine :=
  evictLoop io (e.t1Eviction.totalSize + 1) 0 e

/-! ### Put -/

def newEntry (blob : List UInt8) (opts : PutOpts) (io : PutIo) : IndexEntry :=
  ({ IndexEntry.zero with
      recomputeCost := opts.recomputeCost
      numTokens := opts.numTokens
      accessCount := 1
      slruSegment := kProbationary
      checksum := computeCrc32 blob
      length := UInt32.ofNat blob.length }.setCreatedAtUs io.createdAt).setLastAccessUs io.lastAccess

/-- The index entry is published and eviction runs. -/
def publish (e : Engine) (key : StorageKey) (entry : IndexEntry) (io : PutIo) :
    Option (Status × Engine) :=
  ({ e with index := e.index.upsert key entry }.evictIfNeeded io.evictions).map fun e => (Status.kOk, e)

def storeT1 (e : Engine) (key : StorageKey) (blob : List UInt8) (opts : PutOpts) (io : PutIo)
    (ptr : Nat) (allocator : SlabAllocator) : Option (Status × Engine) :=
  let entry := { newEntry blob opts io with
    tier := kT1Dram, address := UInt64.ofNat ptr, segmentId := 0 }
  { e with
    t1Allocator := some allocator
    memory := patch e.memory ptr blob
    t1Eviction := e.t1Eviction.onInsert key opts.recomputeCost key.chunkIndex io.now }.publish key entry io

def storeT2 (e : Engine) (key : StorageKey) (blob : List UInt8) (opts : PutOpts) (io : PutIo) :
    Option (Status × Engine) :=
  match e.t2Store with
  | none => some (.kIOError, e)
  | some t2 =>
      match t2.write { key, data := blob, checksum := computeCrc32 blob } io.t2 with
      | none => none
      | some ((status, loc), t2) =>
          if status = .kOk then
            let entry := { newEntry blob opts io with
              tier := kT2Nvme
              address := UInt64.ofNat loc.offset
              segmentId := UInt32.ofNat loc.segmentId }
            { e with
              t2Store := some t2
              t2Eviction := e.t2Eviction.onInsert key opts.recomputeCost key.chunkIndex io.now }.publish
                key entry io
          else some (status, { e with t2Store := some t2 })

def allocateT1 (e : Engine) (blob : List UInt8) : Option (SlabHandle × Nat × SlabAllocator) :=
  e.t1Allocator.bind (·.allocate blob.length)

def put (e : Engine) (key : StorageKey) (blob : List UInt8) (opts : PutOpts) (io : PutIo) :
    Option (Status × Engine) :=
  let decision := AdmissionControl.evaluate e.admission.config opts e.storageUtilization
  let e := { e with admission := e.admission.recordEvaluation decision }
  if decision ≠ .kAdmit then some (.kRejectedAdmission, e)
  else if 2 ^ 32 - 1 < blob.length then some (.kInvalidArgument, e)
  else
    match e.allocateT1 blob with
    | some (_, ptr, allocator) => e.storeT1 key blob opts io ptr allocator
    | none => e.storeT2 key blob opts io

/-! ### Get and delete -/

/-- The location that `get` rebuilds from an entry. -/
def entryLocation (entry : IndexEntry) : BlobLocation :=
  { segmentId := entry.segmentId.toNat
    offset := entry.address.toNat
    length := entry.length.toNat
    diskSize := entryDiskSize entry.length.toNat % 2 ^ 32 }

def touchEntry (e : Engine) (key : StorageKey) (now : Nat) : Engine :=
  { e with index := e.index.updateFn key (·.touch now) }

def get (e : Engine) (key : StorageKey) (bufLen : Nat) (io : GetIo) : Option (ReadReply × Engine) :=
  match e.index.find key with
  | none => some ({ status := .kNotFound }, e)
  | some entry =>
      if entry.tier = kT1Dram ∧ e.t1Allocator.isSome then
        if bufLen < entry.length.toNat then some ({ status := .kBufferTooSmall }, e)
        else
          let bytes := slice e.memory entry.address.toNat entry.length.toNat
          let e := { e with
            t1Eviction := e.t1Eviction.onAccess key entry.recomputeCost io.now }
          some ({ status := .kOk, bytes }, e.touchEntry key io.touchedAt)
      else
        match e.t2Store with
        | some t2 =>
            if entry.tier = kT2Nvme then
              match t2.read (entryLocation entry) bufLen io.first io.second with
              | none => none
              | some (reply, t2) =>
                  let e := { e with
                    t2Store := some t2
                    t2Eviction :=
                      if reply.status = Status.kOk then
                        e.t2Eviction.onAccess key entry.recomputeCost io.now
                      else e.t2Eviction }
                  some (reply, e.touchEntry key io.touchedAt)
            else some ({ status := .kNotFound }, e.touchEntry key io.touchedAt)
        | none => some ({ status := .kNotFound }, e.touchEntry key io.touchedAt)

def del (e : Engine) (key : StorageKey) : Status × Engine :=
  match e.index.find key with
  | none => (.kNotFound, e)
  | some entry =>
      let e := if entry.tier = kT1Dram then e.freeT1 entry.address.toNat else e
      let e :=
        if entry.tier = kT2Nvme then
          { e with t2Store := e.t2Store.map (·.markDead (entryLocation entry)) }
        else e
      (.kOk,
        { e with
          index := e.index.erase key
          t1Eviction := e.t1Eviction.onRemove key
          t2Eviction := e.t2Eviction.onRemove key })

/-! ### Stats -/

/-- The counts that the engine, its trackers and its tiers answer for. -/
structure EngineStats where
  t1TotalBytes : Nat
  t1UsedBytes : Nat
  t2NumSegments : Nat
  indexEntries : Nat
  evictionProtected : Nat
  evictionProbationary : Nat
  admissionEvaluated : Nat
  admissionRejected : Nat
  deriving DecidableEq, Repr

def stats (e : Engine) : EngineStats where
  t1TotalBytes := (e.t1Allocator.map (·.totalCapacity)).getD 0
  t1UsedBytes := (e.t1Allocator.map (·.usedBytes)).getD 0
  t2NumSegments := (e.t2Store.map (·.store.segments.length % 2 ^ 32)).getD 0
  indexEntries := e.index.size
  evictionProtected := e.t1Eviction.protectedSize + e.t2Eviction.protectedSize
  evictionProbationary := e.t1Eviction.probationarySize + e.t2Eviction.probationarySize
  admissionEvaluated := e.admission.totalEvaluated
  admissionRejected := e.admission.totalRejected

/-! ### Open -/

/-- What `open` finds: the memory and the regions that the system hands out,
the files, the result of opening the blob store, and the entries of the
checkpoint if one was accepted. -/
structure OpenIo where
  allocBacking : Nat → Nat := fun _ => 0
  memory : Image := fun _ => 0
  files : Files := fun _ => File.empty
  store : BlobStore.OpenIo := {}
  checkpoint : Option (List (StorageKey × IndexEntry)) := none

/-- Entries of an earlier process have stale pointers; they are removed. -/
def scrubT1 (index : ConcurrentHashMap) : ConcurrentHashMap :=
  let staleKeys := (index.snapshot.filter fun pair => pair.2.tier = kT1Dram).map Prod.fst
  staleKeys.foldl ConcurrentHashMap.erase index

/-- The index after the checkpoint was looked at. -/
def loadedIndex : Option (List (StorageKey × IndexEntry)) → ConcurrentHashMap
  | none => ∅
  | some entries => scrubT1 (ConcurrentHashMap.bulkLoad ∅ entries)

/-- The engine that `open` leaves when it returns `kOk`. -/
def openEngine (config : Config) (io : OpenIo) : Option Engine :=
  let t1Allocator := if config.dramCache.enabled then
      (initClasses config.dramCache io.allocBacking).map some
    else some none
  let t2Store := if config.nvmeStore.enabled then
      match BlobStore.openStore config.nvmeStore io.files io.store with
      | (.kOk, store) => some (some { store })
      | _ => none
    else some none
  match t1Allocator, t2Store with
  | some t1Allocator, some t2Store =>
      let tracker : CwSlru := { config := { protectedRatio := config.eviction.protectedRatio } }
      some
        { config
          index := loadedIndex io.checkpoint
          t1Allocator
          memory := io.memory
          t2Store
          t1Eviction := tracker
          t2Eviction := tracker
          admission := { config := config.admission } }
  | _, _ => none

end Engine

end AttentionDB
