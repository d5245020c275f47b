import AttentionDB.Engine.Session

/-!
# Threads inside one engine

Client threads run `put`, `get` and `del` on one engine, each of them cut into
the calls it makes: one step is one call of the index, the slab allocator, a
tracker or the blob store, or one copy into or out of a slot. The engine takes
no lock around these calls. `write` and `read` of the blob store have several
critical sections of their own; here each is one step, and only steps of the
flush thread fall between its sections. A history next to the engine records when calls
began and returned, and where the bytes of slots and entries come from; no step
of the code looks at it.
-/

namespace AttentionDB

open GuardedRuns ByteMap

set_option autoImplicit false

/-- A put or a delete: its key and the time it began, which no other call has. -/
structure Update where
  key : StorageKey
  begun : Nat
  deriving DecidableEq, Repr

structure PutCall where
  update : Update
  blob : List UInt8
  opts : PutOpts
  createdAt : Nat := 0
  lastAccess : Nat := 0

def PutCall.times (put : PutCall) : PutIo := { createdAt := put.createdAt, lastAccess := put.lastAccess }

/-- The points of `evict_if_needed`. A thread that found a T1 victim holds the
entry it found; the version of the key at that time belongs to the history. -/
inductive EvictPc where
  | check
  | pick
  | find (victim : StorageKey)
  | write (victim : StorageKey) (entry : IndexEntry) (version : Nat)
  | upsert (victim : StorageKey) (entry : IndexEntry) (loc : BlobLocation) (version : Nat)
      (origin : Option Update)
  | insert (victim : StorageKey) (entry : IndexEntry)
  | erase (victim : StorageKey) (entry : IndexEntry)
  | free (ptr : Nat)

inductive ThreadPc where
  | idle
  | putBegun (put : PutCall)
  | allocate (put : PutCall)
  | copy (put : PutCall) (ptr : Nat)
  | insertT1 (put : PutCall) (ptr : Nat)
  | publishT1 (put : PutCall) (ptr : Nat)
  | write (put : PutCall)
  | insertT2 (put : PutCall) (loc : BlobLocation)
  | publishT2 (put : PutCall) (loc : BlobLocation)
  | evict (put : PutCall) (pc : EvictPc)
  | getFind (key : StorageKey) (bufLen : Nat)
  | getCopy (key : StorageKey) (entry : IndexEntry)
  | getAccessT1 (key : StorageKey) (entry : IndexEntry) (bytes : List UInt8)
  | getRead (key : StorageKey) (entry : IndexEntry) (bufLen : Nat)
  | getAccessT2 (key : StorageKey) (entry : IndexEntry) (reply : BlobStore.ReadReply)
  | getTouch (key : StorageKey) (fromT1 : Bool) (reply : BlobStore.ReadReply)
  | delFind (del : Update)
  | delFree (del : Update) (entry : IndexEntry)
  | delMark (del : Update) (entry : IndexEntry)
  | delErase (del : Update)
  | delRemoveT1 (del : Update)
  | delRemoveT2 (del : Update)

structure DoneCall where
  update : Update
  isPut : Bool
  returned : Nat
  status : Status
  deriving DecidableEq, Repr

/-- `puts` are the puts that began. `stored` are the blobs that puts copied into
slots, `t1Reads` what gets returned from T1. `slotOrigin` is the put whose blob
was last copied to an address, `t2Origin` the put whose blob was handed to the
write behind the T2 entry of a key, and `version` counts the entries that puts
published and deletes erased under a key. -/
structure History where
  clock : Nat := 0
  puts : List Update := []
  done : List DoneCall := []
  stored : List (StorageKey × List UInt8) := []
  t1Reads : List (StorageKey × List UInt8) := []
  slotOrigin : Nat → Option Update := fun _ => none
  t2Origin : StorageKey → Option Update := fun _ => none
  version : StorageKey → Nat := fun _ => 0

/-- One engine and its threads; a blob store call is one step of its thread. -/
structure EngineSystem where
  engine : Engine
  threads : Nat → ThreadPc := fun _ => .idle
  history : History := {}

structure StepIo where
  now : Nat := 0
  write : T2WriteIo := {}
  first : T2ReadIo := {}
  second : T2ReadIo := {}

inductive EngineLabel where
  | put (t : Nat) (key : StorageKey) (blob : List UInt8) (opts : PutOpts) (createdAt lastAccess : Nat)
  | get (t : Nat) (key : StorageKey) (bufLen : Nat)
  | del (t : Nat) (key : StorageKey)
  | step (t : Nat) (io : StepIo)
  | flush (step : BlobStore.FlushStep)

namespace EngineSystem

def move (s : EngineSystem) (t : Nat) (engine : Engine) (pc : ThreadPc) : EngineSystem :=
  { s with engine, threads := Function.update s.threads t pc }

def record (s : EngineSystem) (change : History → History) : EngineSystem :=
  { s with history := change s.history }

def finish (s : EngineSystem) (t : Nat) (engine : Engine) (update : Update) (isPut : Bool)
    (status : Status) : EngineSystem :=
  (s.move t engine .idle).record fun h =>
    { h with
      clock := h.clock + 1
      done := { update, isPut, returned := h.clock, status } :: h.done }

/-! ### The steps of a put -/

def stepAdmission (s : EngineSystem) (t : Nat) (put : PutCall) : EngineSystem :=
  let e := s.engine
  let decision := AdmissionControl.evaluate e.admission.config put.opts e.storageUtilization
  let e := { e with admission := e.admission.recordEvaluation decision }
  if decision ≠ .kAdmit then s.finish t e put.update true .kRejectedAdmission
  else if 2 ^ 32 - 1 < put.blob.length then s.finish t e put.update true .kInvalidArgument
  else s.move t e (.allocate put)

def stepAllocate (s : EngineSystem) (t : Nat) (put : PutCall) : EngineSystem :=
  match s.engine.allocateT1 put.blob with
  | some (_, ptr, allocator) =>
      s.move t { s.engine with t1Allocator := some allocator } (.copy put ptr)
  | none =>
      if s.engine.t2Store.isSome then s.move t s.engine (.write put)
      else s.finish t s.engine put.update true .kIOError

def stepCopy (s : EngineSystem) (t : Nat) (put : PutCall) (ptr : Nat) : EngineSystem :=
  (s.move t { s.engine with memory := patch s.engine.memory ptr put.blob } (.insertT1 put ptr)).record
    fun h =>
      { h with
        slotOrigin := Function.update h.slotOrigin ptr (some put.update)
        stored := (put.update.key, put.blob) :: h.stored }

def stepWrite (s : EngineSystem) (t : Nat) (put : PutCall) (io : StepIo) : Option EngineSystem :=
  match s.engine.t2Store with
  | none => none
  | some t2 =>
      match t2.write { key := put.update.key, data := put.blob, checksum := computeCrc32 put.blob }
          io.write with
      | none => none
      | some ((status, loc), t2) =>
          let e := { s.engine with t2Store := some t2 }
          if status = .kOk then some (s.move t e (.insertT2 put loc))
          else some (s.finish t e put.update true status)

def onInsertT1 (e : Engine) (put : PutCall) (now : Nat) : Engine :=
  { e with
    t1Eviction := e.t1Eviction.onInsert put.update.key put.opts.recomputeCost
      put.update.key.chunkIndex now }

def onInsertT2 (e : Engine) (put : PutCall) (now : Nat) : Engine :=
  { e with
    t2Eviction := e.t2Eviction.onInsert put.update.key put.opts.recomputeCost
      put.update.key.chunkIndex now }

def stepPublish (s : EngineSystem) (t : Nat) (put : PutCall) (entry : IndexEntry)
    (t2Origin : Option Update) : EngineSystem :=
  (s.move t { s.engine with index := s.engine.index.upsert put.update.key entry }
    (.evict put .check)).record fun h =>
      { h with
        t2Origin := Function.update h.t2Origin put.update.key t2Origin
        version := Function.update h.version put.update.key (h.version put.update.key + 1) }

/-! ### The steps of `evict_if_needed` -/

def stepEvict (s : EngineSystem) (t : Nat) (put : PutCall) (io : StepIo) :
    EvictPc → Option EngineSystem
  | .check =>
      if s.engine.overWatermark then some (s.move t s.engine (.evict put .pick))
      else some (s.finish t s.engine put.update true .kOk)
  | .pick =>
      match s.engine.t1Eviction.evict with
      | (none, t1Eviction) => some (s.finish t { s.engine with t1Eviction } put.update true .kOk)
      | (some victim, t1Eviction) =>
          some (s.move t { s.engine with t1Eviction } (.evict put (.find victim)))
  | .find victim =>
      match s.engine.index.find victim with
      | none => some (s.move t s.engine (.evict put .check))
      | some entry =>
          if entry.tier = kT1Dram then
            if s.engine.t2Store.isSome ∧
                s.engine.config.admission.minRecomputeCost ≤ entry.recomputeCost then
              some (s.move t s.engine (.evict put (.write victim entry (s.history.version victim))))
            else some (s.move t s.engine (.evict put (.erase victim entry)))
          else some (s.move t s.engine (.evict put .check))
  | .write victim entry version =>
      match s.engine.t2Store with
      | none => none
      | some t2 =>
          let ptr := entry.address.toNat
          let data := slice s.engine.memory ptr entry.length.toNat
          match t2.write { key := victim, data, checksum := entry.checksum } io.write with
          | none => none
          | some ((status, loc), t2) =>
              let e := { s.engine with t2Store := some t2 }
              if status = .kOk then
                some (s.move t e
                  (.evict put (.upsert victim entry loc version (s.history.slotOrigin ptr))))
              else some (s.move t e (.evict put (.erase victim entry)))
  | .upsert victim entry loc _ origin =>
      let e := { s.engine with
        index := s.engine.index.upsert victim (Engine.demotedEntry entry loc) }
      some ((s.move t e (.evict put (.insert victim entry))).record fun h =>
        { h with t2Origin := Function.update h.t2Origin victim origin })
  | .insert victim entry =>
      let e := { s.engine with
        t2Eviction := s.engine.t2Eviction.onInsert victim entry.recomputeCost victim.chunkIndex io.now }
      some (s.move t e (.evict put (.free entry.address.toNat)))
  | .erase victim entry =>
      some (s.move t { s.engine with index := s.engine.index.erase victim }
        (.evict put (.free entry.address.toNat)))
  | .free ptr => some (s.move t (s.engine.freeT1 ptr) (.evict put .check))

/-! ### The steps of a get -/

def stepGetFind (s : EngineSystem) (t : Nat) (key : StorageKey) (bufLen : Nat) : EngineSystem :=
  match s.engine.index.find key with
  | none => s.move t s.engine .idle
  | some entry =>
      if entry.tier = kT1Dram ∧ s.engine.t1Allocator.isSome then
        if bufLen < entry.length.toNat then s.move t s.engine .idle
        else s.move t s.engine (.getCopy key entry)
      else if entry.tier = kT2Nvme ∧ s.engine.t2Store.isSome then
        s.move t s.engine (.getRead key entry bufLen)
      else s.move t s.engine (.getTouch key false { status := .kNotFound })

def stepGetRead (s : EngineSystem) (t : Nat) (key : StorageKey) (entry : IndexEntry) (bufLen : Nat)
    (io : StepIo) : Option EngineSystem :=
  match s.engine.t2Store with
  | none => none
  | some t2 =>
      match t2.read (Engine.entryLocation entry) bufLen io.first io.second with
      | none => none
      | some (reply, t2) =>
          let e := { s.engine with t2Store := some t2 }
          if reply.status = .kOk then some (s.move t e (.getAccessT2 key entry reply))
          else some (s.move t e (.getTouch key false reply))

def stepGetTouch (s : EngineSystem) (t : Nat) (key : StorageKey) (fromT1 : Bool)
    (reply : BlobStore.ReadReply) (io : StepIo) : EngineSystem :=
  (s.move t (s.engine.touchEntry key io.now) .idle).record fun h =>
    if fromT1 then { h with t1Reads := (key, reply.bytes) :: h.t1Reads } else h

/-! ### The steps of a delete -/

def stepDelFind (s : EngineSystem) (t : Nat) (del : Update) : EngineSystem :=
  match s.engine.index.find del.key with
  | none => s.finish t s.engine del false .kNotFound
  | some entry =>
      if entry.tier = kT1Dram ∧ s.engine.t1Allocator.isSome then s.move t s.engine (.delFree del entry)
      else if entry.tier = kT2Nvme ∧ s.engine.t2Store.isSome then
        s.move t s.engine (.delMark del entry)
      else s.move t s.engine (.delErase del)

def stepDelErase (s : EngineSystem) (t : Nat) (del : Update) : EngineSystem :=
  (s.move t { s.engine with index := s.engine.index.erase del.key } (.delRemoveT1 del)).record
    fun h => { h with version := Function.update h.version del.key (h.version del.key + 1) }

def stepThread (s : EngineSystem) (t : Nat) (io : StepIo) : ThreadPc → Option EngineSystem
  | .idle => none
  | .putBegun put => some (s.stepAdmission t put)
  | .allocate put => some (s.stepAllocate t put)
  | .copy put ptr => some (s.stepCopy t put ptr)
  | .insertT1 put ptr => some (s.move t (onInsertT1 s.engine put io.now) (.publishT1 put ptr))
  | .publishT1 put ptr =>
      some (s.stepPublish t put (Engine.t1Entry put.blob put.opts put.times ptr) none)
  | .write put => s.stepWrite t put io
  | .insertT2 put loc => some (s.move t (onInsertT2 s.engine put io.now) (.publishT2 put loc))
  | .publishT2 put loc =>
      some (s.stepPublish t put (Engine.t2Entry put.blob put.opts put.times loc) (some put.update))
  | .evict put pc => s.stepEvict t put io pc
  | .getFind key bufLen => some (s.stepGetFind t key bufLen)
  | .getCopy key entry =>
      some (s.move t s.engine
        (.getAccessT1 key entry (slice s.engine.memory entry.address.toNat entry.length.toNat)))
  | .getAccessT1 key entry bytes =>
      let t1Eviction := s.engine.t1Eviction.onAccess key entry.recomputeCost io.now
      some (s.move t { s.engine with t1Eviction } (.getTouch key true { status := .kOk, bytes }))
  | .getRead key entry bufLen => s.stepGetRead t key entry bufLen io
  | .getAccessT2 key entry reply =>
      let t2Eviction := s.engine.t2Eviction.onAccess key entry.recomputeCost io.now
      some (s.move t { s.engine with t2Eviction } (.getTouch key false reply))
  | .getTouch key fromT1 reply => some (s.stepGetTouch t key fromT1 reply io)
  | .delFind del => some (s.stepDelFind t del)
  | .delFree del entry => some (s.move t (s.engine.freeT1 entry.address.toNat) (.delErase del))
  | .delMark del entry =>
      let t2Store := s.engine.t2Store.map (·.markDead (Engine.entryLocation entry))
      some (s.move t { s.engine with t2Store } (.delErase del))
  | .delErase del => some (s.stepDelErase t del)
  | .delRemoveT1 del =>
      let t1Eviction := s.engine.t1Eviction.onRemove del.key
      some (s.move t { s.engine with t1Eviction } (.delRemoveT2 del))
  | .delRemoveT2 del =>
      let t2Eviction := s.engine.t2Eviction.onRemove del.key
      some (s.finish t { s.engine with t2Eviction } del false .kOk)

def begin (s : EngineSystem) (t : Nat) (pc : Nat → ThreadPc) (puts : Nat → List Update) :
    Option EngineSystem :=
  match s.threads t with
  | .idle =>
      some ((s.move t s.engine (pc s.history.clock)).record fun h =>
        { h with clock := h.clock + 1, puts := puts h.clock ++ h.puts })
  | _ => none

def exec (s : EngineSystem) : EngineLabel → Option EngineSystem
  | .put t key blob opts createdAt lastAccess =>
      s.begin t
        (fun begun => .putBegun { update := { key, begun }, blob, opts, createdAt, lastAccess })
        fun begun => [{ key, begun }]
  | .get t key bufLen => s.begin t (fun _ => .getFind key bufLen) fun _ => []
  | .del t key => s.begin t (fun begun => .delFind { key, begun }) fun _ => []
  | .step t io => s.stepThread t io (s.threads t)
  | .flush step =>
      match s.engine.t2Store with
      | none => none
      | some t2 =>
          (t2.flushRun [step]).map fun t2 =>
            { s with engine := { s.engine with t2Store := some t2 } }

end EngineSystem

def engineMachine : Machine EngineSystem EngineLabel where
  start s := ∃ config io, Engine.openEngine config io = some s.engine ∧
    (∀ a, s.engine.t1Allocator = some a → a.Backed) ∧ s = { engine := s.engine }
  exec := EngineSystem.exec

end AttentionDB
