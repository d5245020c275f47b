import AttentionDB.Engine.SessionCalls

/-!
# The Python binding and its cache backend

`PyEngine` turns a status into an exception, and retries a get once with a
larger buffer. `AttentionDBBackend` maps the keys of its caller to storage keys
and drops what a put raises. An integer that does not fit the parameter of the
binding raises before the engine is called.
-/

namespace AttentionDB

open GuardedRuns BlobStore

set_option autoImplicit false

def statusToString : Status → String
  | .kOk => "OK"
  | .kNotFound => "NOT_FOUND"
  | .kRejectedAdmission => "REJECTED_ADMISSION"
  | .kRejectedBackpressure => "REJECTED_BACKPRESSURE"
  | .kFull => "FULL"
  | .kBufferTooSmall => "BUFFER_TOO_SMALL"
  | .kCorruption => "CORRUPTION"
  | .kIOError => "IO_ERROR"
  | .kInvalidArgument => "INVALID_ARGUMENT"
  | .kAlreadyExists => "ALREADY_EXISTS"
  | .kShutdown => "SHUTDOWN"

/-- What a Python caller catches: `RuntimeError` for a status of the engine,
`TypeError` for an argument that the binding cannot convert. -/
inductive PyError where
  | runtimeError (message : String)
  | typeError
  deriving DecidableEq

def checkStatus (s : Status) (op : String) : Except PyError Unit :=
  if s = .kOk then .ok () else .error (.runtimeError (op ++ " failed: " ++ statusToString s))

/-- The conversion of a Python integer to an unsigned parameter. -/
def castUInt (bits : Nat) (n : Int) : Except PyError Nat :=
  if 0 ≤ n ∧ n < 2 ^ bits then .ok n.toNat else .error .typeError

/-! ## The binding -/

structure PyGetIo where
  first : GetIo := {}
  between : List FlushStep := []
  retry : GetIo := {}

namespace PyEngine

def put (session : Session) (key : StorageKey) (data : List UInt8) (opts : PutOpts) (io : PutIo) :
    Option (Except PyError Unit × Session) :=
  (session.put key data opts io).map fun result => (checkStatus result.1 "put", result.2)

def firstBuffer : Nat := 4 * 1024 * 1024

def retryBuffer : Nat := 16 * 1024 * 1024

/-- `check_status` and the bytes of the buffer. -/
def getBytes (reply : ReadReply) : Except PyError (Option (List UInt8)) :=
  (checkStatus reply.status "get").map fun _ => some reply.bytes

def get (session : Session) (key : StorageKey) (io : PyGetIo) :
    Option (Except PyError (Option (List UInt8)) × Session) :=
  match session.get key firstBuffer io.first with
  | none => none
  | some (reply, session) =>
      if reply.status = .kNotFound then some (.ok none, session)
      else if reply.status = .kBufferTooSmall then
        match session.flushSteps io.between with
        | none => none
        | some session =>
            (session.get key retryBuffer io.retry).map fun result => (getBytes result.1, result.2)
      else some (getBytes reply, session)

def contains (session : Session) (key : StorageKey) : Bool := session.engine.index.contains key

def batchedContains (session : Session) (keys : List StorageKey) : List Bool :=
  keys.map (contains session)

/-- `del` does not look at the status. -/
def del (session : Session) (key : StorageKey) : Session := (session.del key).2

end PyEngine

/-! ## The backend -/

/-- What the backend reads of a key of its caller. A hash that is not an
integer is given by its `str`, and a request without a type has none. -/
structure CacheEngineKey where
  modelName : String ⊕ Int := .inl ""
  chunkHash : Int ⊕ String := .inl 0
  workerId : Int := 0
  requestKind : Option String := none
  deriving DecidableEq

structure AttentionDBBackend where
  tenantId : Int := 0
  chunkSize : Int := 256
  costPerToken : Int := 1

/-- `keys[start:stop]`: a negative bound counts from the end. -/
def pySlice {α : Type*} (items : List α) (start stop : Int) : List α :=
  let bound (i : Int) : Nat :=
    if i < 0 then (i + items.length).toNat else min i.toNat items.length
  (items.take (bound stop)).drop (bound start)

namespace AttentionDBBackend

/-- One task of `batched_submit_put_task`, with the flush steps before it. -/
structure PutTask where
  key : CacheEngineKey
  data : List UInt8
  before : List FlushStep := []
  io : PutIo := {}

/-- `hashU64` is the first eight bytes of the SHA-256 of a string. -/
def mapKey (hashU64 : String → UInt64) (backend : AttentionDBBackend) (key : CacheEngineKey) :
    Except PyError StorageKey := do
  let modelId ← castUInt 64 <| match key.modelName with
    | .inl name => (hashU64 name).toNat
    | .inr id => id
  let tenantId ← castUInt 64 backend.tenantId
  let chunkHash ← castUInt 64 <| match key.chunkHash with
    | .inl hash => hash
    | .inr text => (hashU64 text).toNat
  let layerGroupId ← castUInt 16 key.workerId
  return {
    modelId := .ofNat modelId
    tenantId := .ofNat tenantId
    chunkHash := .ofNat chunkHash
    layerGroupId := .ofNat layerGroupId
    chunkIndex := 0 }

def classifyEntry (key : CacheEngineKey) : EntryType :=
  match key.requestKind with
  | some "system_prompt" => .kSystemPrompt
  | some "rag_context" => .kRagContext
  | _ => .kConversation

def computePutOpts (backend : AttentionDBBackend) (key : CacheEngineKey) : Except PyError PutOpts := do
  let numTokens ← castUInt 32 backend.chunkSize
  let recomputeCost ← castUInt 32 (backend.chunkSize * backend.costPerToken)
  return {
    numTokens := .ofNat numTokens
    recomputeCost := .ofNat recomputeCost
    entryType := classifyEntry key
    ttlSeconds := 0 }

variable (hashU64 : String → UInt64) (backend : AttentionDBBackend)

def contains (session : Session) (key : CacheEngineKey) : Except PyError Bool :=
  (backend.mapKey hashU64 key).map (PyEngine.contains session)

/-- The loop of `batched_contains`, which stops at the first miss. -/
def prefixLoop (session : Session) : List CacheEngineKey → Nat → Except PyError Nat
  | [], count => .ok count
  | key :: keys, count =>
      match backend.mapKey hashU64 key with
      | .error raised => .error raised
      | .ok storageKey =>
          if PyEngine.contains session storageKey then prefixLoop session keys (count + 1)
          else .ok count

def searched (keys : List CacheEngineKey) (searchRange : Option (Int × Int)) : List CacheEngineKey :=
  match searchRange with
  | some (start, stop) => pySlice keys start stop
  | none => keys

def batchedContains (session : Session) (keys : List CacheEngineKey)
    (searchRange : Option (Int × Int)) : Except PyError Nat :=
  backend.prefixLoop hashU64 session (searched keys searchRange) 0

def getBlocking (session : Session) (key : CacheEngineKey) (io : PyGetIo) :
    Option (Except PyError (Option (List UInt8)) × Session) :=
  match backend.mapKey hashU64 key with
  | .error raised => some (.error raised, session)
  | .ok storageKey => PyEngine.get session storageKey io

/-- A put that raises `RuntimeError` is logged and the loop goes on. -/
def submitLoop : List PutTask → Session → Option (Except PyError Unit × Session)
  | [], session => some (.ok (), session)
  | task :: tasks, session =>
      match backend.mapKey hashU64 task.key, backend.computePutOpts task.key with
      | .error raised, _ | .ok _, .error raised => some (.error raised, session)
      | .ok storageKey, .ok opts =>
          match session.flushSteps task.before with
          | none => none
          | some session =>
              match PyEngine.put session storageKey task.data opts task.io with
              | none => none
              | some (.error .typeError, session) => some (.error .typeError, session)
              | some (.error (.runtimeError _), session) | some (.ok _, session) =>
                  submitLoop tasks session

def remove (session : Session) (key : CacheEngineKey) : Except PyError Unit × Session :=
  match backend.mapKey hashU64 key with
  | .error raised => (.error raised, session)
  | .ok storageKey => (.ok (), PyEngine.del session storageKey)

end AttentionDBBackend

/-! ## Clients of the backend -/

inductive BackendCall where
  | contains (key : CacheEngineKey)
  | batchedContains (keys : List CacheEngineKey) (searchRange : Option (Int × Int))
  | getBlocking (key : CacheEngineKey) (io : PyGetIo)
  | submitPuts (tasks : List AttentionDBBackend.PutTask)
  | remove (key : CacheEngineKey)

inductive BackendReply where
  | present (answer : Except PyError Bool)
  | count (answer : Except PyError Nat)
  | blob (answer : Except PyError (Option (List UInt8)))
  | done (answer : Except PyError Unit)

structure BackendSession where
  session : Session
  log : List (BackendCall × BackendReply) := []

inductive BackendLabel where
  | call (call : BackendCall)
  | flush (step : FlushStep)

section Clients

variable (hashU64 : String → UInt64) (backend : AttentionDBBackend)

def BackendCall.run (session : Session) : BackendCall → Option (BackendReply × Session)
  | .contains key => some (.present (backend.contains hashU64 session key), session)
  | .batchedContains keys searchRange =>
      some (.count (backend.batchedContains hashU64 session keys searchRange), session)
  | .getBlocking key io =>
      (backend.getBlocking hashU64 session key io).map fun result => (.blob result.1, result.2)
  | .submitPuts tasks =>
      (backend.submitLoop hashU64 tasks session).map fun result => (.done result.1, result.2)
  | .remove key =>
      some (.done (backend.remove hashU64 session key).1, (backend.remove hashU64 session key).2)

def BackendSession.exec (s : BackendSession) : BackendLabel → Option BackendSession
  | .call call =>
      (call.run hashU64 backend s.session).map fun result =>
        { session := result.2, log := (call, result.1) :: s.log }
  | .flush step => (s.session.exec (.flush step)).map fun session => { s with session }

def backendMachine (checkpoints : Option (List (StorageKey × IndexEntry)) → Prop) :
    Machine BackendSession BackendLabel where
  start s := (sessionMachine checkpoints).start s.session ∧ s.log = []
  exec := BackendSession.exec hashU64 backend

end Clients

end AttentionDB
