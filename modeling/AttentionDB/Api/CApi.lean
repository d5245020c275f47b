import AttentionDB.Engine.SessionCalls

/-!
# The C interface

The functions of `c_api.cpp` on an open handle, over the calls of the engine.
Every pointer may be null. The batched functions are loops with early returns,
so what a call leaves in the arrays of its caller is part of its result. A null
array among several is written as no arrays at all.
-/

namespace AttentionDB

open GuardedRuns BlobStore

set_option autoImplicit false

/-- `attentiondb_key_t`, packed like the key of the server. -/
structure CKey where
  modelId : UInt64
  tenantId : UInt64
  chunkHash : UInt64
  layerGroupId : UInt16
  chunkIndex : UInt32
  deriving DecidableEq, Repr

/-- `attentiondb_put_opts_t`; the entry type is a raw byte. -/
structure CPutOpts where
  numTokens : UInt32
  recomputeCost : UInt32
  entryType : UInt8
  ttlSeconds : UInt32
  deriving DecidableEq, Repr

abbrev CStatus := Nat

def ATTENTIONDB_OK : CStatus := 0

def ATTENTIONDB_INVALID_ARGUMENT : CStatus := 8

/-- The cast of `to_c_status`, by the values that `enum class Status` gives. -/
def toCStatus : Status → CStatus
  | .kOk => 0
  | .kNotFound => 1
  | .kRejectedAdmission => 2
  | .kRejectedBackpressure => 3
  | .kFull => 4
  | .kBufferTooSmall => 5
  | .kCorruption => 6
  | .kIOError => 7
  | .kInvalidArgument => 8
  | .kAlreadyExists => 9
  | .kShutdown => 10

def toStorageKey (k : CKey) : StorageKey where
  modelId := k.modelId
  tenantId := k.tenantId
  chunkHash := k.chunkHash
  layerGroupId := k.layerGroupId
  chunkIndex := k.chunkIndex

/-- A byte that names no entry type leaves the default one. -/
def toPutOpts (o : CPutOpts) : PutOpts where
  numTokens := o.numTokens
  recomputeCost := o.recomputeCost
  entryType :=
    if o.entryType = 0 then .kConversation
    else if o.entryType = 1 then .kSystemPrompt
    else if o.entryType = 2 then .kRagContext
    else ({} : PutOpts).entryType
  ttlSeconds := o.ttlSeconds

/-! ## The functions -/

structure PutItem where
  key : CKey
  blob : Option (List UInt8)
  opts : CPutOpts
  before : List FlushStep := []
  io : PutIo := {}

/-- One element of the arrays of a batched get; `buf` is the length of the
buffer, if there is one. -/
structure GetItem where
  key : CKey
  buf : Option Nat
  before : List FlushStep := []
  io : GetIo := {}

structure DelItem where
  key : CKey
  before : List FlushStep := []

/-- What a get left in the caller's arrays: the length that was stored, if any
was, and the bytes that were copied. -/
structure GetOut where
  length : Option Nat := none
  bytes : List UInt8 := []
  deriving DecidableEq, Repr

structure ApiReply where
  status : CStatus := ATTENTIONDB_OK
  present : List Bool := []
  outs : List GetOut := []
  deriving DecidableEq, Repr

/-- `get` stores the length and copies the blob where it returns `kOk`. -/
def getOut (reply : ReadReply) : GetOut :=
  if reply.status = .kOk then { length := some reply.bytes.length, bytes := reply.bytes } else {}

inductive ApiCall where
  | put (handle : Bool) (key : Option CKey) (blob : Option (List UInt8)) (opts : Option CPutOpts)
      (io : PutIo)
  | get (handle : Bool) (key : Option CKey) (buf : Option Nat) (blobLenOut : Bool) (io : GetIo)
  | contains (handle : Bool) (keys : Option (List CKey)) (results : Bool)
  | delete (handle : Bool) (keys : Option (List DelItem))
  | batchedPut (handle : Bool) (arrays : Option (List PutItem))
  | batchedGet (handle : Bool) (arrays : Option (List GetItem))

/-- The loop of `attentiondb_delete`, with the last error so far. -/
def deleteLoop : List DelItem → CStatus → Session → Option (CStatus × Session)
  | [], lastErr, session => some (lastErr, session)
  | item :: items, lastErr, session =>
      match session.flushSteps item.before with
      | none => none
      | some session =>
          let (s, session) := session.del (toStorageKey item.key)
          deleteLoop items (if s ≠ .kOk ∧ s ≠ .kNotFound then toCStatus s else lastErr) session

/-- The loop of `attentiondb_batched_put`. Items without a blob are skipped. -/
def batchedPutLoop : List PutItem → Session → Option (CStatus × Session)
  | [], session => some (ATTENTIONDB_OK, session)
  | item :: items, session =>
      match item.blob with
      | none => batchedPutLoop items session
      | some blob =>
          match session.flushSteps item.before with
          | none => none
          | some session =>
              match session.put (toStorageKey item.key) blob (toPutOpts item.opts) item.io with
              | none => none
              | some (s, session) =>
                  if s ≠ .kOk ∧ s ≠ .kRejectedAdmission then some (toCStatus s, session)
                  else batchedPutLoop items session

/-- The loop of `attentiondb_batched_get`. An error leaves the rest of the
arrays as they were. -/
def batchedGetLoop : List GetItem → Session → Option ((CStatus × List GetOut) × Session)
  | [], session => some ((ATTENTIONDB_OK, []), session)
  | item :: items, session =>
      match item.buf with
      | none =>
          (batchedGetLoop items session).map fun result =>
            ((result.1.1, { length := some 0 } :: result.1.2), result.2)
      | some bufLen =>
          match session.flushSteps item.before with
          | none => none
          | some session =>
              match session.get (toStorageKey item.key) bufLen item.io with
              | none => none
              | some (reply, session) =>
                  if reply.status = .kNotFound then
                    (batchedGetLoop items session).map fun result =>
                      ((result.1.1, { length := some 0 } :: result.1.2), result.2)
                  else if reply.status ≠ .kOk then
                    some ((toCStatus reply.status, getOut reply :: items.map fun _ => {}), session)
                  else
                    (batchedGetLoop items session).map fun result =>
                      ((result.1.1, getOut reply :: result.1.2), result.2)

namespace ApiCall

/-- One call of the interface. A null pointer is refused before anything else. -/
def run (session : Session) : ApiCall → Option (ApiReply × Session)
  | .put true (some key) (some blob) (some opts) io =>
      (session.put (toStorageKey key) blob (toPutOpts opts) io).map fun result =>
        ({ status := toCStatus result.1 }, result.2)
  | .get true (some key) (some bufLen) true io =>
      (session.get (toStorageKey key) bufLen io).map fun result =>
        ({ status := toCStatus result.1.status, outs := [getOut result.1] }, result.2)
  | .contains true (some keys) true =>
      some ({ present := keys.map fun key => session.engine.index.contains (toStorageKey key) },
        session)
  | .delete true (some keys) =>
      (deleteLoop keys ATTENTIONDB_OK session).map fun result => ({ status := result.1 }, result.2)
  | .batchedPut true (some items) =>
      (batchedPutLoop items session).map fun result => ({ status := result.1 }, result.2)
  | .batchedGet true (some items) =>
      (batchedGetLoop items session).map fun result =>
        ({ status := result.1.1, outs := result.1.2 }, result.2)
  | _ => some ({ status := ATTENTIONDB_INVALID_ARGUMENT }, session)

end ApiCall

/-! ## Clients of the interface -/

structure ApiSession where
  session : Session
  log : List (ApiCall × ApiReply) := []

inductive ApiLabel where
  | call (call : ApiCall)
  | flush (step : FlushStep)

def ApiSession.exec (s : ApiSession) : ApiLabel → Option ApiSession
  | .call call =>
      (call.run s.session).map fun result => { session := result.2, log := (call, result.1) :: s.log }
  | .flush step => (s.session.exec (.flush step)).map fun session => { s with session }

theorem to_c_status_injective : Function.Injective toCStatus := by
  intro s t same
  cases s <;> cases t <;> first | rfl | exact absurd same (by decide)

theorem to_storage_key_injective : Function.Injective toStorageKey := by
  intro k l same
  cases k
  cases l
  simpa [toStorageKey] using same

end AttentionDB
