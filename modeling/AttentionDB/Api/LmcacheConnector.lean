import AttentionDB.Api.BackendRefinement

/-!
# The connector for remote storage

`AttentionDBConnector` stores the memory objects of its caller as blobs. A blob
starts with the metadata of its object if `save_chunk_meta` is set, and a get
builds the object again from it. The package that calls the connector provides
the metadata format, the memory for the objects and their shapes; what it does
is a parameter.
-/

namespace AttentionDB

open GuardedRuns BlobStore LossyMaps

set_option autoImplicit false

inductive LmcacheError where
  | runtimeError
  | valueError
  | overflowError
  | other
  deriving DecidableEq

/-- The exceptions that the connector handles. -/
def LmcacheError.handled : LmcacheError → Bool
  | .runtimeError | .valueError | .overflowError => true
  | .other => false

inductive ConnectorError where
  | engine (raised : PyError)
  | lmcache (raised : LmcacheError)
  deriving DecidableEq

/-- Shapes, types and format of an object, and its bytes. -/
structure MemoryObj (Layout : Type) where
  layout : Layout
  byteArray : List UInt8
  deriving DecidableEq

/-- What the connector inherits and calls of the package. The metadata are the
length of the bytes and the layout. -/
structure Lmcache (Layout : Type) where
  saveChunkMeta : Bool
  remoteMetadataBytes : Nat
  metaLayout : Layout
  singleTokenSize : Nat
  serialize : Nat → Layout → Except LmcacheError (List UInt8)
  deserialize : List UInt8 → Except LmcacheError (Nat × Layout)
  reshapePartialChunk : MemoryObj Layout → Nat → Except LmcacheError (MemoryObj Layout)

abbrev Allocate (Layout : Type) := Layout → Except LmcacheError (Option (MemoryObj Layout))

namespace AttentionDBConnector

def maskU64 (n : Int) : Int := n % 2 ^ 64

/-- `hashU64` is the first eight bytes of the SHA-256 of a string. -/
def mapKey (hashU64 : String → UInt64) (key : CacheEngineKey) : Except PyError StorageKey := do
  let modelId ← castUInt 64 <| maskU64 <| match key.modelName with
    | .inl name => (hashU64 name).toNat
    | .inr id => id
  let chunkHash ← castUInt 64 <| match key.chunkHash with
    | .inl hash => maskU64 hash
    | .inr text => (hashU64 text).toNat
  let layerGroupId ← castUInt 16 (maskU64 key.workerId)
  return {
    modelId := .ofNat modelId
    tenantId := 0
    chunkHash := .ofNat chunkHash
    layerGroupId := .ofNat layerGroupId
    chunkIndex := 0 }

section Objects

variable {Layout : Type} (lmcache : Lmcache Layout)

def frame (obj : MemoryObj Layout) : Except LmcacheError (List UInt8) :=
  if lmcache.saveChunkMeta then
    (lmcache.serialize obj.byteArray.length obj.layout).map (· ++ obj.byteArray)
  else .ok obj.byteArray

def putOpts (obj : MemoryObj Layout) : Except PyError PutOpts := do
  let numTokens : Nat :=
    if lmcache.singleTokenSize = 0 then 0 else obj.byteArray.length / lmcache.singleTokenSize
  let tokens ← castUInt 32 numTokens
  let recomputeCost ← castUInt 32 (max (numTokens * 100) 1000 : Nat)
  return {
    numTokens := .ofNat tokens
    recomputeCost := .ofNat recomputeCost
    entryType := .kConversation
    ttlSeconds := 0 }

/-- The bytes are copied into the object as far as it is large enough. -/
def filled (obj : MemoryObj Layout) (data : List UInt8) :
    Except LmcacheError (Option (MemoryObj Layout)) :=
  let actual := min data.length obj.byteArray.length
  (lmcache.reshapePartialChunk
    { obj with byteArray := data.take actual ++ obj.byteArray.drop actual } actual).map some

/-- The body of the `try` of `_get_sync`. -/
def rebuilt (allocate : Allocate Layout) (blob : List UInt8) :
    Except LmcacheError (Option (MemoryObj Layout)) :=
  if lmcache.saveChunkMeta then
    if blob.length < lmcache.remoteMetadataBytes then .ok none
    else
      match lmcache.deserialize (blob.take lmcache.remoteMetadataBytes) with
      | .error raised => .error raised
      | .ok metadata =>
          match allocate metadata.2 with
          | .error raised => .error raised
          | .ok none => .ok none
          | .ok (some obj) => filled lmcache obj (blob.drop lmcache.remoteMetadataBytes)
  else
    match allocate lmcache.metaLayout with
    | .error raised => .error raised
    | .ok none => .ok none
    | .ok (some obj) => filled lmcache obj blob

/-- The `except` of `_get_sync`: an exception that is handled gives no object. -/
def excepted : Except LmcacheError (Option (MemoryObj Layout)) →
    Except ConnectorError (Option (MemoryObj Layout))
  | .ok answer => .ok answer
  | .error raised => if raised.handled then .ok none else .error (.lmcache raised)

/-- `_get_sync` after the get of the engine, whose exceptions it does not handle. -/
def fetched (allocate : Allocate Layout) :
    Except PyError (Option (List UInt8)) → Except ConnectorError (Option (MemoryObj Layout))
  | .error raised => .error (.engine raised)
  | .ok none => .ok none
  | .ok (some blob) => excepted (rebuilt lmcache allocate blob)

/-- A `RuntimeError` of a put is only logged. -/
def dropped : Except PyError Unit → Except ConnectorError Unit
  | .ok _ | .error (.runtimeError _) => .ok ()
  | .error .typeError => .error (.engine .typeError)

variable (hashU64 : String → UInt64)

def existsSync (session : Session) (key : CacheEngineKey) : Except PyError Bool :=
  (mapKey hashU64 key).map (PyEngine.contains session)

def getSync (session : Session) (key : CacheEngineKey) (allocate : Allocate Layout) (io : PyGetIo) :
    Option (Except ConnectorError (Option (MemoryObj Layout)) × Session) :=
  match mapKey hashU64 key with
  | .error raised => some (.error (.engine raised), session)
  | .ok storageKey =>
      (PyEngine.get session storageKey io).map fun result =>
        (fetched lmcache allocate result.1, result.2)

def putSync (session : Session) (key : CacheEngineKey) (obj : MemoryObj Layout) (io : PutIo) :
    Option (Except ConnectorError Unit × Session) :=
  match mapKey hashU64 key with
  | .error raised => some (.error (.engine raised), session)
  | .ok storageKey =>
      match frame lmcache obj with
      | .error raised =>
          some (if raised.handled then .ok () else .error (.lmcache raised), session)
      | .ok blob =>
          match putOpts lmcache obj with
          | .error raised => some (dropped (.error raised), session)
          | .ok opts =>
              (PyEngine.put session storageKey blob opts io).map fun result =>
                (dropped result.1, result.2)

end Objects

end AttentionDBConnector

/-! ## Clients of the connector -/

inductive ConnectorCall (Layout : Type) where
  | exists (key : CacheEngineKey)
  | get (key : CacheEngineKey) (allocate : Allocate Layout) (io : PyGetIo)
  | put (key : CacheEngineKey) (obj : MemoryObj Layout) (io : PutIo)

inductive ConnectorReply (Layout : Type) where
  | present (answer : Except PyError Bool)
  | object (answer : Except ConnectorError (Option (MemoryObj Layout)))
  | done (answer : Except ConnectorError Unit)

structure ConnectorSession (Layout : Type) where
  session : Session
  log : List (ConnectorCall Layout × ConnectorReply Layout) := []

inductive ConnectorLabel (Layout : Type) where
  | call (call : ConnectorCall Layout)
  | flush (step : FlushStep)

section Clients

variable {Layout : Type} (lmcache : Lmcache Layout) (hashU64 : String → UInt64)

def ConnectorCall.run (session : Session) :
    ConnectorCall Layout → Option (ConnectorReply Layout × Session)
  | .exists key => some (.present (AttentionDBConnector.existsSync hashU64 session key), session)
  | .get key allocate io =>
      (AttentionDBConnector.getSync lmcache hashU64 session key allocate io).map fun result =>
        (.object result.1, result.2)
  | .put key obj io =>
      (AttentionDBConnector.putSync lmcache hashU64 session key obj io).map fun result =>
        (.done result.1, result.2)

def ConnectorSession.exec (s : ConnectorSession Layout) :
    ConnectorLabel Layout → Option (ConnectorSession Layout)
  | .call call =>
      (call.run lmcache hashU64 s.session).map fun result =>
        { session := result.2, log := (call, result.1) :: s.log }
  | .flush step => (s.session.exec (.flush step)).map fun session => { s with session }

end Clients

end AttentionDB
