import AttentionDB.Api.LmcacheConnector

/-!
# Memory objects in a map that forgets

The caller of the connector sees a map from keys to memory objects. Whether a
put was accepted it is not told, so that the events of the map are some reading
of its log. An object that comes back is the one of the last put that was
accepted for the storage key, and an object whose cost reaches the threshold of
admission is not forgotten.
-/

namespace AttentionDB

open GuardedRuns BlobStore LossyMaps ByteMap

set_option autoImplicit false

variable {Layout : Type} {lmcache : Lmcache Layout} {hashU64 : String → UInt64}

def ConnectorCall.Succeeds : ConnectorCall Layout → Prop
  | .exists _ => True
  | .get _ _ io => io.Succeeds
  | .put _ _ io => Engine.PutSucceeds io

section Calls

variable {minCost : UInt32} {kept : Prop} {session after : Session}

end Calls

/-! ## Runs of a client -/

section Clients

variable {minCost : UInt32} {kept : Prop} {s after : ConnectorSession Layout}
  {label : ConnectorLabel Layout}

end Clients

/-! ## The object that comes back -/

section RoundTrip

variable {size : Layout → Nat} {obj : MemoryObj Layout} {blob : List UInt8}

/-- What a get gives for an object, which depends on the memory alone. -/
def returned (lmcache : Lmcache Layout) (allocate : Allocate Layout) (obj : MemoryObj Layout) :
    Except LmcacheError (Option (MemoryObj Layout)) :=
  match allocate obj.layout with
  | .error raised => .error raised
  | .ok none => .ok none
  | .ok (some _) => (lmcache.reshapePartialChunk obj obj.byteArray.length).map some

end RoundTrip

section Answers

variable {s : ConnectorSession Layout} {size : Layout → Nat}

end Answers

/-! ## A chunk that was demoted -/

end AttentionDB
