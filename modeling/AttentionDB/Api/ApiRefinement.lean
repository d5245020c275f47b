import AttentionDB.Api.CApi

/-!
# The C interface over the map that forgets

A client of the interface sees the same map as the engine. A batched call is
the row of its items: what a batched get leaves in the arrays is a function of
the contents, a batched put stores its items in order up to the first hard
failure, and a delete leaves none of its keys.
-/

namespace AttentionDB

open GuardedRuns BlobStore LossyMaps

set_option autoImplicit false

/-! ## The interface on the contents of the map -/

def ApiCall.Succeeds : ApiCall → Prop
  | .put _ _ _ _ io => Engine.PutSucceeds io
  | .get _ _ _ _ io => io.Succeeds
  | .contains _ _ _ => True
  | .delete _ keys => ∀ items, keys = some items → ∀ item ∈ items, FlushSucceeds item.before
  | .batchedPut _ arrays => ∀ items, arrays = some items →
      ∀ item ∈ items, FlushSucceeds item.before ∧ Engine.PutSucceeds item.io
  | .batchedGet _ arrays => ∀ items, arrays = some items →
      ∀ item ∈ items, FlushSucceeds item.before ∧ item.io.Succeeds

section Steps

variable {minCost : UInt32} {kept : Prop} {session middle after : Session}

section Items

variable {contents : StorageKey → Option PutRecord} {item : GetItem} {items : List GetItem}
  {bufLen : Nat} {reply : ReadReply}

end Items

end Steps

section Clients

variable {minCost : UInt32} {kept : Prop} {s after : ApiSession} {label : ApiLabel}

end Clients

/-! ## A batch with a repeated key and a null blob -/

end AttentionDB
