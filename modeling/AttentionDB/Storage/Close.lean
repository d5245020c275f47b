import AttentionDB.Storage.BlobStoreSystem

/-!
# Closing a store

`close` queues the active block if it holds entries, lets the flush thread
finish, frees the buffers of all blocks, and writes and closes the segments. A
closed store is not guarded against further calls, so the life of a store goes
on: one client calls `write` and `close` in any order, and the flush thread
steps while the store is open.
-/

namespace AttentionDB

open ByteMap GuardedRuns

set_option autoImplicit false

namespace BlobStore

/-- What the system decides in `close`: the steps of the flush thread up to its
end, and the outcome of each header that is written. -/
structure CloseIo where
  steps : List FlushStep := []
  headers : Nat → SegmentIo := fun _ => {}

def retireActive (s : BlobStore) : BlobStore :=
  match s.activeBlock with
  | none => s
  | some b =>
      if 0 < (s.blocks b).pos then { s with flushQueue := s.flushQueue ++ [b], activeBlock := none }
      else s

/-- The flush thread up to its end: it stops at an empty queue. -/
def drain (s : BlobStore) (pc : FlushPc) : List FlushStep → Option BlobStore
  | [] => if pc = .idle ∧ s.flushQueue = [] then some s else none
  | step :: steps =>
      match s.flushStep pc step with
      | none => none
      | some (pc, s) => s.drain pc steps

def writeSegmentHeader (files : Files) (seg : SegmentInfo) (io : SegmentIo) : Files :=
  let header : SegmentHeader :=
    { segmentId := seg.id
      createdAt := io.createdAt
      entryCount := seg.entryCount
      liveCount := seg.liveCount }
  (syncWrite files seg.fd header.encode 0 io.header).2

def closeSegments (s : BlobStore) (headers : Nat → SegmentIo) : BlobStore :=
  { s with
    files := s.segments.zipIdx.foldl (fun files pair => writeSegmentHeader files pair.1 (headers pair.2))
      s.files
    segments := s.segments.map fun seg => { seg with fd := none }
    activeSegment := none }

/-- `close`; the buffers that it frees are gone with the caller's flag. -/
def close (s : BlobStore) (pc : FlushPc) (io : CloseIo) : Option BlobStore :=
  ({ s.retireActive with flushRunning := false }.drain pc io.steps).map (closeSegments · io.headers)

end BlobStore

/-! ## One client of a store -/

open BlobStore

/-- The store with the buffers' state: `closed` once they are freed. Two facts
about the past are kept: whether the active block was reset after it was
acquired, and whether the last `create_new_segment` failed. -/
structure StoreLife where
  store : BlobStore
  flush : FlushPc := .idle
  writer : WriterPc := .idle
  closed : Bool := false
  activeReset : Bool := true
  creationFailed : Bool := false

inductive LifeLabel where
  | write (request : WriteRequest) (io : SegmentIo)
  | resume (io : SegmentIo)
  | direct (io : SegmentIo) (result : IoResult)
  | flush (step : FlushStep)
  | close (io : CloseIo)

inductive Target where
  | append (segment : Option SegmentInfo) (freed reset : Bool)
  | direct (segment : Option SegmentInfo)
  deriving DecidableEq, Repr

/-- The segment is there, and a block is one that was reset and has its buffer. -/
def Target.Valid : Target → Prop
  | .append segment freed reset => segment.isSome = true ∧ freed = false ∧ reset = true
  | .direct segment => segment.isSome = true

instance (target : Target) : Decidable target.Valid := by
  cases target <;> (unfold Target.Valid; infer_instance)

namespace StoreLife

/-- The active block, if the entry fits a block but not the rest of that one. -/
def rotates (s : BlobStore) (request : WriteRequest) : Option Nat :=
  let diskSize := entryDiskSize request.data.length
  if 2 ^ 32 - 1 - kEntryHeaderSize < request.data.length then none
  else
    match s.activeBlock with
    | none => none
    | some b =>
        if (s.blocks b).capacity < diskSize then none
        else if (s.blocks b).capacity < (s.blocks b).pos + diskSize then some b
        else none

/-- Whether the active block is reset after `acquire_block` and what follows it. -/
def resetAfterAcquire (wasReset : Bool) (s : BlobStore) : WriteOutcome → Bool
  | .stored _ => true
  | .failed _ => if s.freePool = [] then wasReset else false
  | _ => wasReset

def resetAfterEnter (wasReset : Bool) (s : BlobStore) (request : WriteRequest)
    (outcome : WriteOutcome) : Bool :=
  match rotates s request with
  | some b => resetAfterAcquire wasReset (s.retireBlock b) outcome
  | none => wasReset

/-- A section has created a segment exactly if it has used an id. -/
def creationAfter (failed : Bool) (before after : BlobStore) (io : SegmentIo) : Bool :=
  if after.nextSegmentId = before.nextSegmentId then failed else !io.opened

def exec (life : StoreLife) : LifeLabel → Option StoreLife
  | .write request io =>
      match life.writer with
      | .idle =>
          (life.store.writeEnter request io).map fun result =>
            { life with
              store := result.2
              writer := StoreSystem.pcAfter request result.1
              activeReset := resetAfterEnter life.activeReset life.store request result.1
              creationFailed := creationAfter life.creationFailed life.store result.2 io }
      | _ => none
  | .resume io =>
      match life.writer with
      | .waiting request =>
          (life.store.acquireAndAppend request io).map fun result =>
            { life with
              store := result.2
              writer := StoreSystem.pcAfter request result.1
              activeReset := resetAfterAcquire life.activeReset life.store result.1
              creationFailed := creationAfter life.creationFailed life.store result.2 io }
      | _ => none
  | .direct io result =>
      match life.writer with
      | .direct request =>
          (life.store.writeDirect request io result).map fun result =>
            { life with
              store := result.2
              writer := .idle
              creationFailed := creationAfter life.creationFailed life.store result.2 io }
      | _ => none
  | .flush step =>
      if life.closed then none
      else
        (life.store.flushStep life.flush step).map fun after =>
          { life with flush := after.1, store := after.2 }
  | .close io =>
      match life.writer with
      | .idle =>
          (life.store.close life.flush io).map fun store =>
            { life with store, flush := .idle, closed := true }
      | _ => none

/-! ## What a section dereferences -/

def acquireTargets (closed : Bool) (s : BlobStore) (io : SegmentIo) : List Target :=
  match s.takeBlock with
  | none => []
  | some (b, s) =>
      let s := { s with activeBlock := some b }
      let s := s.segmentForBlock b io
      match s.currentSegment with
      | none => []
      | some seg => if seg.fd = none then [] else [.append (some seg) closed true]

def enterTargets (life : StoreLife) (request : WriteRequest) (io : SegmentIo) : List Target :=
  let s := life.store
  let diskSize := entryDiskSize request.data.length
  if 2 ^ 32 - 1 - kEntryHeaderSize < request.data.length then []
  else
    match s.activeBlock with
    | none => []
    | some b =>
        if (s.blocks b).capacity < diskSize then []
        else if (s.blocks b).capacity < (s.blocks b).pos + diskSize then
          acquireTargets life.closed (s.retireBlock b) io
        else [.append s.currentSegment life.closed life.activeReset]

def directTargets (s : BlobStore) (request : WriteRequest) (io : SegmentIo) : List Target :=
  [.direct (s.segmentForEntry (entryDiskSize request.data.length) io).currentSegment]

/-- What the next section dereferences, were it to run with this label. -/
def targets (life : StoreLife) : LifeLabel → List Target
  | .write request io =>
      match life.writer with
      | .idle => life.enterTargets request io
      | _ => []
  | .resume io =>
      match life.writer with
      | .waiting _ => acquireTargets life.closed life.store io
      | _ => []
  | .direct io _ =>
      match life.writer with
      | .direct request => directTargets life.store request io
      | _ => []
  | _ => []

end StoreLife

/-- The lives of a store that `open` returned `kOk` for. -/
def lifeMachine : Machine StoreLife LifeLabel where
  start life := ∃ config files io,
    (openStore config files io).1 = .kOk ∧ life = { store := (openStore config files io).2 }
  exec := StoreLife.exec

end AttentionDB
