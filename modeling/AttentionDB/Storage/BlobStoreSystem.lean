import AttentionDB.Storage.BlobStore
import AttentionDB.Lib.GuardedRuns

/-!
# Threads around one blob store

Writer threads, reader threads and the flush thread share one open store. One
step is one section under `block_mu_`, one section under `segments_mu_`, or one
I/O call, of one thread. Two histories are kept next to the store: every entry
a write returned a location for, and those among them whose block has not been
written yet.
-/

namespace AttentionDB

open GuardedRuns

set_option autoImplicit false

structure Ack where
  loc : BlobLocation
  data : List UInt8
  block : Option Nat
  deriving DecidableEq, Repr

inductive WriterPc where
  | idle
  | waiting (request : WriteRequest)
  | direct (request : WriteRequest)

/-- A call of `read`, with the writes that had returned when it began. -/
structure ReadCall where
  loc : BlobLocation
  bufLen : Nat
  acked : List Ack

inductive ReaderPc where
  | idle
  | pending (call : ReadCall) (attempt : Nat)
  | lookup (call : ReadCall) (attempt : Nat)
  | disk (call : ReadCall) (attempt : Nat) (path : SegmentPath)
  | returned (call : ReadCall) (reply : BlobStore.ReadReply)

structure StoreSystem where
  store : BlobStore
  flush : BlobStore.FlushPc := .idle
  writers : Nat → WriterPc := fun _ => .idle
  readers : Nat → ReaderPc := fun _ => .idle
  acked : List Ack := []
  unwritten : List Ack := []

inductive StoreLabel where
  | writeBegin (t : Nat) (request : WriteRequest) (io : SegmentIo)
  | writeResume (t : Nat) (io : SegmentIo)
  | writeDirect (t : Nat) (io : SegmentIo) (result : IoResult)
  | flush (step : BlobStore.FlushStep)
  | readBegin (r : Nat) (loc : BlobLocation) (bufLen : Nat)
  | readPending (r : Nat)
  | readLookup (r : Nat)
  | readDisk (r : Nat) (readOk : Bool)

def StoreLabel.reads : StoreLabel → Bool
  | .readBegin _ _ _ | .readPending _ | .readLookup _ | .readDisk _ _ => true
  | _ => false

namespace StoreSystem

open BlobStore

def setWriter (system : StoreSystem) (t : Nat) (pc : WriterPc) : StoreSystem :=
  { system with writers := Function.update system.writers t pc }

def setReader (system : StoreSystem) (r : Nat) (pc : ReaderPc) : StoreSystem :=
  { system with readers := Function.update system.readers r pc }

def afterSection (system : StoreSystem) (t : Nat) (request : WriteRequest) :
    WriteOutcome × BlobStore → StoreSystem
  | (.stored loc, store) =>
      let ack : Ack := { loc, data := request.data, block := store.activeBlock }
      { system.setWriter t .idle with
        store
        acked := ack :: system.acked
        unwritten := ack :: system.unwritten }
  | (.failed _, store) => { system.setWriter t .idle with store }
  | (.waiting, store) => { system.setWriter t (.waiting request) with store }
  | (.direct, store) => { system.setWriter t (.direct request) with store }

def afterDirect (system : StoreSystem) (t : Nat) (request : WriteRequest) :
    WriteOutcome × BlobStore → StoreSystem
  | (.stored loc, store) =>
      { system.setWriter t .idle with
        store
        acked := { loc, data := request.data, block := none } :: system.acked }
  | (_, store) => { system.setWriter t .idle with store }

def blockWritten (store : BlobStore) (b : Nat) (result : IoResult) : Bool :=
  result = .complete && (store.blocks b).segmentFd.isSome

def unwrittenAfter (system : StoreSystem) : FlushStep → List Ack
  | .write result =>
      match system.flush with
      | .writing b =>
          if blockWritten system.store b result then
            system.unwritten.filter fun ack => !(ack.block = some b && system.store.covers ack.loc b)
          else system.unwritten
      | _ => system.unwritten
  | _ => system.unwritten

/-- The reader after an attempt that found nothing it could return. -/
def retry (call : ReadCall) (attempt : Nat) : ReaderPc :=
  if attempt + 1 < 2 then .pending call (attempt + 1) else .returned call { status := .kNotFound }

def exec (system : StoreSystem) : StoreLabel → Option StoreSystem
  | .writeBegin t request io =>
      match system.writers t with
      | .idle => (system.store.writeEnter request io).map (system.afterSection t request)
      | _ => none
  | .writeResume t io =>
      match system.writers t with
      | .waiting request =>
          (system.store.acquireAndAppend request io).map (system.afterSection t request)
      | _ => none
  | .writeDirect t io result =>
      match system.writers t with
      | .direct request =>
          (system.store.writeDirect request io result).map (system.afterDirect t request)
      | _ => none
  | .flush step =>
      (system.store.flushStep system.flush step).map fun after =>
        { system with flush := after.1, store := after.2, unwritten := system.unwrittenAfter step }
  | .readBegin r loc bufLen =>
      match system.readers r with
      | .idle | .returned _ _ =>
          some (system.setReader r (.pending { loc, bufLen, acked := system.acked } 0))
      | _ => none
  | .readPending r =>
      match system.readers r with
      | .pending call attempt =>
          match system.store.readPending call.loc call.bufLen with
          | some reply => some (system.setReader r (.returned call reply))
          | none => some (system.setReader r (.lookup call attempt))
      | _ => none
  | .readLookup r =>
      match system.readers r with
      | .lookup call attempt =>
          match system.store.segmentFd call.loc.segmentId with
          | some path => some (system.setReader r (.disk call attempt path))
          | none => some (system.setReader r (.returned call { status := .kNotFound }))
      | _ => none
  | .readDisk r readOk =>
      match system.readers r with
      | .disk call attempt path =>
          match system.store.readDisk path call.loc call.bufLen attempt readOk with
          | some reply => some (system.setReader r (.returned call reply))
          | none => some (system.setReader r (retry call attempt))
      | _ => none

def recorded (acked : List Ack) (request : WriteRequest) : WriteOutcome → BlobStore → List Ack
  | .stored loc, store => { loc, data := request.data, block := store.activeBlock } :: acked
  | _, _ => acked

def pcAfter (request : WriteRequest) : WriteOutcome → WriterPc
  | .waiting => .waiting request
  | .direct => .direct request
  | _ => .idle

@[simp] theorem after_section_acked (system : StoreSystem) (t : Nat) (request : WriteRequest)
    (outcome : WriteOutcome) (store : BlobStore) :
    (system.afterSection t request (outcome, store)).acked =
      recorded system.acked request outcome store := by
  cases outcome <;> rfl

@[simp] theorem after_section_writers (system : StoreSystem) (t : Nat) (request : WriteRequest)
    (outcome : WriteOutcome) (store : BlobStore) :
    (system.afterSection t request (outcome, store)).writers =
      Function.update system.writers t (pcAfter request outcome) := by
  cases outcome <;> rfl

@[simp] theorem after_section_store (system : StoreSystem) (t : Nat) (request : WriteRequest)
    (outcome : WriteOutcome) (store : BlobStore) :
    (system.afterSection t request (outcome, store)).store = store := by
  cases outcome <;> rfl

@[simp] theorem after_section_flush (system : StoreSystem) (t : Nat) (request : WriteRequest)
    (outcome : WriteOutcome) (store : BlobStore) :
    (system.afterSection t request (outcome, store)).flush = system.flush := by
  cases outcome <;> rfl

@[simp] theorem after_direct_store (system : StoreSystem) (t : Nat) (request : WriteRequest)
    (outcome : WriteOutcome) (store : BlobStore) :
    (system.afterDirect t request (outcome, store)).store = store := by
  cases outcome <;> rfl

@[simp] theorem after_direct_flush (system : StoreSystem) (t : Nat) (request : WriteRequest)
    (outcome : WriteOutcome) (store : BlobStore) :
    (system.afterDirect t request (outcome, store)).flush = system.flush := by
  cases outcome <;> rfl

@[simp] theorem after_direct_writers (system : StoreSystem) (t : Nat) (request : WriteRequest)
    (outcome : WriteOutcome) (store : BlobStore) :
    (system.afterDirect t request (outcome, store)).writers =
      Function.update system.writers t .idle := by
  cases outcome <;> rfl

@[simp] theorem after_direct_unwritten (system : StoreSystem) (t : Nat) (request : WriteRequest)
    (outcome : WriteOutcome) (store : BlobStore) :
    (system.afterDirect t request (outcome, store)).unwritten = system.unwritten := by
  cases outcome <;> rfl

/-! ## What a step can do -/

section Steps

variable {system after : StoreSystem} {t : Nat} {request : WriteRequest} {io : SegmentIo}

theorem write_begin_step (moved : system.exec (.writeBegin t request io) = some after) :
    ∃ outcome store, system.writers t = .idle ∧
      system.store.writeEnter request io = some (outcome, store) ∧
        after = system.afterSection t request (outcome, store) := by
  simp only [exec] at moved
  split at moved
  · rename_i idle
    rcases Option.map_eq_some_iff.1 moved with ⟨⟨outcome, store⟩, entered, rfl⟩
    exact ⟨outcome, store, idle, entered, rfl⟩
  · contradiction

theorem write_resume_step (moved : system.exec (.writeResume t io) = some after) :
    ∃ request outcome store, system.writers t = .waiting request ∧
      system.store.acquireAndAppend request io = some (outcome, store) ∧
        after = system.afterSection t request (outcome, store) := by
  simp only [exec] at moved
  split at moved
  · rename_i request waiting
    rcases Option.map_eq_some_iff.1 moved with ⟨⟨outcome, store⟩, resumed, rfl⟩
    exact ⟨request, outcome, store, waiting, resumed, rfl⟩
  · contradiction

theorem write_direct_step {result : IoResult}
    (moved : system.exec (.writeDirect t io result) = some after) :
    ∃ request outcome store, system.writers t = .direct request ∧
      system.store.writeDirect request io result = some (outcome, store) ∧
        after = system.afterDirect t request (outcome, store) := by
  simp only [exec] at moved
  split at moved
  · rename_i request direct
    rcases Option.map_eq_some_iff.1 moved with ⟨⟨outcome, store⟩, written, rfl⟩
    exact ⟨request, outcome, store, direct, written, rfl⟩
  · contradiction

theorem flush_thread_step {step : FlushStep} (moved : system.exec (.flush step) = some after) :
    ∃ pc store, system.store.flushStep system.flush step = some (pc, store) ∧
      after = { system with flush := pc, store, unwritten := system.unwrittenAfter step } := by
  simp only [exec] at moved
  rcases Option.map_eq_some_iff.1 moved with ⟨⟨pc, store⟩, ran, rfl⟩
  exact ⟨pc, store, ran, rfl⟩

/-- A step of a reader changes the reader and nothing else. -/
theorem reader_step {label : StoreLabel} (reads : label.reads = true)
    (moved : system.exec label = some after) : ∃ r pc, after = system.setReader r pc := by
  cases label with
  | writeBegin | writeResume | writeDirect | flush => contradiction
  | readBegin r loc bufLen | readPending r | readLookup r | readDisk r readOk =>
      simp only [exec] at moved
      split at moved
      all_goals
        try split at moved
      all_goals
        cases moved
        try exact ⟨_, _, rfl⟩

end Steps

end StoreSystem

def storeMachine : Machine StoreSystem StoreLabel where
  start system := ∃ config files io,
    (BlobStore.openStore config files io).1 = .kOk ∧
      system = { store := (BlobStore.openStore config files io).2 }
  exec := StoreSystem.exec

end AttentionDB
