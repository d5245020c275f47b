import AttentionDB.Checkpoint.RoundTrip
import AttentionDB.Engine.Session

/-!
# The dirty flag

The periodic thread saves the index when it finds `dirty_` set, clears the flag
after the rename, and saves a last time on shutdown if the flag is set then.
Clients change the index first and set the flag in a later step, and a put
evicts after that. The calls here are cut at these points only: between them
run the snapshot, the write with its rename, and the clear of the saving
thread.
-/

namespace AttentionDB

open GuardedRuns ByteMap Checkpoint

set_option autoImplicit false

/-- The part of an entry that says where its blob is. -/
structure Placement where
  tier : UInt8
  address : UInt64
  length : UInt32
  segmentId : UInt32
  checksum : UInt32
  deriving DecidableEq, Repr

def IndexEntry.placement (entry : IndexEntry) : Placement where
  tier := entry.tier
  address := entry.address
  length := entry.length
  segmentId := entry.segmentId
  checksum := entry.checksum

def placedAt (index : ConcurrentHashMap) (key : StorageKey) : Option Placement :=
  (index.find key).map IndexEntry.placement

/-- The records of a checkpoint file, up to its end. -/
def fileRecords (bytes : List UInt8) : List Record :=
  recordCodec.decodeRow ((bytes.length - headerCodec.width) / recordCodec.width)
    (bytes.drop headerCodec.width)

def storedAt (file : Option (List UInt8)) (key : StorageKey) : Option Placement :=
  match file with
  | none => none
  | some bytes => ((fileRecords bytes).find? fun record => record.1 = key).map (·.2.placement)

namespace Engine

/-! ## A put in stages -/

/-- `put` up to its `upsert`. -/
def putUpsert (e : Engine) (key : StorageKey) (blob : List UInt8) (opts : PutOpts) (io : PutIo) :
    Option (Status × Engine) :=
  let decision := AdmissionControl.evaluate e.admission.config opts e.storageUtilization
  let e := { e with admission := e.admission.recordEvaluation decision }
  if decision ≠ .kAdmit then some (.kRejectedAdmission, e)
  else if 2 ^ 32 - 1 < blob.length then some (.kInvalidArgument, e)
  else
    match e.allocateT1 blob with
    | some (_, ptr, allocator) =>
        some (.kOk,
          { e with
            t1Allocator := some allocator
            memory := patch e.memory ptr blob
            t1Eviction := e.t1Eviction.onInsert key opts.recomputeCost key.chunkIndex io.now
            index := e.index.upsert key (t1Entry blob opts io ptr) })
    | none =>
        match e.t2Store with
        | none => some (.kIOError, e)
        | some t2 =>
            match t2.write { key, data := blob, checksum := computeCrc32 blob } io.t2 with
            | none => none
            | some ((status, loc), t2) =>
                if status = .kOk then
                  some (.kOk,
                    { e with
                      t2Store := some t2
                      t2Eviction := e.t2Eviction.onInsert key opts.recomputeCost key.chunkIndex io.now
                      index := e.index.upsert key (t2Entry blob opts io loc) })
                else some (status, { e with t2Store := some t2 })

/-- A put is its first stage and, where that stored the blob, the eviction. -/
theorem put_stages (e : Engine) (key : StorageKey) (blob : List UInt8) (opts : PutOpts) (io : PutIo) :
    e.put key blob opts io =
      (e.putUpsert key blob opts io).bind fun (status, e) =>
        if status = .kOk then (e.evictIfNeeded io.evictions).map fun e => (Status.kOk, e)
        else some (status, e) := by
  unfold put putUpsert
  dsimp only
  split_ifs
  · rfl
  · rfl
  · cases allocateT1 _ blob with
    | some slot => rfl
    | none =>
        dsimp only
        unfold storeT2
        cases e.t2Store with
        | none => rfl
        | some t2 =>
            dsimp only
            cases t2.write { key, data := blob, checksum := computeCrc32 blob } io.t2 with
            | none => rfl
            | some result =>
                rcases result with ⟨⟨status, loc⟩, t2After⟩
                dsimp only
                by_cases ok : status = .kOk
                · rw [if_pos ok, if_pos ok]
                  rfl
                · rw [if_neg ok, if_neg ok, Option.bind_some, if_neg ok]

/-- Only a first stage that ends in `kOk` touches the index. -/
theorem put_upsert_index {e after : Engine} {key : StorageKey} {blob : List UInt8} {opts : PutOpts}
    {io : PutIo} {status : Status} (ran : e.putUpsert key blob opts io = some (status, after))
    (failed : status ≠ .kOk) : after.index = e.index := by
  unfold putUpsert at ran
  dsimp only at ran
  split_ifs at ran
  · cases ran
    rfl
  · cases ran
    rfl
  · split at ran
    · cases ran
      contradiction
    · split at ran
      · cases ran
        rfl
      · split at ran
        · contradiction
        · split_ifs at ran
          · cases ran
            contradiction
          · cases ran
            rfl

/-- The first stage ends as a put with no eviction after it. -/
theorem put_upsert_cases {e after : Engine} {key : StorageKey} {blob : List UInt8} {opts : PutOpts}
    {io : PutIo} {status : Status} (ran : e.putUpsert key blob opts io = some (status, after)) :
    PutCases e key blob opts io status after := by
  unfold putUpsert at ran
  dsimp only at ran
  split_ifs at ran with denied long
  · cases ran
    exact .rejected _ _ (by decide)
  · cases ran
    exact .rejected _ _ (by decide)
  · have accepted : Accepted e blob opts := ⟨not_not.1 denied, by omega⟩
    split at ran
    · rename_i handle ptr allocator allocation
      cases ran
      rw [allocateT1, Option.bind_eq_some_iff] at allocation
      rcases allocation with ⟨a, isAllocator, allocated⟩
      exact .storedT1 _ _ a allocator handle ptr accepted isAllocator allocated (.done _)
    · rename_i full
      split at ran
      · cases ran
        exact .rejected _ _ (by decide)
      · rename_i t2 isStore
        split at ran
        · contradiction
        · rename_i status loc t2After written
          split_ifs at ran with ok
          · subst ok
            cases ran
            exact .storedT2 _ _ t2 t2After loc accepted full isStore written (.done _)
          · cases ran
            exact .refused _ _ t2 t2After loc isStore written ok

/-- A get reaches its last lines, where it touches the entry and sets the flag. -/
def getTouches (e : Engine) (key : StorageKey) (bufLen : Nat) : Bool :=
  match e.index.find key with
  | none => false
  | some entry =>
      !(entry.tier = kT1Dram ∧ e.t1Allocator.isSome ∧ bufLen < entry.length.toNat)

def takesVictim : Nat → Engine → Bool
  | 0, _ => false
  | fuel + 1, e =>
      e.overWatermark &&
        match e.t1Eviction.evict with
        | (none, _) => false
        | (some victim, t1Eviction) =>
            match e.index.find victim with
            | none => takesVictim fuel { e with t1Eviction }
            | some entry => entry.tier = kT1Dram || takesVictim fuel { e with t1Eviction }

def evictsSome (e : Engine) : Bool := takesVictim (e.t1Eviction.totalSize + 1) e

theorem evict_loop_index {io : Nat → EvictIo} {fuel round : Nat} {e after : Engine}
    (spared : takesVictim fuel e = false) (ran : evictLoop io fuel round e = some after) :
    after.index = e.index := by
  induction fuel generalizing round e with
  | zero =>
      cases ran
      rfl
  | succ fuel ih =>
      unfold takesVictim at spared
      unfold evictLoop at ran
      split_ifs at ran with crowded
      · rw [crowded, Bool.true_and] at spared
        split at ran
        · cases ran
          rfl
        · rename_i victim t1Eviction picked
          rw [picked] at spared
          dsimp only at spared
          unfold evictVictim at ran
          dsimp only at ran
          cases found : e.index.find victim with
          | none =>
              rw [found] at spared ran
              have kept := ih spared ran
              exact kept
          | some entry =>
              rw [found] at spared ran
              simp only [Bool.or_eq_false_iff, decide_eq_false_iff_not] at spared
              dsimp only at ran
              rw [if_neg spared.1] at ran
              have kept := ih spared.2 ran
              exact kept
      · cases ran
        rfl

theorem evict_if_needed_index {io : Nat → EvictIo} {e after : Engine} (spared : e.evictsSome = false)
    (ran : e.evictIfNeeded io = some after) : after.index = e.index :=
  evict_loop_index spared ran

end Engine

/-! ## Clients and the saving thread -/

/-- What a client call has still to do. -/
inductive CallPc where
  | marking (evicts : Bool)
  | evicting
  | returned
  deriving DecidableEq, Repr

def CallPc.marks : CallPc → Bool
  | .marking _ => true
  | _ => false

inductive SaverPc where
  | waiting
  | checking
  | saving (final : Bool)
  | writing (final : Bool) (entries : List Record)
  | clearing (final : Bool) (entries : List Record)
  | exited
  deriving DecidableEq, Repr

def SaverPc.afterSave (final : Bool) : SaverPc := if final then .exited else .waiting

structure Process where
  engine : Engine
  dirty : Bool := false
  calls : List CallPc := []
  saver : SaverPc := .waiting
  running : Bool := true

structure CheckpointSystem where
  file : Option (List UInt8)
  process : Option Process := none

inductive CheckpointLabel where
  | openEngine (config : Config) (io : Engine.OpenIo)
  | put (key : StorageKey) (blob : List UInt8) (opts : PutOpts) (io : PutIo)
  | get (key : StorageKey) (bufLen : Nat) (io : GetIo)
  | del (key : StorageKey)
  | mark (call : Nat)
  | evict (call : Nat) (io : Nat → EvictIo)
  | flush (step : BlobStore.FlushStep)
  | wake
  | check
  | snapshot
  | write (calls : List SaveCall)
  | clear
  | stop

namespace Process

variable (p : Process)

def entered (engine : Engine) (pc : CallPc) : Process := { p with engine, calls := p.calls ++ [pc] }

def execClient : CheckpointLabel → Option Process
  | .put key blob opts io =>
      match p.engine.putUpsert key blob opts io with
      | none => none
      | some (status, engine) =>
          some (p.entered engine (if status = .kOk then .marking true else .returned))
  | .get key bufLen io =>
      match p.engine.get key bufLen io with
      | none => none
      | some (_, engine) =>
          some (p.entered engine (if p.engine.getTouches key bufLen then .marking false else .returned))
  | .del key =>
      let (status, engine) := p.engine.del key
      some (p.entered engine (if status = .kOk then .marking false else .returned))
  | .mark call =>
      match p.calls[call]? with
      | some (.marking evicts) =>
          some { p with
            dirty := true
            calls := p.calls.set call (if evicts then .evicting else .returned) }
      | _ => none
  | .evict call io =>
      match p.calls[call]? with
      | some .evicting =>
          (p.engine.evictIfNeeded io).map fun engine =>
            { p with engine, calls := p.calls.set call .returned }
      | _ => none
  | .flush step =>
      match p.engine.t2Store with
      | none => none
      | some t2 =>
          (t2.flushRun [step]).map fun t2 => { p with engine := { p.engine with t2Store := some t2 } }
  | _ => none

def execSaver : CheckpointLabel → Option Process
  | .wake =>
      if p.saver = .waiting then
        some { p with
          saver := if p.running then (if p.dirty then .saving false else .waiting) else .checking }
      else none
  | .check =>
      if p.saver = .checking then some { p with saver := if p.dirty then .saving true else .exited }
      else none
  | .snapshot =>
      match p.saver with
      | .saving final =>
          let entries := p.engine.index.snapshot
          some { p with
            saver := if entries = [] ∧ p.dirty = false then .afterSave final
              else .writing final entries }
      | _ => none
  | .clear =>
      match p.saver with
      | .clearing final _ => some { p with dirty := false, saver := .afterSave final }
      | _ => none
  | _ => none

end Process

namespace CheckpointSystem

variable (xxh32 : List UInt8 → UInt32) (s : CheckpointSystem)

/-- `open` looks at the checkpoint file before the thread starts. -/
def openProcess (config : Config) (io : Engine.OpenIo) : Option Process :=
  let (status, loaded) := load xxh32 s.file {} ∅
  let checkpoint := if status = .kOk then some loaded.snapshot else none
  (Engine.openEngine config { io with checkpoint }).map fun engine => { engine }

/-- Calls begin while the engine is open, and `stop` comes after the last one. -/
def exec : CheckpointLabel → Option CheckpointSystem
  | .openEngine config io =>
      match s.process with
      | none => (s.openProcess xxh32 config io).map fun p => { s with process := some p }
      | some _ => none
  | label =>
      match s.process with
      | none => none
      | some p =>
          match label with
          | .put .. | .get .. | .del _ =>
              if p.running then (p.execClient label).map fun p => { s with process := some p } else none
          | .mark _ | .evict .. | .flush _ =>
              (p.execClient label).map fun p => { s with process := some p }
          | .write calls =>
              match p.saver with
              | .writing final entries =>
                  match SaveRun.steps xxh32 { entries, file := s.file, dirty := p.dirty, pc := .opening }
                      calls with
                  | none => none
                  | some run =>
                      if run.pc = .clearing then
                        some { file := run.file, process := some { p with saver := .clearing final entries } }
                      else none
              | _ => none
          | .stop =>
              if p.running ∧ p.calls.all (· = .returned) then
                some { s with process := some { p with running := false } }
              else none
          | label => (p.execSaver label).map fun p => { s with process := some p }

end CheckpointSystem

def checkpointMachine (xxh32 : List UInt8 → UInt32) : Machine CheckpointSystem CheckpointLabel where
  start s := s.process = none
  exec := CheckpointSystem.exec xxh32

end AttentionDB
