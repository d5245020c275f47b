import AttentionDB.Engine.EngineSteps
import AttentionDB.Memory.SlabSlots
import AttentionDB.Storage.WriteSections

/-!
# Sequential runs of the engine

One client calls `put`, `get` and `del` on an opened engine, and the flush
thread steps between and inside the calls. The log keeps every call with its
result, newest first; it says which blob each key should have.
-/

namespace AttentionDB

open GuardedRuns

set_option autoImplicit false

inductive Call where
  | put (key : StorageKey) (blob : List UInt8) (opts : PutOpts) (status : Status)
  | get (key : StorageKey) (bufLen : Nat) (reply : BlobStore.ReadReply)
  | del (key : StorageKey) (status : Status)
  deriving DecidableEq

structure PutRecord where
  blob : List UInt8
  opts : PutOpts

/-- The most recent put of a key that returned `kOk`, unless a delete of the
key returned `kOk` after it. -/
def latest : List Call → StorageKey → Option PutRecord
  | [], _ => none
  | .put key blob opts status :: earlier, asked =>
      if key = asked ∧ status = .kOk then some { blob, opts } else latest earlier asked
  | .del key status :: earlier, asked =>
      if key = asked ∧ status = .kOk then none else latest earlier asked
  | .get _ _ _ :: earlier, asked => latest earlier asked

structure Session where
  engine : Engine
  log : List Call := []

inductive SessionLabel where
  | put (key : StorageKey) (blob : List UInt8) (opts : PutOpts) (io : PutIo)
  | get (key : StorageKey) (bufLen : Nat) (io : GetIo)
  | del (key : StorageKey)
  | flush (step : BlobStore.FlushStep)

namespace Session

def exec (session : Session) : SessionLabel → Option Session
  | .put key blob opts io =>
      (session.engine.put key blob opts io).map fun result =>
        { engine := result.2, log := .put key blob opts result.1 :: session.log }
  | .get key bufLen io =>
      (session.engine.get key bufLen io).map fun result =>
        { engine := result.2, log := .get key bufLen result.1 :: session.log }
  | .del key =>
      some
        { engine := (session.engine.del key).2
          log := .del key (session.engine.del key).1 :: session.log }
  | .flush step =>
      match session.engine.t2Store with
      | none => none
      | some t2 =>
          (t2.flushRun [step]).map fun t2 =>
            { session with engine := { session.engine with t2Store := some t2 } }

end Session

/-- Sessions on an engine that `open` returned `kOk` for. The regions of its
slab classes are what the system promises, and `checkpoints` says which
checkpoint it may have found. -/
def sessionMachine (checkpoints : Option (List (StorageKey × IndexEntry)) → Prop) :
    Machine Session SessionLabel where
  start session := ∃ config io, checkpoints io.checkpoint ∧
    Engine.openEngine config io = some session.engine ∧
    (∀ a, session.engine.t1Allocator = some a → a.Backed) ∧ session.log = []
  exec := Session.exec

def anyCheckpoint : Option (List (StorageKey × IndexEntry)) → Prop := fun _ => True

def emptyCheckpoint : Option (List (StorageKey × IndexEntry)) → Prop :=
  fun checkpoint => Engine.loadedIndex checkpoint = ∅

theorem any_checkpoint_start {checkpoints : Option (List (StorageKey × IndexEntry)) → Prop}
    {session : Session} (initial : (sessionMachine checkpoints).start session) :
    (sessionMachine anyCheckpoint).start session := by
  obtain ⟨config, io, _, opening, backed, log⟩ := initial
  exact ⟨config, io, trivial, opening, backed, log⟩

/-- The four steps of a session, each with what the call did. -/
inductive SessionCases (session : Session) : SessionLabel → Session → Prop where
  | put (key : StorageKey) (blob : List UInt8) (opts : PutOpts) (io : PutIo) (status : Status)
      (engine : Engine) (cases : session.engine.PutCases key blob opts io status engine) :
      SessionCases session (.put key blob opts io)
        { engine, log := .put key blob opts status :: session.log }
  | get (key : StorageKey) (bufLen : Nat) (io : GetIo) (reply : BlobStore.ReadReply)
      (engine : Engine) (cases : session.engine.GetCases key bufLen io reply engine) :
      SessionCases session (.get key bufLen io)
        { engine, log := .get key bufLen reply :: session.log }
  | del (key : StorageKey) (status : Status) (engine : Engine)
      (cases : session.engine.DelCases key status engine) :
      SessionCases session (.del key) { engine, log := .del key status :: session.log }
  | flush (step : BlobStore.FlushStep) (t2 t2After : T2)
      (isStore : session.engine.t2Store = some t2) (ran : t2.flushRun [step] = some t2After) :
      SessionCases session (.flush step)
        { session with engine := { session.engine with t2Store := some t2After } }

/-- The four steps as calls of the engine, where the log does not matter. -/
inductive EngineStep (e : Engine) : SessionLabel → Engine → Prop where
  | put {after : Engine} (key : StorageKey) (blob : List UInt8) (opts : PutOpts) (io : PutIo)
      (status : Status) (ran : e.put key blob opts io = some (status, after)) :
      EngineStep e (.put key blob opts io) after
  | get {after : Engine} (key : StorageKey) (bufLen : Nat) (io : GetIo)
      (reply : BlobStore.ReadReply) (ran : e.get key bufLen io = some (reply, after)) :
      EngineStep e (.get key bufLen io) after
  | del (key : StorageKey) : EngineStep e (.del key) (e.del key).2
  | flush (step : BlobStore.FlushStep) (t2 t2After : T2) (isStore : e.t2Store = some t2)
      (ran : t2.flushRun [step] = some t2After) :
      EngineStep e (.flush step) { e with t2Store := some t2After }

section Steps

variable {checkpoints : Option (List (StorageKey × IndexEntry)) → Prop} {session after : Session}
  {label : SessionLabel}

theorem engine_step (moved : (sessionMachine checkpoints).exec session label = some after) :
    EngineStep session.engine label after.engine := by
  cases label with
  | put key blob opts io =>
      simp only [sessionMachine, Session.exec, Option.map_eq_some_iff] at moved
      rcases moved with ⟨⟨status, engine⟩, ran, rfl⟩
      exact .put key blob opts io status ran
  | get key bufLen io =>
      simp only [sessionMachine, Session.exec, Option.map_eq_some_iff] at moved
      rcases moved with ⟨⟨reply, engine⟩, ran, rfl⟩
      exact .get key bufLen io reply ran
  | del key =>
      cases moved
      exact .del key
  | flush step =>
      simp only [sessionMachine, Session.exec] at moved
      split at moved
      · contradiction
      · rename_i t2 isStore
        rw [Option.map_eq_some_iff] at moved
        rcases moved with ⟨t2After, ran, rfl⟩
        exact .flush step t2 t2After isStore ran

theorem session_cases (moved : (sessionMachine checkpoints).exec session label = some after) :
    SessionCases session label after := by
  cases label with
  | put key blob opts io =>
      simp only [sessionMachine, Session.exec, Option.map_eq_some_iff] at moved
      rcases moved with ⟨⟨status, engine⟩, ran, rfl⟩
      exact .put key blob opts io status engine (Engine.put_cases ran)
  | get key bufLen io =>
      simp only [sessionMachine, Session.exec, Option.map_eq_some_iff] at moved
      rcases moved with ⟨⟨reply, engine⟩, ran, rfl⟩
      exact .get key bufLen io reply engine (Engine.get_cases ran)
  | del key =>
      cases moved
      exact .del key _ _ (Engine.del_cases session.engine key)
  | flush step =>
      simp only [sessionMachine, Session.exec] at moved
      split at moved
      · contradiction
      · rename_i t2 isStore
        rw [Option.map_eq_some_iff] at moved
        rcases moved with ⟨t2After, ran, rfl⟩
        exact .flush step t2 t2After isStore ran

theorem session_later (cases : SessionCases session label after) :
    Engine.Later session.engine after.engine := by
  cases cases with
  | put key blob opts io status engine cases => exact Engine.put_later cases
  | get key bufLen io reply engine cases => exact Engine.get_later cases
  | del key status engine cases => exact Engine.del_later cases
  | flush step t2 t2After isStore ran =>
      exact Engine.later_new_store rfl rfl isStore rfl (T2.flush_run_later ran)

end Steps

/-! ## An engine that was just opened -/

namespace Engine

/-- What `open` leaves: an allocator as its constructor made it, a store as its
own `open` made it, and the scrubbed index. -/
structure Opened (config : Config) (io : OpenIo) (e : Engine) : Prop where
  sameConfig : e.config = config
  index : e.index = loadedIndex io.checkpoint
  t1 : ∀ a, e.t1Allocator = some a → initClasses config.dramCache io.allocBacking = some a
  t2 : ∀ t2, e.t2Store = some t2 → ∃ store, t2 = { store } ∧
    BlobStore.openStore config.nvmeStore io.files io.store = (.kOk, store)

theorem open_engine_opened {config : Config} {io : OpenIo} {e : Engine}
    (opened : openEngine config io = some e) : Opened config io e := by
  unfold openEngine at opened
  simp only at opened
  split at opened
  · rename_i t1Allocator t2Store isT1 isT2
    cases opened
    refine { sameConfig := rfl, index := rfl, t1 := ?_, t2 := ?_ }
    · intro a isAllocator
      cases isAllocator
      split at isT1
      · rw [Option.map_eq_some_iff] at isT1
        rcases isT1 with ⟨made, init, same⟩
        cases same
        exact init
      · cases isT1
    · intro t2 isStore
      cases isStore
      split at isT2
      · split at isT2
        · rename_i store opened
          cases isT2
          exact ⟨store, rfl, opened⟩
        · contradiction
      · cases isT2
  · contradiction

/-- Whatever the checkpoint held, no T1 entry is left after the scrub. -/
theorem scrub_t1_find (index : ConcurrentHashMap) (key : StorageKey) :
    (scrubT1 index).find key = (index.find key).filter (·.tier ≠ kT1Dram) := by
  have erased : ∀ (keys : List StorageKey) (table : ConcurrentHashMap),
      (keys.foldl ConcurrentHashMap.erase table).find key =
        if key ∈ keys then none else table.find key := by
    intro keys
    induction keys with
    | nil => simp
    | cons head keys ih =>
        intro table
        rw [List.foldl_cons, ih, ConcurrentHashMap.find_erase]
        by_cases same : key = head <;> by_cases listed : key ∈ keys <;> simp [same, listed]
  have stale : key ∈ ((index.snapshot.filter fun pair => pair.2.tier = kT1Dram).map Prod.fst) ↔
      ∃ entry, index.find key = some entry ∧ entry.tier = kT1Dram := by
    simp [ConcurrentHashMap.mem_snapshot]
  unfold scrubT1
  rw [erased]
  cases found : index.find key with
  | none => simp
  | some entry =>
      by_cases inT1 : entry.tier = kT1Dram <;> simp [stale, found, inT1, Option.filter]

theorem loaded_index_not_t1 {checkpoint : Option (List (StorageKey × IndexEntry))}
    {key : StorageKey} {entry : IndexEntry}
    (found : (loadedIndex checkpoint).find key = some entry) : entry.tier ≠ kT1Dram := by
  cases checkpoint with
  | none => contradiction
  | some entries =>
      rw [loadedIndex, scrub_t1_find, Option.filter_eq_some_iff] at found
      simpa using found.2

end Engine

/-! ## A cache of four slots without a blob store -/

def slabConfig : Config where
  dramCache := { sizeBytes := 256, sizeClasses := [64] }
  nvmeStore := { enabled := false }

def slabOpenIo : Engine.OpenIo := { allocBacking := fun _ => 4096 }

def slabAllocator : SlabAllocator where
  classes := [{ slotSize := 64, numSlots := 4, base := 4096, freeList := [3, 2, 1, 0] }]
  totalBytes := 256

def slabEngine : Engine where
  config := slabConfig
  index := ∅
  t1Allocator := some slabAllocator
  memory := fun _ => 0
  t2Store := none
  t1Eviction := { config := {} }
  t2Eviction := { config := {} }
  admission := { config := {} }

def slabStart : Session := { engine := slabEngine }

def slabPut : SessionLabel := .put probeKey [7] { entryType := .kSystemPrompt } {}

/-- One region has no other to share a byte with. -/
theorem single_class_backed {totalBytes : Nat} (sc : SizeClass) (nonnull : 0 < sc.base)
    (addressable : sc.base + sc.slotSize * sc.numSlots ≤ 2 ^ 64) :
    SlabAllocator.Backed { classes := [sc], totalBytes } := by
  have single : ∀ (i : Nat) (found : SizeClass), [sc][i]? = some found → i = 0 ∧ found = sc := by
    intro i found look
    cases i with
    | zero =>
        cases look
        exact ⟨rfl, rfl⟩
    | succ i => simp at look
  constructor
  · intro i found look
    rw [(single i found look).2]
    exact nonnull
  · intro i found look
    rw [(single i found look).2]
    exact addressable
  · intro i k first second foundFirst foundSecond different
    exact absurd ((single i first foundFirst).1.trans (single k second foundSecond).1.symm) different

theorem slab_started : (sessionMachine anyCheckpoint).start slabStart := by
  refine ⟨slabConfig, slabOpenIo, trivial, rfl, ?_, rfl⟩
  rintro a ⟨⟩
  exact single_class_backed _ (by decide) (by decide)

/-! ## A cache of one slot above a blob store of one block -/

def tieredConfig : Config where
  dramCache := { sizeBytes := 64, sizeClasses := [64] }
  nvmeStore := singleBlockConfig

def tieredAllocator : SlabAllocator where
  classes := [{ slotSize := 64, numSlots := 1, base := 4096, freeList := [0] }]
  totalBytes := 64

def tieredEngine : Engine where
  config := tieredConfig
  index := ∅
  t1Allocator := some tieredAllocator
  memory := fun _ => 0
  t2Store := some { store := singleBlockStore }
  t1Eviction := { config := {} }
  t2Eviction := { config := {} }
  admission := { config := {} }

def tieredStart : Session := { engine := tieredEngine }

def tieredPut : SessionLabel :=
  .put probeKey [7] { entryType := .kSystemPrompt, recomputeCost := 100 } {}

theorem tiered_started : (sessionMachine emptyCheckpoint).start tieredStart := by
  refine ⟨tieredConfig, slabOpenIo, rfl, rfl, ?_, rfl⟩
  rintro a ⟨⟩
  exact single_class_backed _ (by decide) (by decide)

end AttentionDB
