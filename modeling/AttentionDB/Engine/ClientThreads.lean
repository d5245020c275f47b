import AttentionDB.Engine.SavedContents
import AttentionDB.Engine.SlotAccess
import AttentionDB.Lib.Linearizability

/-!
# What client threads see of the engine

Threads call `put`, `get`, `contains` and `del`, and the record keeps what they
see: their calls and the answers, in the order of the events. Behind a call are
the steps of its thread, each of them one call of the index, a tracker, the slab
allocator or the blob store, or one copy; a call of the blob store is one step,
with steps of the flush thread inside it. What the callers may expect of all
this is a map from keys to blobs on which each call is one step.
-/

namespace AttentionDB

open GuardedRuns ByteMap BlobStore SlabAllocator LossyMaps Linearizability

set_option autoImplicit false

/-! ## The calls -/

inductive ClientOp where
  | put (key : StorageKey) (blob : List UInt8)
  | get (key : StorageKey) (bufLen : Nat)
  | contains (key : StorageKey)
  | del (key : StorageKey)
  deriving DecidableEq

inductive ClientAnswer where
  | status (status : Status)
  | reply (reply : ReadReply)
  | found (present : Bool)
  deriving DecidableEq

abbrev ClientEvent := CallEvent Nat ClientOp ClientAnswer

namespace EngineSystem

def returned (s after : EngineSystem) (t : Nat) : Option ClientAnswer :=
  match after.threads t with
  | .idle =>
      match s.threads t with
      | .getFind key _ =>
          match s.engine.index.find key with
          | none => some (.reply { status := .kNotFound })
          | some _ => some (.reply { status := .kBufferTooSmall })
      | .getTouch _ _ reply => some (.reply reply)
      | _ => after.history.done.head?.map fun call => .status call.status
  | _ => none

end EngineSystem

def EngineLabel.events (s after : EngineSystem) : EngineLabel → List ClientEvent
  | .put t key blob _ _ _ => [.invoked t (.put key blob)]
  | .get t key bufLen => [.invoked t (.get key bufLen)]
  | .del t key => [.invoked t (.del key)]
  | .step t _ =>
      match s.returned after t with
      | some answer => [.returned t answer]
      | none => []
  | .flush _ => []

structure ClientSystem where
  system : EngineSystem
  calls : List ClientEvent := []

inductive ClientLabel where
  | engine (label : EngineLabel)
  | contains (t : Nat) (key : StorageKey)

namespace ClientSystem

def exec (c : ClientSystem) : ClientLabel → Option ClientSystem
  | .engine label =>
      (c.system.exec label).map fun after =>
        { system := after, calls := c.calls ++ label.events c.system after }
  | .contains t key =>
      match c.system.threads t with
      | .idle =>
          some { c with
            calls := c.calls ++ [.invoked t (.contains key),
              .returned t (.found (c.system.engine.index.contains key))] }
      | _ => none

end ClientSystem

def clientMachine : Machine ClientSystem ClientLabel where
  start c := ∃ config io, Engine.loadedIndex io.checkpoint = ∅ ∧
    Engine.openEngine config io = some c.system.engine ∧
    (∀ a, c.system.engine.t1Allocator = some a → a.Backed) ∧
    c = { system := { engine := c.system.engine } }
  exec := ClientSystem.exec

/-! ## The map -/

abbrev BlobMap := StorageKey → Option (List UInt8)

/-- The right answers of a get. An empty blob may be missed once it is on disk. -/
def BlobAnswers (held : Option (List UInt8)) (bufLen : Nat) (reply : ReadReply) : Prop :=
  match held with
  | none => reply = { status := .kNotFound }
  | some blob => reply = replyFor blob bufLen ∨ blob = [] ∧ reply = { status := .kNotFound }

/-- A delete that found the key removes whatever the key has by then; two of
them may overlap. -/
inductive BlobStep (contents : BlobMap) : ClientOp → ClientAnswer → BlobMap → Prop where
  | stored (key : StorageKey) (blob : List UInt8) : BlobStep contents (.put key blob) (.status .kOk)
      (Function.update contents key (some blob))
  | turnedAway (key : StorageKey) (blob : List UInt8) (status : Status) (bad : status ≠ .kOk) :
      BlobStep contents (.put key blob) (.status status) contents
  | answered (key : StorageKey) (bufLen : Nat) (reply : ReadReply)
      (right : BlobAnswers (contents key) bufLen reply) :
      BlobStep contents (.get key bufLen) (.reply reply) contents
  | contained (key : StorageKey) :
      BlobStep contents (.contains key) (.found (contents key).isSome) contents
  | removed (key : StorageKey) : BlobStep contents (.del key) (.status .kOk)
      (Function.update contents key none)
  | absent (key : StorageKey) (missing : contents key = none) :
      BlobStep contents (.del key) (.status .kNotFound) contents

def blobObject : SeqObject BlobMap ClientOp ClientAnswer where
  init _ := none
  step := BlobStep

/-! ## The runs -/

/-- All I/O succeeds, and a write finds a free block when it needs one. -/
structure StepIo.Succeeds (io : StepIo) : Prop where
  write : io.write.Succeeds
  awake : io.write.naps = []
  reads : io.first.Succeeds ∧ io.second.Succeeds
  readOk : io.first.readOk = true ∧ io.second.readOk = true

/-- The thread is not about to free a slot: it finds the cache below the
watermark, and the key that it deletes outside T1. -/
structure ReleasesNothing (s : EngineSystem) (t : Nat) : Prop where
  evicts : ∀ put, s.threads t = .evict put .check → s.engine.overWatermark = false
  deletes : ∀ del entry, s.threads t = .delFind del → s.engine.index.find del.key = some entry →
    entry.tier ≠ kT1Dram

/-- All I/O succeeds, no write sleeps, and no slot is freed. Without T1 there is
none to free. A write that sleeps gives up `block_mu_` in the middle of its call,
and its block is then still the active one for the other threads. -/
def keepsSlotsGuard (c : ClientSystem) : ClientLabel → Prop
  | .engine (.step t io) =>
      io.Succeeds ∧ (c.system.engine.t1Allocator ≠ none → ReleasesNothing c.system t)
  | .engine (.flush step) => FlushSucceeds [step]
  | _ => True

/-! ## What never goes back -/

section Later

variable {s after : EngineSystem} {t : Nat} {io : StepIo}

theorem evict_step_later {put : PutCall} {pc : EvictPc} (ran : s.stepEvict t put io pc = some after) :
    Engine.Later s.engine after.engine := by
  cases pc with
  | check | pick | find victim =>
      simp only [EngineSystem.stepEvict] at ran
      split at ran
      · cases ran
        exact Engine.later_same_store rfl rfl rfl
      · repeat' split at ran
        all_goals
          cases ran
          exact Engine.later_same_store rfl rfl rfl
  | write victim entry version =>
      simp only [EngineSystem.stepEvict] at ran
      split at ran
      · contradiction
      · rename_i t2 isStore
        split at ran
        · contradiction
        · rename_i status loc t2After written
          have later := (T2.write_written written).1.later
          split at ran
          · cases ran
            exact Engine.later_new_store rfl rfl isStore rfl later
          · cases ran
            exact Engine.later_new_store rfl rfl isStore rfl later
  | upsert victim entry loc version origin | insert victim entry | erase victim entry =>
      cases ran
      exact Engine.later_same_store rfl rfl rfl
  | free ptr =>
      cases ran
      exact Engine.later_same_store rfl (Engine.free_t1_some _ _) rfl

theorem step_later {pc : ThreadPc} (ran : s.stepThread t io pc = some after) :
    Engine.Later s.engine after.engine := by
  cases pc with
  | idle => cases ran
  | putBegun put =>
      cases ran
      unfold EngineSystem.stepAdmission
      dsimp only
      split_ifs <;> exact Engine.later_same_store rfl rfl rfl
  | allocate put =>
      cases ran
      unfold EngineSystem.stepAllocate
      split
      · rename_i handle ptr allocator allocation
        rw [Engine.allocateT1, Option.bind_eq_some_iff] at allocation
        obtain ⟨old, isOld, _⟩ := allocation
        have enabled : (some allocator).isSome = s.engine.t1Allocator.isSome := by
          rw [isOld]
          rfl
        exact Engine.later_same_store rfl enabled rfl
      · split <;> exact Engine.later_same_store rfl rfl rfl
  | write put =>
      simp only [EngineSystem.stepThread, EngineSystem.stepWrite] at ran
      split at ran
      · contradiction
      · rename_i t2 isStore
        split at ran
        · contradiction
        · rename_i status loc t2After written
          have later := (T2.write_written written).1.later
          split at ran
          · cases ran
            exact Engine.later_new_store rfl rfl isStore rfl later
          · cases ran
            exact Engine.later_new_store rfl rfl isStore rfl later
  | evict put pc => exact evict_step_later ran
  | getFind key bufLen =>
      cases ran
      unfold EngineSystem.stepGetFind
      split
      · exact Engine.later_same_store rfl rfl rfl
      · split_ifs <;> exact Engine.later_same_store rfl rfl rfl
  | getRead key entry bufLen =>
      simp only [EngineSystem.stepThread, EngineSystem.stepGetRead] at ran
      split at ran
      · contradiction
      · rename_i t2 isStore
        split at ran
        · contradiction
        · rename_i reply t2After read
          have later := T2.read_later read
          split at ran
          · cases ran
            exact Engine.later_new_store rfl rfl isStore rfl later
          · cases ran
            exact Engine.later_new_store rfl rfl isStore rfl later
  | delFind del =>
      cases ran
      unfold EngineSystem.stepDelFind
      split
      · exact Engine.later_same_store rfl rfl rfl
      · split_ifs <;> exact Engine.later_same_store rfl rfl rfl
  | delFree del entry =>
      cases ran
      exact Engine.later_same_store rfl (Engine.free_t1_some _ _) rfl
  | delMark del entry =>
      cases ran
      cases isStore : s.engine.t2Store with
      | none => exact Engine.later_same_store rfl rfl isStore.symm
      | some t2 => exact Engine.later_new_store rfl rfl isStore rfl (T2.mark_dead_later t2 _)
  | copy | insertT1 | publishT1 | insertT2 | publishT2 | getCopy | getAccessT1 | getAccessT2
  | getTouch | delErase | delRemoveT1 | delRemoveT2 =>
      cases ran
      exact Engine.later_same_store rfl rfl rfl

theorem begin_later {pc : Nat → ThreadPc} {puts : Nat → List Update}
    (ran : s.begin t pc puts = some after) : after.engine = s.engine := by
  unfold EngineSystem.begin at ran
  split at ran
  · cases ran
    rfl
  · contradiction

theorem client_later {c next : ClientSystem} {label : ClientLabel}
    (moved : clientMachine.exec c label = some next) :
    Engine.Later c.system.engine next.system.engine := by
  have unchanged : ∀ {engine : Engine}, engine = c.system.engine → Engine.Later c.system.engine engine :=
    fun same => same ▸ .refl _
  cases label with
  | engine label =>
      simp only [clientMachine, ClientSystem.exec, Option.map_eq_some_iff] at moved
      obtain ⟨after, ran, rfl⟩ := moved
      cases label with
      | put | get | del =>
          simp only [EngineSystem.exec] at ran
          exact unchanged (begin_later ran)
      | step t io => exact step_later ran
      | flush step =>
          simp only [EngineSystem.exec] at ran
          split at ran
          · contradiction
          · rename_i t2 isStore
            rw [Option.map_eq_some_iff] at ran
            obtain ⟨t2After, flushed, rfl⟩ := ran
            exact Engine.later_new_store rfl rfl isStore rfl (T2.flush_run_later flushed)
  | contains t key =>
      simp only [clientMachine, ClientSystem.exec] at moved
      split at moved
      · cases moved
        exact .refl _
      · contradiction

end Later

end AttentionDB
