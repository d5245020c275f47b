import AttentionDB.Engine.Concurrent

/-!
# What the threads carry, and what their steps do

Between two steps a thread carries a few facts about the shared state: a slot
it allocated or means to free, an entry whose bytes it is about to copy, bytes
it already copied, a victim it is about to demote. Most steps change none of
these and none of the index, the slots and the memory; the inversion lemma puts
them together and leaves one case for each step that does.
-/

namespace AttentionDB

open GuardedRuns ByteMap

set_option autoImplicit false

/-! ## What a thread carries -/

/-- A slot that a thread has in hand: one that it allocated and has not
published, or one that it found under a key and means to free. The key is left
out once the index no longer has the entry. -/
structure Hold where
  ptr : Nat
  owner : Option StorageKey

structure SlotView where
  key : StorageKey
  ptr : Nat
  length : Nat

structure Source where
  victim : StorageKey
  version : Nat
  ptr : Nat

structure Plan where
  victim : StorageKey
  version : Nat
  origin : Option Update

namespace ThreadPc

def hold : ThreadPc → Option Hold
  | .copy _ ptr => some ⟨ptr, none⟩
  | .insertT1 _ ptr => some ⟨ptr, none⟩
  | .publishT1 _ ptr => some ⟨ptr, none⟩
  | .evict _ (.write victim entry _) => some ⟨entry.address.toNat, some victim⟩
  | .evict _ (.upsert victim entry _ _ _) => some ⟨entry.address.toNat, some victim⟩
  | .evict _ (.erase victim entry) => some ⟨entry.address.toNat, some victim⟩
  | .evict _ (.insert _ entry) => some ⟨entry.address.toNat, none⟩
  | .evict _ (.free ptr) => some ⟨ptr, none⟩
  | .delFree del entry => some ⟨entry.address.toNat, some del.key⟩
  | _ => none

def call : ThreadPc → Option Update
  | .putBegun put | .allocate put | .write put => some put.update
  | .copy put _ | .insertT1 put _ | .publishT1 put _ => some put.update
  | .insertT2 put _ | .publishT2 put _ => some put.update
  | .evict put _ => some put.update
  | .delFind del | .delErase del | .delRemoveT1 del | .delRemoveT2 del => some del
  | .delFree del _ | .delMark del _ => some del
  | _ => none

/-- The put or delete that the thread is in, once it has changed the index. -/
def settled : ThreadPc → Option Update
  | .evict put _ => some put.update
  | .delRemoveT1 del | .delRemoveT2 del => some del
  | _ => none

def view : ThreadPc → Option SlotView
  | .insertT1 put ptr => some ⟨put.update.key, ptr, put.blob.length⟩
  | .publishT1 put ptr => some ⟨put.update.key, ptr, put.blob.length⟩
  | .getCopy key entry => some ⟨key, entry.address.toNat, entry.length.toNat⟩
  | _ => none

def copied : ThreadPc → Option (StorageKey × List UInt8)
  | .getAccessT1 key _ bytes => some (key, bytes)
  | .getTouch key true reply => some (key, reply.bytes)
  | _ => none

/-- The slot that a put is about to fill, and the blob for it. -/
def target : ThreadPc → Option (Nat × List UInt8)
  | .copy put ptr => some (ptr, put.blob)
  | _ => none

def admitted : ThreadPc → Option (List UInt8)
  | .allocate put => some put.blob
  | .copy put _ => some put.blob
  | .insertT1 put _ => some put.blob
  | .publishT1 put _ => some put.blob
  | _ => none

def source : ThreadPc → Option Source
  | .evict _ (.write victim entry version) => some ⟨victim, version, entry.address.toNat⟩
  | _ => none

def plan : ThreadPc → Option Plan
  | .evict _ (.upsert victim _ _ version origin) => some ⟨victim, version, origin⟩
  | _ => none

/-- The key that the next step looks up in order to free its slot. -/
def seeks : ThreadPc → Option StorageKey
  | .evict _ (.find victim) => some victim
  | .delFind del => some del.key
  | _ => none

end ThreadPc

structure Calm (pc after : ThreadPc) : Prop where
  hold : after.hold = pc.hold
  settled : after.settled = pc.settled
  view : ∀ view, after.view = some view → pc.view = some view
  copied : ∀ pair, after.copied = some pair → pc.copied = some pair
  target : ∀ target, after.target = some target → pc.target = some target
  admitted : ∀ blob, after.admitted = some blob → pc.admitted = some blob
  source : ∀ source, after.source = some source → pc.source = some source
  plan : ∀ plan, after.plan = some plan → pc.plan = some plan

structure SameCore (e after : Engine) : Prop where
  index : after.index = e.index
  t1Allocator : after.t1Allocator = e.t1Allocator
  memory : after.memory = e.memory
  config : after.config = e.config

theorem SameCore.refl (e : Engine) : SameCore e e := ⟨rfl, rfl, rfl, rfl⟩

theorem Calm.refl (pc : ThreadPc) : Calm pc pc where
  hold := rfl
  settled := rfl
  view _ carried := carried
  copied _ carried := carried
  target _ carried := carried
  admitted _ carried := carried
  source _ carried := carried
  plan _ carried := carried

theorem move_nowhere (s : EngineSystem) (t : Nat) (engine : Engine) :
    s.move t engine (s.threads t) = { s with engine } := by
  simp [EngineSystem.move]

/-- What a thread carries after one thread moved on. -/
theorem carried_update {Carried : Type} (carries : ThreadPc → Option Carried)
    {threads : Nat → ThreadPc} {t other : Nat} {pc : ThreadPc} {value : Carried}
    (carried : carries (Function.update threads t pc other) = some value) :
    (other = t ∧ carries pc = some value) ∨ (other ≠ t ∧ carries (threads other) = some value) := by
  by_cases same : other = t
  · subst same
    rw [Function.update_self] at carried
    exact .inl ⟨rfl, carried⟩
  · rw [Function.update_of_ne same] at carried
    exact .inr ⟨same, carried⟩

/-- A thread that carries nothing any more leaves what the others carry. -/
theorem carried_elsewhere {Carried : Type} {carries : ThreadPc → Option Carried}
    {threads : Nat → ThreadPc} {t other : Nat} {pc : ThreadPc} {value : Carried}
    (nothing : carries pc = none)
    (carried : carries (Function.update threads t pc other) = some value) :
    other ≠ t ∧ carries (threads other) = some value := by
  rcases carried_update carries carried with ⟨_, own⟩ | elsewhere
  · rw [nothing] at own
    cases own
  · exact elsewhere

/-! ## The steps of a thread -/

inductive StepCases (s : EngineSystem) (t : Nat) : EngineSystem → Prop where
  | quiet (pc after : ThreadPc) (engine : Engine) (here : s.threads t = pc)
      (core : SameCore s.engine engine) (calm : Calm pc after) (call : after.call = pc.call) :
      StepCases s t (s.move t engine after)
  | admitted (put : PutCall) (engine : Engine) (here : s.threads t = .putBegun put)
      (core : SameCore s.engine engine) (short : put.blob.length < 2 ^ 32) :
      StepCases s t (s.move t engine (.allocate put))
  | finished (pc : ThreadPc) (engine : Engine) (update : Update) (isPut : Bool) (status : Status)
      (here : s.threads t = pc) (core : SameCore s.engine engine) (call : pc.call = some update)
      (hold : pc.hold = none) (settled : status = .kOk → pc.settled = some update) :
      StepCases s t (s.finish t engine update isPut status)
  | allocated (put : PutCall) (a allocator : SlabAllocator) (handle : SlabHandle) (ptr : Nat)
      (here : s.threads t = .allocate put) (isAllocator : s.engine.t1Allocator = some a)
      (allocated : a.allocate put.blob.length = some (handle, ptr, allocator)) :
      StepCases s t (s.move t { s.engine with t1Allocator := some allocator } (.copy put ptr))
  | copied (put : PutCall) (ptr : Nat) (here : s.threads t = .copy put ptr) :
      StepCases s t (s.stepCopy t put ptr)
  | publishedT1 (put : PutCall) (ptr : Nat) (here : s.threads t = .publishT1 put ptr) :
      StepCases s t
        (s.stepPublish t put (Engine.t1Entry put.blob put.opts put.times ptr) none)
  | publishedT2 (put : PutCall) (loc : BlobLocation) (here : s.threads t = .publishT2 put loc) :
      StepCases s t
        (s.stepPublish t put (Engine.t2Entry put.blob put.opts put.times loc) (some put.update))
  | reserved (pc after : ThreadPc) (key : StorageKey) (entry : IndexEntry)
      (here : s.threads t = pc) (seeks : pc.seeks = some key)
      (found : s.engine.index.find key = some entry) (inT1 : entry.tier = kT1Dram)
      (hold : after.hold = some ⟨entry.address.toNat, some key⟩) (call : after.call = pc.call)
      (settled : after.settled = pc.settled) (view : after.view = none) (copied : after.copied = none)
      (target : after.target = none) (admitted : after.admitted = none)
      (source : ∀ source, after.source = some source →
        source = ⟨key, s.history.version key, entry.address.toNat⟩)
      (plan : after.plan = none) : StepCases s t (s.move t s.engine after)
  | planned (put : PutCall) (victim : StorageKey) (entry : IndexEntry) (version : Nat)
      (loc : BlobLocation) (engine : Engine)
      (here : s.threads t = .evict put (.write victim entry version))
      (core : SameCore s.engine engine) :
      StepCases s t (s.move t engine
        (.evict put (.upsert victim entry loc version (s.history.slotOrigin entry.address.toNat))))
  | demoted (put : PutCall) (victim : StorageKey) (entry : IndexEntry) (loc : BlobLocation)
      (version : Nat) (origin : Option Update)
      (here : s.threads t = .evict put (.upsert victim entry loc version origin)) :
      StepCases s t
        ((s.move t { s.engine with
            index := s.engine.index.upsert victim (Engine.demotedEntry entry loc) }
          (.evict put (.insert victim entry))).record fun h =>
            { h with t2Origin := Function.update h.t2Origin victim origin })
  | dropped (put : PutCall) (victim : StorageKey) (entry : IndexEntry)
      (here : s.threads t = .evict put (.erase victim entry)) :
      StepCases s t (s.move t { s.engine with index := s.engine.index.erase victim }
        (.evict put (.free entry.address.toNat)))
  | freed (pc after : ThreadPc) (hold : Hold) (here : s.threads t = pc)
      (had : pc.hold = some hold) (hasNone : after.hold = none) (call : after.call = pc.call)
      (settled : after.settled = pc.settled) (view : after.view = none) (copied : after.copied = none)
      (target : after.target = none) (admitted : after.admitted = none)
      (source : after.source = none) (plan : after.plan = none)
      (frees : (∃ put, pc = .evict put (.free hold.ptr)) ∨
        ∃ del entry, pc = .delFree del entry ∧ hold = ⟨entry.address.toNat, some del.key⟩) :
      StepCases s t (s.move t (s.engine.freeT1 hold.ptr) after)
  | looked (key : StorageKey) (bufLen : Nat) (entry : IndexEntry)
      (here : s.threads t = .getFind key bufLen) (found : s.engine.index.find key = some entry)
      (inT1 : entry.tier = kT1Dram) : StepCases s t (s.move t s.engine (.getCopy key entry))
  | read (key : StorageKey) (entry : IndexEntry) (here : s.threads t = .getCopy key entry) :
      StepCases s t (s.move t s.engine
        (.getAccessT1 key entry (slice s.engine.memory entry.address.toNat entry.length.toNat)))
  | touched (key : StorageKey) (fromT1 : Bool) (reply : BlobStore.ReadReply) (io : StepIo)
      (here : s.threads t = .getTouch key fromT1 reply) :
      StepCases s t (s.stepGetTouch t key fromT1 reply io)
  | erased (del : Update) (here : s.threads t = .delErase del) :
      StepCases s t (s.stepDelErase t del)

section Inversion

variable {s after : EngineSystem} {t : Nat} {io : StepIo}

/-- A step from a point that carries nothing to one that carries nothing. -/
theorem calm_of_none {pc next : ThreadPc} (hold : next.hold = pc.hold)
    (settled : next.settled = pc.settled) (view : next.view = none) (copied : next.copied = none)
    (target : next.target = none) (admitted : next.admitted = none) (source : next.source = none)
    (plan : next.plan = none) : Calm pc next where
  hold := hold
  settled := settled
  view _ carried := by simp [view] at carried
  copied _ carried := by simp [copied] at carried
  target _ carried := by simp [target] at carried
  admitted _ carried := by simp [admitted] at carried
  source _ carried := by simp [source] at carried
  plan _ carried := by simp [plan] at carried

theorem evict_step_cases {put : PutCall} {pc : EvictPc} (here : s.threads t = .evict put pc)
    (ran : s.stepEvict t put io pc = some after) : StepCases s t after := by
  cases pc with
  | check =>
      simp only [EngineSystem.stepEvict] at ran
      split at ran
      · cases ran
        exact .quiet _ _ _ here (.refl _) (calm_of_none rfl rfl rfl rfl rfl rfl rfl rfl) rfl
      · cases ran
        exact .finished _ _ _ true _ here (.refl _) rfl rfl fun _ => rfl
  | pick =>
      simp only [EngineSystem.stepEvict] at ran
      split at ran
      · cases ran
        exact .finished _ _ _ true _ here ⟨rfl, rfl, rfl, rfl⟩ rfl rfl fun _ => rfl
      · cases ran
        exact .quiet _ _ _ here ⟨rfl, rfl, rfl, rfl⟩ (calm_of_none rfl rfl rfl rfl rfl rfl rfl rfl) rfl
  | find victim =>
      simp only [EngineSystem.stepEvict] at ran
      split at ran
      · cases ran
        exact .quiet _ _ _ here (.refl _) (calm_of_none rfl rfl rfl rfl rfl rfl rfl rfl) rfl
      · rename_i entry found
        split at ran
        · rename_i inT1
          split at ran
          · cases ran
            apply StepCases.reserved _ (.evict put (.write victim entry (s.history.version victim)))
              victim entry here rfl found inT1 rfl rfl rfl rfl rfl rfl rfl _ rfl
            intro source carried
            cases carried
            rfl
          · cases ran
            apply StepCases.reserved _ (.evict put (.erase victim entry)) victim entry here rfl found
              inT1 rfl rfl rfl rfl rfl rfl rfl _ rfl
            intro source carried
            cases carried
        · cases ran
          exact .quiet _ _ _ here (.refl _) (calm_of_none rfl rfl rfl rfl rfl rfl rfl rfl) rfl
  | write victim entry version =>
      simp only [EngineSystem.stepEvict] at ran
      split at ran
      · contradiction
      · split at ran
        · contradiction
        · rename_i status loc t2 written
          split at ran
          · cases ran
            exact .planned put victim entry version loc _ here ⟨rfl, rfl, rfl, rfl⟩
          · cases ran
            exact .quiet _ _ _ here ⟨rfl, rfl, rfl, rfl⟩
              (calm_of_none rfl rfl rfl rfl rfl rfl rfl rfl) rfl
  | upsert victim entry loc version origin =>
      cases ran
      exact .demoted put victim entry loc version origin here
  | insert victim entry =>
      cases ran
      exact .quiet _ _ _ here ⟨rfl, rfl, rfl, rfl⟩ (calm_of_none rfl rfl rfl rfl rfl rfl rfl rfl) rfl
  | erase victim entry =>
      cases ran
      exact .dropped put victim entry here
  | free ptr =>
      cases ran
      exact .freed _ _ ⟨ptr, none⟩ here rfl rfl rfl rfl rfl rfl rfl rfl rfl rfl (.inl ⟨put, rfl⟩)

theorem step_cases (ran : s.stepThread t io (s.threads t) = some after) : StepCases s t after := by
  cases here : s.threads t with
  | idle =>
      rw [here] at ran
      contradiction
  | putBegun put =>
      rw [here] at ran
      simp only [EngineSystem.stepThread, EngineSystem.stepAdmission, Option.some.injEq] at ran
      split at ran
      · subst ran
        exact .finished _ _ _ true _ here ⟨rfl, rfl, rfl, rfl⟩ rfl rfl fun ok => by cases ok
      · split at ran
        · subst ran
          exact .finished _ _ _ true _ here ⟨rfl, rfl, rfl, rfl⟩ rfl rfl fun ok => by cases ok
        · rename_i short
          subst ran
          exact .admitted put _ here ⟨rfl, rfl, rfl, rfl⟩ (by omega)
  | allocate put =>
      rw [here] at ran
      simp only [EngineSystem.stepThread, EngineSystem.stepAllocate, Option.some.injEq] at ran
      split at ran
      · rename_i handle ptr allocator allocation
        subst ran
        simp only [Engine.allocateT1, Option.bind_eq_some_iff] at allocation
        rcases allocation with ⟨a, isAllocator, allocated⟩
        exact .allocated put a allocator handle ptr here isAllocator allocated
      · split at ran
        · subst ran
          exact .quiet _ _ _ here (.refl _) (calm_of_none rfl rfl rfl rfl rfl rfl rfl rfl) rfl
        · subst ran
          exact .finished _ _ _ true _ here (.refl _) rfl rfl fun ok => by cases ok
  | copy put ptr =>
      rw [here] at ran
      cases ran
      exact .copied put ptr here
  | insertT1 put ptr =>
      rw [here] at ran
      cases ran
      refine .quiet _ _ _ here ⟨rfl, rfl, rfl, rfl⟩ ?_ rfl
      exact
        { hold := rfl
          settled := rfl
          view := fun _ carried => carried
          copied := fun _ carried => carried
          target := fun _ carried => carried
          admitted := fun _ carried => carried
          source := fun _ carried => carried
          plan := fun _ carried => carried }
  | publishT1 put ptr =>
      rw [here] at ran
      cases ran
      exact .publishedT1 put ptr here
  | write put =>
      rw [here] at ran
      simp only [EngineSystem.stepThread, EngineSystem.stepWrite] at ran
      split at ran
      · contradiction
      · split at ran
        · contradiction
        · rename_i status loc t2 written
          split at ran
          · cases ran
            exact .quiet _ _ _ here ⟨rfl, rfl, rfl, rfl⟩
              (calm_of_none rfl rfl rfl rfl rfl rfl rfl rfl) rfl
          · rename_i bad
            cases ran
            exact .finished _ _ _ true _ here ⟨rfl, rfl, rfl, rfl⟩ rfl rfl fun ok => absurd ok bad
  | insertT2 put loc =>
      rw [here] at ran
      cases ran
      exact .quiet _ _ _ here ⟨rfl, rfl, rfl, rfl⟩ (calm_of_none rfl rfl rfl rfl rfl rfl rfl rfl) rfl
  | publishT2 put loc =>
      rw [here] at ran
      cases ran
      exact .publishedT2 put loc here
  | evict put pc =>
      rw [here] at ran
      exact evict_step_cases here ran
  | getFind key bufLen =>
      rw [here] at ran
      simp only [EngineSystem.stepThread, EngineSystem.stepGetFind, Option.some.injEq] at ran
      split at ran
      · subst ran
        exact .quiet _ _ _ here (.refl _) (calm_of_none rfl rfl rfl rfl rfl rfl rfl rfl) rfl
      · rename_i entry found
        split at ran
        · rename_i inT1
          split at ran
          · subst ran
            exact .quiet _ _ _ here (.refl _) (calm_of_none rfl rfl rfl rfl rfl rfl rfl rfl) rfl
          · subst ran
            exact .looked key bufLen entry here found inT1.1
        · split at ran
          · subst ran
            exact .quiet _ _ _ here (.refl _) (calm_of_none rfl rfl rfl rfl rfl rfl rfl rfl) rfl
          · subst ran
            exact .quiet _ _ _ here (.refl _) (calm_of_none rfl rfl rfl rfl rfl rfl rfl rfl) rfl
  | getCopy key entry =>
      rw [here] at ran
      cases ran
      exact .read key entry here
  | getAccessT1 key entry bytes =>
      rw [here] at ran
      cases ran
      refine .quiet _ _ _ here ⟨rfl, rfl, rfl, rfl⟩ ?_ rfl
      exact
        { hold := rfl
          settled := rfl
          view := fun _ carried => carried
          copied := fun _ carried => carried
          target := fun _ carried => carried
          admitted := fun _ carried => carried
          source := fun _ carried => carried
          plan := fun _ carried => carried }
  | getRead key entry bufLen =>
      rw [here] at ran
      simp only [EngineSystem.stepThread, EngineSystem.stepGetRead] at ran
      split at ran
      · contradiction
      · split at ran
        · contradiction
        · split at ran
          · cases ran
            exact .quiet _ _ _ here ⟨rfl, rfl, rfl, rfl⟩
              (calm_of_none rfl rfl rfl rfl rfl rfl rfl rfl) rfl
          · cases ran
            exact .quiet _ _ _ here ⟨rfl, rfl, rfl, rfl⟩
              (calm_of_none rfl rfl rfl rfl rfl rfl rfl rfl) rfl
  | getAccessT2 key entry reply =>
      rw [here] at ran
      cases ran
      exact .quiet _ _ _ here ⟨rfl, rfl, rfl, rfl⟩ (calm_of_none rfl rfl rfl rfl rfl rfl rfl rfl) rfl
  | getTouch key fromT1 reply =>
      rw [here] at ran
      cases ran
      exact .touched key fromT1 reply io here
  | delFind del =>
      rw [here] at ran
      simp only [EngineSystem.stepThread, EngineSystem.stepDelFind, Option.some.injEq] at ran
      split at ran
      · subst ran
        exact .finished _ _ _ false _ here (.refl _) rfl rfl fun ok => by cases ok
      · rename_i entry found
        split at ran
        · rename_i inT1
          subst ran
          apply StepCases.reserved _ (.delFree del entry) del.key entry here rfl found inT1.1 rfl rfl
            rfl rfl rfl rfl rfl _ rfl
          intro source carried
          cases carried
        · split at ran
          · subst ran
            exact .quiet _ _ _ here (.refl _) (calm_of_none rfl rfl rfl rfl rfl rfl rfl rfl) rfl
          · subst ran
            exact .quiet _ _ _ here (.refl _) (calm_of_none rfl rfl rfl rfl rfl rfl rfl rfl) rfl
  | delFree del entry =>
      rw [here] at ran
      cases ran
      exact .freed _ _ ⟨entry.address.toNat, some del.key⟩ here rfl rfl rfl rfl rfl rfl rfl rfl rfl rfl
        (.inr ⟨del, entry, rfl, rfl⟩)
  | delMark del entry =>
      rw [here] at ran
      cases ran
      exact .quiet _ _ _ here ⟨rfl, rfl, rfl, rfl⟩ (calm_of_none rfl rfl rfl rfl rfl rfl rfl rfl) rfl
  | delErase del =>
      rw [here] at ran
      cases ran
      exact .erased del here
  | delRemoveT1 del =>
      rw [here] at ran
      cases ran
      exact .quiet _ _ _ here ⟨rfl, rfl, rfl, rfl⟩ (calm_of_none rfl rfl rfl rfl rfl rfl rfl rfl) rfl
  | delRemoveT2 del =>
      rw [here] at ran
      cases ran
      exact .finished _ _ _ false _ here ⟨rfl, rfl, rfl, rfl⟩ rfl rfl fun _ => rfl

end Inversion

/-! ## The steps of the system -/

def EngineLabel.thread : EngineLabel → Option Nat
  | .put t .. | .get t .. | .del t .. | .step t _ => some t
  | .flush _ => none

inductive EngineCases (s : EngineSystem) : EngineLabel → EngineSystem → Prop where
  | began (label : EngineLabel) (t : Nat) (pc : ThreadPc) (puts : List Update)
      (mover : label.thread = some t) (here : s.threads t = .idle) (calm : Calm .idle pc)
      (call : ∀ update, pc.call = some update → update.begun = s.history.clock) :
      EngineCases s label
        ((s.move t s.engine pc).record fun h =>
          { h with clock := h.clock + 1, puts := puts ++ h.puts })
  | stepped (t : Nat) (io : StepIo) {after : EngineSystem} (cases : StepCases s t after) :
      EngineCases s (.step t io) after
  | flushed (step : BlobStore.FlushStep) (engine : Engine) (core : SameCore s.engine engine) :
      EngineCases s (.flush step) { s with engine }

theorem begin_cases {s after : EngineSystem} {label : EngineLabel} {t : Nat}
    {pc : Nat → ThreadPc} {puts : Nat → List Update} (mover : label.thread = some t)
    (calm : ∀ begun, Calm .idle (pc begun))
    (call : ∀ begun update, (pc begun).call = some update → update.begun = begun)
    (ran : s.begin t pc puts = some after) : EngineCases s label after := by
  unfold EngineSystem.begin at ran
  split at ran
  · rename_i here
    cases ran
    exact .began label t _ _ mover here (calm _) (call _)
  · contradiction

theorem engine_cases {s after : EngineSystem} {label : EngineLabel}
    (moved : engineMachine.exec s label = some after) : EngineCases s label after := by
  have free : ∀ pc : ThreadPc, pc.hold = none → pc.settled = none → pc.view = none →
      pc.copied = none → pc.target = none → pc.admitted = none → pc.source = none →
      pc.plan = none → Calm .idle pc := fun _ hold settled => calm_of_none hold settled
  cases label with
  | put t key blob opts createdAt lastAccess =>
      simp only [engineMachine, EngineSystem.exec] at moved
      refine begin_cases rfl (fun begun => free _ rfl rfl rfl rfl rfl rfl rfl rfl) ?_ moved
      intro begun update carried
      cases carried
      rfl
  | get t key bufLen =>
      simp only [engineMachine, EngineSystem.exec] at moved
      refine begin_cases rfl (fun begun => free _ rfl rfl rfl rfl rfl rfl rfl rfl) ?_ moved
      intro begun update carried
      cases carried
  | del t key =>
      simp only [engineMachine, EngineSystem.exec] at moved
      refine begin_cases rfl (fun begun => free _ rfl rfl rfl rfl rfl rfl rfl rfl) ?_ moved
      intro begun update carried
      cases carried
      rfl
  | step t io => exact .stepped t io (step_cases moved)
  | flush step =>
      simp only [engineMachine, EngineSystem.exec] at moved
      split at moved
      · contradiction
      · rw [Option.map_eq_some_iff] at moved
        rcases moved with ⟨t2, _, rfl⟩
        exact .flushed step _ ⟨rfl, rfl, rfl, rfl⟩

/-! ## The other threads -/

theorem step_threads {s after : EngineSystem} {t : Nat} (cases : StepCases s t after) :
    ∃ pc, after.threads = Function.update s.threads t pc := by
  cases cases <;> exact ⟨_, rfl⟩

/-- A step changes no thread but its own. -/
theorem other_threads {s after : EngineSystem} {label : EngineLabel}
    (moved : engineMachine.exec s label = some after) {t : Nat} (other : label.thread ≠ some t) :
    after.threads t = s.threads t := by
  have unchanged : ∀ mover pc, label.thread = some mover →
      Function.update s.threads mover pc t = s.threads t := by
    intro mover pc isMover
    apply Function.update_of_ne
    rintro rfl
    exact other isMover
  cases engine_cases moved with
  | began _ mover pc puts isMover => exact unchanged mover pc isMover
  | stepped mover io cases =>
      rcases step_threads cases with ⟨pc, threads⟩
      rw [threads]
      exact unchanged mover pc rfl
  | flushed => rfl

def SoleThread (s : EngineSystem) : Prop :=
  ∀ t, t ≠ 0 → s.threads t = .idle

theorem sole_thread_kept {s after : EngineSystem} {label : EngineLabel} (sole : SoleThread s)
    (first : label.thread = some 0) (moved : engineMachine.exec s label = some after) :
    SoleThread after := by
  intro t other
  have foreign : label.thread ≠ some t := by
    rw [first]
    intro same
    cases same
    exact other rfl
  rw [other_threads moved foreign]
  exact sole t other

end AttentionDB
