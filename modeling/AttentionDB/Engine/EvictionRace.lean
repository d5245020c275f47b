import AttentionDB.Engine.SlotRelease

/-!
# Evictions that undo an update

An eviction reads the entry of its victim, writes the bytes to the blob store
and then puts the demoted entry into the index, whatever the index holds by
then. No acknowledged put or delete is undone in every run in which the key was
left alone in between, and in which a put publishes a slot that no acknowledged
put of the same key has filled since.
-/

namespace AttentionDB

open GuardedRuns SlabAllocator

set_option autoImplicit false

def entryOrigin (s : EngineSystem) (key : StorageKey) (entry : IndexEntry) : Option Update :=
  if entry.tier = kT1Dram then s.history.slotOrigin entry.address.toNat else s.history.t2Origin key

def AckedPut (s : EngineSystem) (key : StorageKey) (put : Update) (returned : Nat) : Prop :=
  ∃ d ∈ s.history.done, d.update = put ∧ put.key = key ∧ d.isPut = true ∧ d.status = .kOk ∧
    d.returned = returned

/-- Once a put or a delete of a key has returned kOk, and as long as no newer
put of the key has begun, the entry of the key does not come from a put that
was acknowledged before that put or delete began. -/
def NotUndone (s : EngineSystem) : Prop :=
  ∀ d ∈ s.history.done, d.status = .kOk →
    (∀ newer ∈ s.history.puts, newer.key = d.update.key → newer.begun ≤ d.update.begun) →
    ∀ entry put returned, s.engine.index.find d.update.key = some entry →
      entryOrigin s d.update.key entry = some put → AckedPut s d.update.key put returned →
      ¬returned < d.update.begun

/-- An eviction upserts the demoted entry only when no put has published and no
delete has erased an entry under that key since the eviction looked it up, or
when the put whose bytes it demotes has not returned yet. A put publishes a slot
only when it is not filled by a put of the same key that has returned. -/
def raceGuard (s : EngineSystem) : EngineLabel → Prop
  | .step t _ =>
      (∀ put victim entry loc version origin,
        s.threads t = .evict put (.upsert victim entry loc version origin) →
          s.history.version victim = version ∨
            ∀ source returned, origin = some source → ¬AckedPut s victim source returned) ∧
      ∀ put ptr, s.threads t = .publishT1 put ptr → ∀ source returned,
        s.history.slotOrigin (Engine.t1Entry put.blob put.opts put.times ptr).address.toNat =
          some source → ¬AckedPut s put.update.key source returned
  | _ => True

/-! ## The invariant -/

/-- A put or delete that has changed the index: it is on its way to return kOk,
or has done so. -/
def Settled (s : EngineSystem) (update : Update) : Prop :=
  (∃ t, (s.threads t).settled = some update) ∨
    ∃ d ∈ s.history.done, d.update = update ∧ d.status = .kOk

/-- No put or delete that has changed the index began after the acknowledgement
of the put that the bytes come from. -/
def Fresh (s : EngineSystem) (key : StorageKey) (origin : Option Update) : Prop :=
  ∀ put returned, origin = some put → AckedPut s key put returned →
    ∀ update, Settled s update → update.key = key → update.begun ≤ returned

structure RaceInv (s : EngineSystem) : Prop where
  calls : ∀ t update, (s.threads t).call = some update →
    update.begun < s.history.clock ∧ ∀ d ∈ s.history.done, d.update ≠ update
  distinct : ∀ t u update, (s.threads t).call = some update → (s.threads u).call = some update → t = u
  returned : ∀ d ∈ s.history.done, d.update.begun < s.history.clock
  entries : ∀ key entry, s.engine.index.find key = some entry → Fresh s key (entryOrigin s key entry)
  sources : ∀ t source, (s.threads t).source = some source →
    source.version ≤ s.history.version source.victim ∧
      (s.history.version source.victim = source.version →
        Fresh s source.victim (s.history.slotOrigin source.ptr))
  plans : ∀ t plan, (s.threads t).plan = some plan →
    plan.version ≤ s.history.version plan.victim ∧
      (s.history.version plan.victim = plan.version → Fresh s plan.victim plan.origin)

section Steps

variable {s after : EngineSystem} {t : Nat} {pc : ThreadPc}

theorem fresh_of_unacked {key : StorageKey} {origin : Option Update}
    (unacked : ∀ put returned, origin = some put → ¬AckedPut s key put returned) :
    Fresh s key origin := by
  intro put returned isOrigin acked
  exact absurd acked (unacked put returned isOrigin)

/-- The bytes of a put in progress. -/
theorem RaceInv.fresh_own (inv : RaceInv s) {update : Update}
    (call : (s.threads t).call = some update) (key : StorageKey) : Fresh s key (some update) := by
  apply fresh_of_unacked
  rintro put returned ⟨⟩ ⟨d, member, same, _⟩
  exact (inv.calls t update call).2 d member same

theorem settled_call {pc : ThreadPc} {update : Update} (settled : pc.settled = some update) :
    pc.call = some update := by
  cases pc <;> first | exact settled | cases settled

theorem RaceInv.settled_begun (inv : RaceInv s) {update : Update} (settled : Settled s update) :
    update.begun < s.history.clock := by
  rcases settled with ⟨t, carried⟩ | ⟨d, member, rfl, _⟩
  · exact (inv.calls t update (settled_call carried)).1
  · exact inv.returned d member

/-- Fresh bytes stay fresh while no call returns and no update of the key
settles. -/
theorem fresh_kept {key : StorageKey} {origin : Option Update} (fresh : Fresh s key origin)
    (done : after.history.done = s.history.done)
    (settled : ∀ update, Settled after update → update.key = key → Settled s update) :
    Fresh after key origin := by
  rintro put returned isOrigin ⟨d, member, acked⟩ update isSettled isKey
  rw [done] at member
  exact fresh put returned isOrigin ⟨d, member, acked⟩ update (settled update isSettled isKey) isKey

/-- One thread goes on with its call, and no update settles. -/
theorem RaceInv.moved (inv : RaceInv s) (threads : after.threads = Function.update s.threads t pc)
    (call : pc.call = (s.threads t).call) (settled : pc.settled = (s.threads t).settled)
    (clock : after.history.clock = s.history.clock) (done : after.history.done = s.history.done)
    (version : after.history.version = s.history.version)
    (slots : ∀ key ptr, Fresh s key (s.history.slotOrigin ptr) →
      Fresh s key (after.history.slotOrigin ptr))
    (entries : ∀ key entry, after.engine.index.find key = some entry →
      Fresh s key (entryOrigin after key entry))
    (source : ∀ source, pc.source = some source →
      source.version ≤ s.history.version source.victim ∧
        (s.history.version source.victim = source.version →
          Fresh s source.victim (after.history.slotOrigin source.ptr)))
    (plan : ∀ plan, pc.plan = some plan → plan.version ≤ s.history.version plan.victim ∧
      (s.history.version plan.victim = plan.version → Fresh s plan.victim plan.origin)) :
    RaceInv after := by
  have calls : ∀ u, (after.threads u).call = (s.threads u).call := by
    intro u
    rw [threads, Function.update_apply]
    split
    · rename_i same
      rw [same]
      exact call
    · rfl
  have isSettled : ∀ update, Settled after update → Settled s update := by
    rintro update (⟨u, carried⟩ | ⟨d, member, ok⟩)
    · rw [threads] at carried
      rcases carried_update ThreadPc.settled carried with ⟨_, own⟩ | ⟨_, foreign⟩
      · exact .inl ⟨t, settled ▸ own⟩
      · exact .inl ⟨u, foreign⟩
    · rw [done] at member
      exact .inr ⟨d, member, ok⟩
  have kept : ∀ {key origin}, Fresh s key origin → Fresh after key origin := by
    intro key origin fresh
    exact fresh_kept fresh done fun update ok _ => isSettled update ok
  refine
    { calls := ?_
      distinct := ?_
      returned := by rw [done, clock]; exact inv.returned
      entries := fun key entry found => kept (entries key entry found)
      sources := ?_
      plans := ?_ }
  · intro u update carried
    rw [calls] at carried
    rw [clock, done]
    exact inv.calls u update carried
  · intro u v update carried other
    rw [calls] at carried other
    exact inv.distinct u v update carried other
  · intro u found carried
    rw [threads] at carried
    rw [version]
    rcases carried_update ThreadPc.source carried with ⟨_, own⟩ | ⟨_, foreign⟩
    · exact ⟨(source found own).1, fun current => kept ((source found own).2 current)⟩
    · have before := inv.sources u found foreign
      exact ⟨before.1, fun current => kept (slots _ _ (before.2 current))⟩
  · intro u found carried
    rw [threads] at carried
    rw [version]
    rcases carried_update ThreadPc.plan carried with ⟨_, own⟩ | ⟨_, foreign⟩
    · exact ⟨(plan found own).1, fun current => kept ((plan found own).2 current)⟩
    · have before := inv.plans u found foreign
      exact ⟨before.1, fun current => kept (before.2 current)⟩

/-- Nor does the thread carry anything new, nor does the history change. -/
theorem RaceInv.plain (inv : RaceInv s) {engine : Engine} (call : pc.call = (s.threads t).call)
    (settled : pc.settled = (s.threads t).settled)
    (entries : ∀ key entry, engine.index.find key = some entry →
      Fresh s key (entryOrigin s key entry))
    (source : ∀ source, pc.source = some source → (s.threads t).source = some source)
    (plan : ∀ plan, pc.plan = some plan → (s.threads t).plan = some plan) :
    RaceInv (s.move t engine pc) := by
  refine inv.moved rfl call settled rfl rfl rfl (fun _ _ fresh => fresh) entries ?_ ?_
  · intro found carried
    exact inv.sources t found (source found carried)
  · intro found carried
    exact inv.plans t found (plan found carried)

theorem RaceInv.same_index (inv : RaceInv s) {engine : Engine} (index : engine.index = s.engine.index) :
    ∀ key entry, engine.index.find key = some entry → Fresh s key (entryOrigin s key entry) := by
  intro key entry found
  rw [index] at found
  exact inv.entries key entry found

theorem none_carried {Carried : Type} {carries : Option Carried} (none : carries = none)
    {property : Carried → Prop} : ∀ value, carries = some value → property value := by
  intro value carried
  rw [none] at carried
  cases carried

/-- A put publishes, or a delete erases: the versions tell the evictions that
are on their way. -/
theorem RaceInv.settles (inv : RaceInv s) (threads : after.threads = Function.update s.threads t pc)
    {own : Update} (had : (s.threads t).call = some own) (call : pc.call = some own)
    (settled : pc.settled = some own) (source : pc.source = none) (plan : pc.plan = none)
    (clock : after.history.clock = s.history.clock) (done : after.history.done = s.history.done)
    (version : after.history.version =
      Function.update s.history.version own.key (s.history.version own.key + 1))
    (slots : after.history.slotOrigin = s.history.slotOrigin)
    (entries : ∀ key entry, after.engine.index.find key = some entry →
      key ≠ own.key ∧ Fresh s key (entryOrigin after key entry) ∨
        ∀ put returned, entryOrigin after key entry = some put → ¬AckedPut s key put returned) :
    RaceInv after := by
  have calls : ∀ u, (after.threads u).call = (s.threads u).call := by
    intro u
    rw [threads, Function.update_apply]
    split
    · rename_i same
      rw [same, had]
      exact call
    · rfl
  have kept : ∀ {key origin}, key ≠ own.key → Fresh s key origin → Fresh after key origin := by
    intro key origin different fresh
    apply fresh_kept fresh done
    rintro update (⟨u, carried⟩ | ⟨d, member, ok⟩) isKey
    · rw [threads] at carried
      rcases carried_update ThreadPc.settled carried with ⟨_, carried⟩ | ⟨_, carried⟩
      · rw [settled] at carried
        cases carried
        exact absurd isKey.symm different
      · exact .inl ⟨u, carried⟩
    · rw [done] at member
      exact .inr ⟨d, member, ok⟩
  -- the version of the key is larger than every version that was read
  have versions : ∀ {victim : StorageKey} {read : Nat}, read ≤ s.history.version victim →
      read ≤ after.history.version victim ∧
        (after.history.version victim = read →
          victim ≠ own.key ∧ s.history.version victim = read) := by
    intro victim read atMost
    rw [version]
    by_cases same : victim = own.key
    · subst same
      rw [Function.update_self]
      exact ⟨by omega, fun current => absurd current (by omega)⟩
    · rw [Function.update_of_ne same]
      exact ⟨atMost, fun current => ⟨same, current⟩⟩
  refine
    { calls := ?_
      distinct := ?_
      returned := by rw [done, clock]; exact inv.returned
      entries := ?_
      sources := ?_
      plans := ?_ }
  · intro u update carried
    rw [calls] at carried
    rw [clock, done]
    exact inv.calls u update carried
  · intro u v update carried other
    rw [calls] at carried other
    exact inv.distinct u v update carried other
  · intro key entry found
    rcases entries key entry found with ⟨different, fresh⟩ | unacked
    · exact kept different fresh
    · apply fresh_of_unacked
      rintro put returned isOrigin ⟨d, member, acked⟩
      rw [done] at member
      exact unacked put returned isOrigin ⟨d, member, acked⟩
  · intro u found carried
    rw [threads] at carried
    have before := inv.sources u found (carried_elsewhere source carried).2
    refine ⟨(versions before.1).1, ?_⟩
    intro current
    rcases (versions before.1).2 current with ⟨different, current⟩
    rw [slots]
    exact kept different (before.2 current)
  · intro u found carried
    rw [threads] at carried
    have before := inv.plans u found (carried_elsewhere plan carried).2
    refine ⟨(versions before.1).1, ?_⟩
    intro current
    rcases (versions before.1).2 current with ⟨different, current⟩
    exact kept different (before.2 current)

/-- A call returns. Whatever has settled began before. -/
theorem RaceInv.finished (inv : RaceInv s) {engine : Engine} {update : Update} {isPut : Bool}
    {status : Status} (index : engine.index = s.engine.index)
    (call : (s.threads t).call = some update)
    (settled : status = .kOk → (s.threads t).settled = some update) :
    RaceInv (s.finish t engine update isPut status) := by
  have threads : (s.finish t engine update isPut status).threads =
      Function.update s.threads t .idle := rfl
  have stays : ∀ other, Settled (s.finish t engine update isPut status) other → Settled s other := by
    rintro other (⟨u, carried⟩ | ⟨d, member, rfl, ok⟩)
    · rw [threads] at carried
      exact .inl ⟨u, (carried_elsewhere rfl carried).2⟩
    · rcases List.mem_cons.1 member with rfl | old
      · exact .inl ⟨t, settled ok⟩
      · exact .inr ⟨d, old, rfl, ok⟩
  have kept : ∀ {key origin}, Fresh s key origin →
      Fresh (s.finish t engine update isPut status) key origin := by
    rintro key origin fresh put returned isOrigin ⟨d, member, same, isKey, wasPut, ok, time⟩ other
      isSettled otherKey
    rcases List.mem_cons.1 member with rfl | old
    · have begun := inv.settled_begun (stays other isSettled)
      change s.history.clock = returned at time
      omega
    · exact fresh put returned isOrigin ⟨d, old, same, isKey, wasPut, ok, time⟩ other
        (stays other isSettled) otherKey
  have calls : ∀ u other, ((s.finish t engine update isPut status).threads u).call = some other →
      u ≠ t ∧ (s.threads u).call = some other := by
    intro u other carried
    rw [threads] at carried
    exact carried_elsewhere rfl carried
  refine
    { calls := ?_
      distinct := ?_
      returned := ?_
      entries := ?_
      sources := ?_
      plans := ?_ }
  · intro u other carried
    rcases calls u other carried with ⟨different, carried⟩
    have before := inv.calls u other carried
    refine ⟨Nat.lt_succ_of_lt before.1, ?_⟩
    intro d member
    rcases List.mem_cons.1 member with rfl | old
    · rintro rfl
      exact different (inv.distinct u t update carried call)
    · exact before.2 d old
  · intro u v other carried otherCarried
    exact inv.distinct u v other (calls u other carried).2 (calls v other otherCarried).2
  · intro d member
    rcases List.mem_cons.1 member with rfl | old
    · exact Nat.lt_succ_of_lt (inv.calls t update call).1
    · exact Nat.lt_succ_of_lt (inv.returned d old)
  · intro key entry found
    exact kept (inv.same_index index key entry found)
  · intro u found carried
    rw [threads] at carried
    have before := inv.sources u found (carried_elsewhere rfl carried).2
    exact ⟨before.1, fun current => kept (before.2 current)⟩
  · intro u found carried
    rw [threads] at carried
    have before := inv.plans u found (carried_elsewhere rfl carried).2
    exact ⟨before.1, fun current => kept (before.2 current)⟩

/-- A call begins with the next stamp. -/
theorem RaceInv.began (inv : RaceInv s) {puts : List Update}
    (calm : Calm .idle pc)
    (call : ∀ update, pc.call = some update → update.begun = s.history.clock) :
    RaceInv ((s.move t s.engine pc).record fun h =>
      { h with clock := h.clock + 1, puts := puts ++ h.puts }) := by
  have stays : ∀ other, Settled ((s.move t s.engine pc).record fun h =>
      { h with clock := h.clock + 1, puts := puts ++ h.puts }) other → Settled s other := by
    rintro other (⟨u, carried⟩ | done)
    · exact .inl ⟨u, (carried_elsewhere calm.settled carried).2⟩
    · exact .inr done
  have kept : ∀ {key origin}, Fresh s key origin → Fresh ((s.move t s.engine pc).record fun h =>
      { h with clock := h.clock + 1, puts := puts ++ h.puts }) key origin := by
    intro key origin fresh
    exact fresh_kept fresh rfl fun update settled _ => stays update settled
  refine
    { calls := ?_
      distinct := ?_
      returned := fun d member => Nat.lt_succ_of_lt (inv.returned d member)
      entries := fun key entry found => kept (inv.entries key entry found)
      sources := ?_
      plans := ?_ }
  · intro u update carried
    rcases carried_update ThreadPc.call carried with ⟨_, carried⟩ | ⟨_, carried⟩
    · have stamp := call update carried
      refine ⟨Nat.lt_succ_of_le (Nat.le_of_eq stamp), ?_⟩
      rintro d member rfl
      have before := inv.returned d member
      omega
    · have before := inv.calls u update carried
      exact ⟨Nat.lt_succ_of_lt before.1, before.2⟩
  · intro u v update carried other
    rcases carried_update ThreadPc.call carried with ⟨isFirst, carried⟩ | ⟨_, carried⟩
    · rcases carried_update ThreadPc.call other with ⟨isSecond, _⟩ | ⟨_, other⟩
      · exact isFirst.trans isSecond.symm
      · have before := (inv.calls v update other).1
        rw [call update carried] at before
        omega
    · rcases carried_update ThreadPc.call other with ⟨_, other⟩ | ⟨_, other⟩
      · have before := (inv.calls u update carried).1
        rw [call update other] at before
        omega
      · exact inv.distinct u v update carried other
  · intro u found carried
    rcases carried_update ThreadPc.source carried with ⟨_, carried⟩ | ⟨_, carried⟩
    · have nothing := calm.source found carried
      cases nothing
    · have before := inv.sources u found carried
      exact ⟨before.1, fun current => kept (before.2 current)⟩
  · intro u found carried
    rcases carried_update ThreadPc.plan carried with ⟨_, carried⟩ | ⟨_, carried⟩
    · have nothing := calm.plan found carried
      cases nothing
    · have before := inv.plans u found carried
      exact ⟨before.1, fun current => kept (before.2 current)⟩

/-! ## Every step -/

theorem entry_origin_t1 {key : StorageKey} {entry : IndexEntry} (inT1 : entry.tier = kT1Dram) :
    entryOrigin s key entry = s.history.slotOrigin entry.address.toNat := by
  simp [entryOrigin, inT1]

theorem entry_origin_t2 {key : StorageKey} {entry : IndexEntry} (notInT1 : entry.tier ≠ kT1Dram) :
    entryOrigin s key entry = s.history.t2Origin key := by
  simp [entryOrigin, notInT1]

/-- Another key's entry, with the slots as they were. -/
theorem entry_origin_other {key changed : StorageKey} {entry : IndexEntry} {origin : Option Update}
    (slots : after.history.slotOrigin = s.history.slotOrigin)
    (t2Origin : after.history.t2Origin = Function.update s.history.t2Origin changed origin)
    (different : key ≠ changed) : entryOrigin after key entry = entryOrigin s key entry := by
  simp [entryOrigin, slots, t2Origin, different]

theorem RaceInv.copied (inv : RaceInv s) {put : PutCall} {ptr : Nat}
    (here : s.threads t = .copy put ptr) : RaceInv (s.stepCopy t put ptr) := by
  have own : (s.threads t).call = some put.update := by rw [here]; rfl
  have slots : ∀ key q, Fresh s key (s.history.slotOrigin q) →
      Fresh s key ((s.stepCopy t put ptr).history.slotOrigin q) := by
    intro key q fresh
    change Fresh s key (Function.update s.history.slotOrigin ptr (some put.update) q)
    rw [Function.update_apply]
    split
    · exact inv.fresh_own own key
    · exact fresh
  refine inv.moved rfl (by rw [here]; rfl) (by rw [here]; rfl) rfl rfl rfl slots ?_ ?_ ?_
  · intro key entry found
    have fresh := inv.entries key entry found
    by_cases inT1 : entry.tier = kT1Dram
    · rw [entry_origin_t1 inT1] at fresh ⊢
      exact slots key _ fresh
    · rw [entry_origin_t2 inT1] at fresh ⊢
      exact fresh
  · rintro _ ⟨⟩
  · rintro _ ⟨⟩

theorem RaceInv.published (inv : RaceInv s) {put : PutCall} {entry : IndexEntry}
    {origin : Option Update} (call : (s.threads t).call = some put.update)
    (unacked : ∀ source returned,
      entryOrigin (s.stepPublish t put entry origin) put.update.key entry = some source →
        ¬AckedPut s put.update.key source returned) :
    RaceInv (s.stepPublish t put entry origin) := by
  refine inv.settles rfl call rfl rfl rfl rfl rfl rfl rfl rfl ?_
  intro key found isFound
  change (s.engine.index.upsert put.update.key entry).find key = some found at isFound
  rw [ConcurrentHashMap.find_upsert] at isFound
  split at isFound
  · rename_i same
    cases isFound
    subst same
    exact .inr unacked
  · rename_i different
    have same : entryOrigin (s.stepPublish t put entry origin) key found = entryOrigin s key found :=
      entry_origin_other rfl rfl different
    rw [same]
    exact .inl ⟨different, inv.entries key found isFound⟩

theorem RaceInv.demoted (inv : RaceInv s) {put : PutCall} {victim : StorageKey} {entry : IndexEntry}
    {loc : BlobLocation} {version : Nat} {origin : Option Update}
    (here : s.threads t = .evict put (.upsert victim entry loc version origin))
    (fresh : Fresh s victim origin) :
    RaceInv ((s.move t { s.engine with
        index := s.engine.index.upsert victim (Engine.demotedEntry entry loc) }
      (.evict put (.insert victim entry))).record fun h =>
        { h with t2Origin := Function.update h.t2Origin victim origin }) := by
  refine inv.moved rfl (by rw [here]; rfl) (by rw [here]; rfl) rfl rfl rfl (fun _ _ same => same) ?_ ?_ ?_
  · intro key found isFound
    change (s.engine.index.upsert victim _).find key = some found at isFound
    rw [ConcurrentHashMap.find_upsert] at isFound
    split at isFound
    · rename_i same
      cases isFound
      subst same
      rw [entry_origin_t2 (Engine.demoted_not_t1 entry loc)]
      change Fresh s key (Function.update s.history.t2Origin key origin key)
      rw [Function.update_self]
      exact fresh
    · rename_i different
      convert inv.entries key found isFound using 1
      exact entry_origin_other rfl rfl different
  · rintro _ ⟨⟩
  · rintro _ ⟨⟩

theorem step_race {io : StepIo} (inv : RaceInv s) (allowed : raceGuard s (.step t io))
    (cases : StepCases s t after) : RaceInv after := by
  cases cases with
  | quiet pc next engine here core calm call =>
      subst here
      exact inv.plain call calm.settled (inv.same_index core.index) calm.source calm.plan
  | admitted put engine here core =>
      exact inv.plain (by rw [here]; rfl) (by rw [here]; rfl) (inv.same_index core.index)
        (none_carried rfl) (none_carried rfl)
  | finished pc engine update isPut status here core call hold settled =>
      subst here
      exact inv.finished core.index call settled
  | allocated put a allocator handle ptr here =>
      exact inv.plain (by rw [here]; rfl) (by rw [here]; rfl) (inv.same_index rfl)
        (none_carried rfl) (none_carried rfl)
  | copied put ptr here => exact inv.copied here
  | publishedT1 put ptr here =>
      apply inv.published (by rw [here]; rfl)
      exact allowed.2 put ptr here
  | publishedT2 put loc here =>
      have call : (s.threads t).call = some put.update := by rw [here]; rfl
      apply inv.published call
      intro source returned isOrigin
      have notInT1 : (Engine.t2Entry put.blob put.opts put.times loc).tier ≠ kT1Dram := by
        intro same
        cases same
      rw [entry_origin_t2 notInT1] at isOrigin
      change Function.update s.history.t2Origin put.update.key _ put.update.key = _ at isOrigin
      rw [Function.update_self] at isOrigin
      cases isOrigin
      rintro ⟨d, member, same, _⟩
      exact (inv.calls t put.update call).2 d member same
  | reserved pc next key entry here seeks found inT1 hold call settled view copied target admitted source
      plan =>
      subst here
      refine inv.moved rfl call settled rfl rfl rfl (fun _ _ fresh => fresh) inv.entries ?_
        (none_carried plan)
      intro carried isSource
      rw [source carried isSource]
      refine ⟨Nat.le_refl _, ?_⟩
      intro _
      have fresh := inv.entries key entry found
      rw [entry_origin_t1 inT1] at fresh
      exact fresh
  | planned put victim entry version loc engine here core =>
      refine inv.moved rfl (by rw [here]; rfl) (by rw [here]; rfl) rfl rfl rfl (fun _ _ fresh => fresh)
        (inv.same_index core.index) (none_carried rfl) ?_
      rintro _ ⟨⟩
      exact inv.sources t ⟨victim, version, entry.address.toNat⟩ (by rw [here]; rfl)
  | demoted put victim entry loc version origin here =>
      apply inv.demoted here
      rcases allowed.1 put victim entry loc version origin here with current | unacked
      · exact (inv.plans t ⟨victim, version, origin⟩ (by rw [here]; rfl)).2 current
      · exact fresh_of_unacked unacked
  | dropped put victim entry here =>
      refine inv.plain (by rw [here]; rfl) (by rw [here]; rfl) ?_ (none_carried rfl) (none_carried rfl)
      intro key found isFound
      change (s.engine.index.erase victim).find key = some found at isFound
      rw [ConcurrentHashMap.find_erase] at isFound
      split at isFound
      · cases isFound
      · exact inv.entries key found isFound
  | freed pc next hold here had hasNone call settled view copied target admitted source plan =>
      subst here
      exact inv.plain call settled (inv.same_index rfl) (none_carried source) (none_carried plan)
  | looked key bufLen entry here =>
      exact inv.plain (by rw [here]; rfl) (by rw [here]; rfl) (inv.same_index rfl)
        (none_carried rfl) (none_carried rfl)
  | read key entry here =>
      exact inv.plain (by rw [here]; rfl) (by rw [here]; rfl) (inv.same_index rfl)
        (none_carried rfl) (none_carried rfl)
  | touched key fromT1 reply io here =>
      -- only the record of what gets returned may change, and nothing here reads it
      have entries : ∀ other entry, (s.engine.touchEntry key io.now).index.find other = some entry →
          Fresh s other (entryOrigin s other entry) := by
        intro other entry found
        rw [Engine.touchEntry, ConcurrentHashMap.find_update_fn] at found
        split at found
        · rename_i same
          rw [Option.map_eq_some_iff] at found
          rcases found with ⟨old, was, rfl⟩
          exact inv.entries other old (same ▸ was)
        · exact inv.entries other entry found
      have call : (s.threads t).call = none := by rw [here]; cases fromT1 <;> rfl
      have settled : (s.threads t).settled = none := by rw [here]; cases fromT1 <;> rfl
      cases fromT1 with
      | false => exact inv.plain call.symm settled.symm entries (none_carried rfl) (none_carried rfl)
      | true =>
          exact inv.moved rfl call.symm settled.symm rfl rfl rfl (fun _ _ fresh => fresh) entries
            (none_carried rfl) (none_carried rfl)
  | erased del here =>
      have call : (s.threads t).call = some del := by rw [here]; rfl
      refine inv.settles rfl call rfl rfl rfl rfl rfl rfl rfl rfl ?_
      intro key found isFound
      change (s.engine.index.erase del.key).find key = some found at isFound
      rw [ConcurrentHashMap.find_erase] at isFound
      split at isFound
      · cases isFound
      · rename_i different
        exact .inl ⟨different, inv.entries key found isFound⟩

theorem engine_race {label : EngineLabel} (inv : RaceInv s) (allowed : raceGuard s label)
    (cases : EngineCases s label after) : RaceInv after := by
  cases cases with
  | began label t pc puts mover here calm call => exact inv.began calm call
  | stepped t io cases => exact step_race inv allowed cases
  | flushed step engine core =>
      rw [← move_nowhere s 0 engine]
      exact inv.plain rfl rfl (inv.same_index core.index) (fun _ carried => carried) fun _ carried => carried

end Steps

section Runs

variable {s : EngineSystem}

theorem engine_start_race (initial : engineMachine.start s) : RaceInv s := by
  rcases initial with ⟨config, io, opening, backed, fresh⟩
  have threads : ∀ t, s.threads t = .idle := by
    intro t
    rw [fresh]
  have history : s.history = {} := by rw [fresh]
  have none : ∀ key origin, Fresh s key origin := by
    rintro key origin put returned _ ⟨d, member, _⟩
    rw [history] at member
    cases member
  refine
    { calls := ?_
      distinct := ?_
      returned := ?_
      entries := fun key entry _ => none key _
      sources := ?_
      plans := ?_ }
  · intro t update carried
    rw [threads] at carried
    cases carried
  · intro t u update carried
    rw [threads] at carried
    cases carried
  · intro d member
    rw [history] at member
    cases member
  · intro t source carried
    rw [threads] at carried
    cases carried
  · intro t plan carried
    rw [threads] at carried
    cases carried

/-- In every run that leaves the victim's key alone between an eviction's
lookup and its upsert, and in which a put publishes its own bytes, no
acknowledged update is undone. -/
theorem updates_not_undone (reached : ReachWithin engineMachine raceGuard s) : NotUndone s := by
  have inv : RaceInv s := by
    apply reached.invariant RaceInv
    · intro start initial
      exact engine_start_race initial
    · intro before label after inv allowed moved
      exact engine_race inv allowed (engine_cases moved)
  intro d member ok _ entry put returned found isOrigin acked
  have settled : Settled s d.update := .inr ⟨d, member, rfl, ok⟩
  have atMost := inv.entries _ entry found put returned isOrigin acked d.update settled rfl
  omega

end Runs

/-! ## A key that comes back after its delete -/

def raceCheck (s : EngineSystem) : EngineLabel → Bool
  | .step t _ =>
      match s.threads t with
      | .evict _ (.upsert victim _ _ version _) => s.history.version victim == version
      | .publishT1 put ptr =>
          s.history.done.all fun d => some d.update !=
            s.history.slotOrigin (Engine.t1Entry put.blob put.opts put.times ptr).address.toNat
      | _ => true
  | _ => true

theorem race_check_sound {s : EngineSystem} {label : EngineLabel} (checked : raceCheck s label = true) :
    raceGuard s label := by
  cases label with
  | put | get | del | flush => trivial
  | step t io =>
      constructor
      · intro put victim entry loc version origin here
        simp only [raceCheck, here, beq_iff_eq] at checked
        exact .inl checked
      · rintro put ptr here source returned isOrigin ⟨d, member, same, _⟩
        simp only [raceCheck, here, isOrigin, List.all_eq_true, bne_iff_ne] at checked
        exact checked d member (congrArg some same)

def expensive : PutOpts := { entryType := .kSystemPrompt, recomputeCost := 100 }

theorem updates_not_undone_after_eviction :
    ((last engineMachine tieredThreads
        (.put 0 probeKey [7] expensive 0 0 :: List.replicate 13 (.step 0 {}))).engine.index.find
          probeKey).any (fun entry => entry.tier == kT2Nvme) = true ∧
    NotUndone (last engineMachine tieredThreads
        (.put 0 probeKey [7] expensive 0 0 :: List.replicate 13 (.step 0 {}))) := by
  have reached : ReachWithin engineMachine raceGuard (last engineMachine tieredThreads
      (.put 0 probeKey [7] expensive 0 0 :: List.replicate 13 (.step 0 {}))) := by
    apply ReachWithin.to_last (fun _ => True) raceCheck
    · intro state label _ checked
      exact race_check_sound checked
    · intro _ _ _ _ _ _
      trivial
    · exact .start tiered_threads_started
    · trivial
    · decide +kernel
  exact ⟨by decide +kernel, updates_not_undone reached⟩

/-! A cache of two slots above a blob store of one block. -/

def twoSlotConfig : Config where
  dramCache := { sizeBytes := 128, sizeClasses := [64] }
  nvmeStore := singleBlockConfig

def twoSlotAllocator : SlabAllocator where
  classes := [{ slotSize := 64, numSlots := 2, base := 4096, freeList := [1, 0] }]
  totalBytes := 128

def twoSlotThreads : EngineSystem where
  engine := { tieredEngine with config := twoSlotConfig, t1Allocator := some twoSlotAllocator }

theorem two_slot_threads_started : engineMachine.start twoSlotThreads := by
  refine ⟨twoSlotConfig, slabOpenIo, rfl, ?_, rfl⟩
  rintro a ⟨⟩
  exact single_class_backed _ (by decide) (by decide)

/-- Thread 0 puts a key. Thread 1 puts another one, fills the cache and picks
the first key as its victim; between its lookup and its upsert thread 0 deletes
that key. -/
def resurrectionSteps : List EngineLabel :=
  .put 0 otherKey [9] expensive 0 0 :: List.replicate 6 (.step 0 {}) ++
    .put 1 probeKey [7] expensive 0 0 :: List.replicate 9 (.step 1 {}) ++
    .del 0 otherKey :: List.replicate 5 (.step 0 {}) ++ [.step 1 {}]

theorem eviction_resurrects_key :
    Reach engineMachine (last engineMachine twoSlotThreads resurrectionSteps) ∧
      ¬NotUndone (last engineMachine twoSlotThreads resurrectionSteps) := by
  refine ⟨Reach.to_last (.start two_slot_threads_started) resurrectionSteps (by decide +kernel), ?_⟩
  intro undone
  have deleted : ⟨⟨otherKey, 3⟩, false, 4, .kOk⟩ ∈
      (last engineMachine twoSlotThreads resurrectionSteps).history.done := by
    decide +kernel
  have acked : ⟨⟨otherKey, 0⟩, true, 1, .kOk⟩ ∈
      (last engineMachine twoSlotThreads resurrectionSteps).history.done := by
    decide +kernel
  have found : ((last engineMachine twoSlotThreads resurrectionSteps).engine.index.find otherKey).any
      (fun entry => entryOrigin (last engineMachine twoSlotThreads resurrectionSteps) otherKey entry ==
        some ⟨otherKey, 0⟩) = true := by
    decide +kernel
  rcases (Option.any_eq_true _ _).1 found with ⟨entry, isFound, isOrigin⟩
  rw [beq_iff_eq] at isOrigin
  refine undone _ deleted rfl ?_ entry ⟨otherKey, 0⟩ 1 isFound isOrigin
    ⟨_, acked, rfl, rfl, rfl, rfl, rfl⟩ (by decide)
  decide +kernel

end AttentionDB
