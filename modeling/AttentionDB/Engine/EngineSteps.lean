import AttentionDB.Engine.BlobStoreCalls

/-!
# What the calls of the engine do

One inversion lemma for each call: `put`, `get` and `del` end in one of a few
ways, and each way names the entry it published or removed, the slot it took or
released and the blob store call it made. The eviction that a put runs is a row
of rounds, so what every round keeps is kept by the put.
-/

namespace AttentionDB

open ByteMap BlobStore

set_option autoImplicit false

namespace Engine

variable {e after : Engine}

/-! ## Eviction -/

inductive EvictRound (e : Engine) (io : EvictIo) : Engine → Prop where
  | skipped (t1Eviction : CwSlru) : EvictRound e io { e with t1Eviction }
  | dropped (t1Eviction : CwSlru) (victim : StorageKey) (entry : IndexEntry)
      (found : e.index.find victim = some entry) (inT1 : entry.tier = kT1Dram)
      (cold : e.t2Store = none ∨ entry.recomputeCost < e.config.admission.minRecomputeCost) :
      EvictRound e io
        ({ e with t1Eviction, index := e.index.erase victim }.freeT1 entry.address.toNat)
  | refused (t1Eviction : CwSlru) (victim : StorageKey) (entry : IndexEntry)
      (found : e.index.find victim = some entry) (inT1 : entry.tier = kT1Dram)
      (t2 t2After : T2) (status : Status) (loc : BlobLocation) (isStore : e.t2Store = some t2)
      (ran : t2.write
        { key := victim
          data := slice e.memory entry.address.toNat entry.length.toNat
          checksum := entry.checksum } io.t2 = some ((status, loc), t2After))
      (bad : status ≠ .kOk) :
      EvictRound e io
        ({ e with
          t1Eviction
          t2Store := some t2After
          index := e.index.erase victim }.freeT1 entry.address.toNat)
  | demoted (t1Eviction t2Eviction : CwSlru) (victim : StorageKey) (entry : IndexEntry)
      (found : e.index.find victim = some entry) (inT1 : entry.tier = kT1Dram)
      (t2 t2After : T2) (loc : BlobLocation) (isStore : e.t2Store = some t2)
      (ran : t2.write
        { key := victim
          data := slice e.memory entry.address.toNat entry.length.toNat
          checksum := entry.checksum } io.t2 = some ((.kOk, loc), t2After)) :
      EvictRound e io
        ({ e with
          t1Eviction
          t2Eviction
          t2Store := some t2After
          index := e.index.upsert victim (demotedEntry entry loc) }.freeT1 entry.address.toNat)

def victimRequest (e : Engine) (victim : StorageKey) (entry : IndexEntry) : WriteRequest :=
  { key := victim
    data := slice e.memory entry.address.toNat entry.length.toNat
    checksum := entry.checksum }

/-- A round by the victim it was given, with the tracker that is left. -/
inductive VictimRound (e : Engine) (io : EvictIo) (victim : StorageKey) (t1Eviction : CwSlru) :
    Engine → Prop where
  | skipped (notInT1 : ∀ entry, e.index.find victim = some entry → entry.tier ≠ kT1Dram) :
      VictimRound e io victim t1Eviction { e with t1Eviction }
  | dropped (entry : IndexEntry) (found : e.index.find victim = some entry)
      (inT1 : entry.tier = kT1Dram)
      (cold : e.t2Store = none ∨ entry.recomputeCost < e.config.admission.minRecomputeCost) :
      VictimRound e io victim t1Eviction
        ({ e with t1Eviction, index := e.index.erase victim }.freeT1 entry.address.toNat)
  | refused (entry : IndexEntry) (found : e.index.find victim = some entry)
      (inT1 : entry.tier = kT1Dram)
      (warm : e.config.admission.minRecomputeCost ≤ entry.recomputeCost)
      (t2 t2After : T2) (status : Status) (loc : BlobLocation) (isStore : e.t2Store = some t2)
      (ran : t2.write (e.victimRequest victim entry) io.t2 = some ((status, loc), t2After))
      (bad : status ≠ .kOk) :
      VictimRound e io victim t1Eviction
        ({ e with
          t1Eviction
          t2Store := some t2After
          index := e.index.erase victim }.freeT1 entry.address.toNat)
  | demoted (entry : IndexEntry) (found : e.index.find victim = some entry)
      (inT1 : entry.tier = kT1Dram)
      (warm : e.config.admission.minRecomputeCost ≤ entry.recomputeCost)
      (t2 t2After : T2) (loc : BlobLocation) (isStore : e.t2Store = some t2)
      (ran : t2.write (e.victimRequest victim entry) io.t2 = some ((.kOk, loc), t2After)) :
      VictimRound e io victim t1Eviction
        ({ e with
          t1Eviction
          t2Eviction :=
            e.t2Eviction.onInsert victim entry.recomputeCost victim.chunkIndex io.now
          t2Store := some t2After
          index := e.index.upsert victim (demotedEntry entry loc) }.freeT1 entry.address.toNat)

theorem victim_round {t1Eviction : CwSlru} {victim : StorageKey} {io : EvictIo}
    (ran : ({ e with t1Eviction } : Engine).evictVictim victim io = some after) :
    VictimRound e io victim t1Eviction after := by
  unfold evictVictim at ran
  split at ran
  · rename_i absent
    cases ran
    apply VictimRound.skipped
    intro entry found
    rw [found] at absent
    contradiction
  · rename_i entry found
    split at ran
    · rename_i inT1
      simp only [evictEntry] at ran
      split at ran
      · rename_i noStore
        cases ran
        exact VictimRound.dropped (e := e) entry found inT1 (.inl noStore)
      · rename_i t2 isStore
        split at ran
        · rename_i cold
          cases ran
          exact VictimRound.dropped (e := e) entry found inT1 (.inr cold)
        · rename_i warm
          have warm := UInt32.not_lt.1 warm
          split at ran
          · contradiction
          · rename_i status loc t2After written
            split at ran
            · rename_i ok
              cases ran
              subst ok
              exact VictimRound.demoted (e := e) entry found inT1 warm t2 t2After loc isStore written
            · rename_i bad
              cases ran
              exact VictimRound.refused (e := e) entry found inT1 warm t2 t2After status loc isStore
                written bad
    · rename_i notInT1
      cases ran
      apply VictimRound.skipped
      intro other isOther
      rw [found] at isOther
      cases isOther
      exact notInT1

theorem VictimRound.toRound {t1Eviction : CwSlru} {victim : StorageKey} {io : EvictIo}
    (round : VictimRound e io victim t1Eviction after) : EvictRound e io after := by
  cases round with
  | skipped => exact .skipped t1Eviction
  | dropped entry found inT1 cold => exact .dropped t1Eviction victim entry found inT1 cold
  | refused entry found inT1 warm t2 t2After status loc isStore ran bad =>
      exact .refused t1Eviction victim entry found inT1 t2 t2After status loc isStore ran bad
  | demoted entry found inT1 warm t2 t2After loc isStore ran =>
      exact .demoted t1Eviction _ victim entry found inT1 t2 t2After loc isStore ran

theorem evict_victim_round {t1Eviction : CwSlru} {victim : StorageKey} {io : EvictIo}
    (ran : ({ e with t1Eviction } : Engine).evictVictim victim io = some after) :
    EvictRound e io after :=
  (victim_round ran).toRound

inductive EvictRun (io : Nat → EvictIo) : Engine → Engine → Prop where
  | done (e : Engine) : EvictRun io e e
  | round {e middle after : Engine} (i : Nat) (first : EvictRound e (io i) middle)
      (rest : EvictRun io middle after) : EvictRun io e after

theorem evict_loop_run {io : Nat → EvictIo} {fuel round : Nat}
    (ran : evictLoop io fuel round e = some after) : EvictRun io e after := by
  induction fuel generalizing e round with
  | zero =>
      cases ran
      exact .done _
  | succ fuel ih =>
      simp only [evictLoop] at ran
      split at ran
      · split at ran
        · cases ran
          exact .done _
        · split at ran
          · contradiction
          · rename_i middle evicted
            exact .round round (evict_victim_round evicted) (ih ran)
      · cases ran
        exact .done _

/-- What every round keeps, the whole eviction keeps. -/
theorem EvictRun.keeps {io : Nat → EvictIo} (inv : Engine → Prop)
    (keep : ∀ e i after, inv e → EvictRound e (io i) after → inv after)
    (run : EvictRun io e after) (before : inv e) : inv after := by
  induction run with
  | done e => exact before
  | round i first rest ih => exact ih (keep _ i _ before first)

/-! ## Put -/

def t1Entry (blob : List UInt8) (opts : PutOpts) (io : PutIo) (ptr : Nat) : IndexEntry :=
  { newEntry blob opts io with tier := kT1Dram, address := UInt64.ofNat ptr, segmentId := 0 }

def t2Entry (blob : List UInt8) (opts : PutOpts) (io : PutIo) (loc : BlobLocation) : IndexEntry :=
  { newEntry blob opts io with
    tier := kT2Nvme
    address := UInt64.ofNat loc.offset
    segmentId := UInt32.ofNat loc.segmentId }

/-- The blob passes admission and its length fits the index entry. -/
def Accepted (e : Engine) (blob : List UInt8) (opts : PutOpts) : Prop :=
  AdmissionControl.evaluate e.admission.config opts e.storageUtilization = .kAdmit ∧
    blob.length < 2 ^ 32

/-- The ways a put ends: turned away with nothing but counters changed, refused
by the blob store, or stored in one of the tiers with eviction after it. -/
inductive PutCases (e : Engine) (key : StorageKey) (blob : List UInt8) (opts : PutOpts)
    (io : PutIo) : Status → Engine → Prop where
  | rejected (status : Status) (admission : AdmissionControl) (bad : status ≠ .kOk) :
      PutCases e key blob opts io status { e with admission }
  | refused (status : Status) (admission : AdmissionControl) (t2 t2After : T2)
      (loc : BlobLocation) (isStore : e.t2Store = some t2)
      (ran : t2.write { key, data := blob, checksum := computeCrc32 blob } io.t2 =
        some ((status, loc), t2After))
      (bad : status ≠ .kOk) :
      PutCases e key blob opts io status { e with admission, t2Store := some t2After }
  | storedT1 {after : Engine} (admission : AdmissionControl) (t1Eviction : CwSlru)
      (a allocator : SlabAllocator) (handle : SlabHandle) (ptr : Nat)
      (accepted : Accepted e blob opts) (isAllocator : e.t1Allocator = some a)
      (allocated : a.allocate blob.length = some (handle, ptr, allocator))
      (run : EvictRun io.evictions
        { e with
          admission
          t1Eviction
          t1Allocator := some allocator
          memory := patch e.memory ptr blob
          index := e.index.upsert key (t1Entry blob opts io ptr) } after) :
      PutCases e key blob opts io .kOk after
  | storedT2 {after : Engine} (admission : AdmissionControl) (t2Eviction : CwSlru)
      (t2 t2After : T2) (loc : BlobLocation)
      (accepted : Accepted e blob opts) (full : e.allocateT1 blob = none)
      (isStore : e.t2Store = some t2)
      (ran : t2.write { key, data := blob, checksum := computeCrc32 blob } io.t2 =
        some ((.kOk, loc), t2After))
      (run : EvictRun io.evictions
        { e with
          admission
          t2Eviction
          t2Store := some t2After
          index := e.index.upsert key (t2Entry blob opts io loc) } after) :
      PutCases e key blob opts io .kOk after

inductive Stored (e : Engine) (key : StorageKey) (blob : List UInt8) (opts : PutOpts)
    (io : PutIo) : Engine → Prop where
  | inT1 (admission : AdmissionControl) (a allocator : SlabAllocator) (handle : SlabHandle)
      (ptr : Nat) (accepted : Accepted e blob opts) (isAllocator : e.t1Allocator = some a)
      (allocated : a.allocate blob.length = some (handle, ptr, allocator)) :
      Stored e key blob opts io
        { e with
          admission
          t1Eviction := e.t1Eviction.onInsert key opts.recomputeCost key.chunkIndex io.now
          t1Allocator := some allocator
          memory := patch e.memory ptr blob
          index := e.index.upsert key (t1Entry blob opts io ptr) }
  | inT2 (admission : AdmissionControl) (t2 t2After : T2) (loc : BlobLocation)
      (accepted : Accepted e blob opts) (full : e.allocateT1 blob = none)
      (isStore : e.t2Store = some t2)
      (ran : t2.write { key, data := blob, checksum := computeCrc32 blob } io.t2 =
        some ((.kOk, loc), t2After)) :
      Stored e key blob opts io
        { e with
          admission
          t2Eviction := e.t2Eviction.onInsert key opts.recomputeCost key.chunkIndex io.now
          t2Store := some t2After
          index := e.index.upsert key (t2Entry blob opts io loc) }

/-- The ways a put ends, with the state in which its eviction pass starts. -/
inductive PutSteps (e : Engine) (key : StorageKey) (blob : List UInt8) (opts : PutOpts)
    (io : PutIo) : Status → Engine → Prop where
  | rejected (status : Status) (admission : AdmissionControl) (bad : status ≠ .kOk) :
      PutSteps e key blob opts io status { e with admission }
  | refused (status : Status) (admission : AdmissionControl) (t2 t2After : T2)
      (loc : BlobLocation) (accepted : Accepted e blob opts) (full : e.allocateT1 blob = none)
      (isStore : e.t2Store = some t2)
      (ran : t2.write { key, data := blob, checksum := computeCrc32 blob } io.t2 =
        some ((status, loc), t2After))
      (bad : status ≠ .kOk) :
      PutSteps e key blob opts io status { e with admission, t2Store := some t2After }
  | stored {after : Engine} (placed : Engine) (stored : Stored e key blob opts io placed)
      (evicted : placed.evictIfNeeded io.evictions = some after) :
      PutSteps e key blob opts io .kOk after

theorem publish_steps {key : StorageKey} {entry : IndexEntry} {io : PutIo} {status : Status}
    (ran : e.publish key entry io = some (status, after)) :
    status = .kOk ∧
      { e with index := e.index.upsert key entry }.evictIfNeeded io.evictions = some after := by
  simp only [publish, Option.map_eq_some_iff, Prod.mk.injEq] at ran
  rcases ran with ⟨engine, evicted, rfl, rfl⟩
  exact ⟨rfl, evicted⟩

theorem put_steps {key : StorageKey} {blob : List UInt8} {opts : PutOpts} {io : PutIo}
    {status : Status} (ran : e.put key blob opts io = some (status, after)) :
    PutSteps e key blob opts io status after := by
  simp only [put] at ran
  split at ran
  · cases ran
    exact .rejected _ _ (by decide)
  · rename_i admitted
    push Not at admitted
    split at ran
    · cases ran
      exact .rejected _ _ (by decide)
    · rename_i short
      have accepted : Accepted e blob opts := ⟨admitted, by omega⟩
      split at ran
      · rename_i handle ptr allocator allocation
        simp only [allocateT1, Option.bind_eq_some_iff] at allocation
        rcases allocation with ⟨a, isAllocator, allocated⟩
        rcases publish_steps ran with ⟨rfl, evicted⟩
        exact .stored _ (.inT1 _ a allocator handle ptr accepted isAllocator allocated) evicted
      · rename_i full
        simp only [storeT2] at ran
        split at ran
        · cases ran
          exact .rejected _ _ (by decide)
        · rename_i t2 isStore
          split at ran
          · contradiction
          · rename_i status loc t2After written
            split at ran
            · rename_i ok
              subst ok
              rcases publish_steps ran with ⟨rfl, evicted⟩
              exact .stored _ (.inT2 _ t2 t2After loc accepted full isStore written) evicted
            · rename_i bad
              cases ran
              exact .refused _ _ t2 t2After loc accepted full isStore written bad

theorem put_cases {key : StorageKey} {blob : List UInt8} {opts : PutOpts} {io : PutIo}
    {status : Status} (ran : e.put key blob opts io = some (status, after)) :
    PutCases e key blob opts io status after := by
  cases put_steps ran with
  | rejected status admission bad => exact .rejected status admission bad
  | refused status admission t2 t2After loc accepted full isStore written bad =>
      exact .refused status admission t2 t2After loc isStore written bad
  | stored placed stored evicted =>
      have run := evict_loop_run evicted
      cases stored with
      | inT1 admission a allocator handle ptr accepted isAllocator allocated =>
          exact .storedT1 admission _ a allocator handle ptr accepted isAllocator allocated run
      | inT2 admission t2 t2After loc accepted full isStore written =>
          exact .storedT2 admission _ t2 t2After loc accepted full isStore written run

/-! ## Get and delete -/

inductive GetCases (e : Engine) (key : StorageKey) (bufLen : Nat) (io : GetIo) :
    ReadReply → Engine → Prop where
  | missed (reply : ReadReply) (bad : reply.status ≠ .kOk) : GetCases e key bufLen io reply e
  | fromT1 (entry : IndexEntry) (t1Eviction : CwSlru) (found : e.index.find key = some entry)
      (inT1 : entry.tier = kT1Dram) :
      GetCases e key bufLen io
        { status := .kOk, bytes := slice e.memory entry.address.toNat entry.length.toNat }
        ({ e with t1Eviction }.touchEntry key io.touchedAt)
  | fromT2 (reply : ReadReply) (entry : IndexEntry) (t2Eviction : CwSlru) (t2 t2After : T2)
      (found : e.index.find key = some entry) (inT2 : entry.tier = kT2Nvme)
      (isStore : e.t2Store = some t2)
      (ran : t2.read (entryLocation entry) bufLen io.first io.second = some (reply, t2After)) :
      GetCases e key bufLen io reply
        ({ e with t2Eviction, t2Store := some t2After }.touchEntry key io.touchedAt)
  | nowhere (reply : ReadReply) (bad : reply.status ≠ .kOk) :
      GetCases e key bufLen io reply (e.touchEntry key io.touchedAt)

theorem get_cases {key : StorageKey} {bufLen : Nat} {io : GetIo} {reply : ReadReply}
    (ran : e.get key bufLen io = some (reply, after)) : GetCases e key bufLen io reply after := by
  unfold get at ran
  split at ran
  · cases ran
    exact .missed _ (by decide)
  · rename_i entry found
    split at ran
    · rename_i enabled
      split at ran
      · cases ran
        exact .missed _ (by decide)
      · cases ran
        exact .fromT1 entry _ found enabled.1
    · split at ran
      · rename_i t2 isStore
        split at ran
        · rename_i inT2
          split at ran
          · contradiction
          · rename_i reply t2After read
            cases ran
            exact .fromT2 reply entry _ t2 t2After found inT2 isStore read
        · cases ran
          exact .nowhere _ (by decide)
      · cases ran
        exact .nowhere _ (by decide)

/-- A get of a T2 entry is a read of its location. -/
theorem get_t2 {key : StorageKey} {entry : IndexEntry} {t2 : T2} {bufLen : Nat} {io : GetIo}
    {reply : ReadReply} (found : e.index.find key = some entry) (inT2 : entry.tier = kT2Nvme)
    (isStore : e.t2Store = some t2) (got : e.get key bufLen io = some (reply, after)) :
    ∃ t2After, t2.read (entryLocation entry) bufLen io.first io.second = some (reply, t2After) := by
  have notInT1 : ¬(entry.tier = kT1Dram ∧ e.t1Allocator.isSome = true) := by
    rw [inT2]
    rintro ⟨same, _⟩
    cases same
  unfold get at got
  rw [found] at got
  dsimp only at got
  rw [if_neg notInT1, isStore] at got
  dsimp only at got
  rw [if_pos inT2] at got
  split at got
  · contradiction
  · rename_i answer t2After ran
    cases got
    exact ⟨t2After, ran⟩

inductive Notified (s : CwSlru) : CwSlru → Prop where
  | same : Notified s s
  | accessed (key : StorageKey) (recomputeCost : UInt32) (now : Nat) :
      Notified s (s.onAccess key recomputeCost now)

/-- What a get may change besides the blob store. -/
structure GetFrame (e after : Engine) : Prop where
  t1Eviction : Notified e.t1Eviction after.t1Eviction
  t2Eviction : Notified e.t2Eviction after.t2Eviction
  t1Allocator : after.t1Allocator = e.t1Allocator
  memory : after.memory = e.memory
  index : after.index = e.index ∨ ∃ key now, after.index = e.index.updateFn key (·.touch now)

theorem get_frame {key : StorageKey} {bufLen : Nat} {io : GetIo} {reply : ReadReply}
    (ran : e.get key bufLen io = some (reply, after)) : GetFrame e after := by
  have unnotified : GetFrame e (e.touchEntry key io.touchedAt) :=
    { t1Eviction := .same
      t2Eviction := .same
      t1Allocator := rfl
      memory := rfl
      index := .inr ⟨key, io.touchedAt, rfl⟩ }
  have unchanged : GetFrame e e :=
    { t1Eviction := .same, t2Eviction := .same, t1Allocator := rfl, memory := rfl, index := .inl rfl }
  unfold get at ran
  split at ran
  · cases ran
    exact unchanged
  · rename_i entry found
    split at ran
    · split at ran
      · cases ran
        exact unchanged
      · cases ran
        exact { unnotified with t1Eviction := .accessed key entry.recomputeCost io.now }
    · split at ran
      · split at ran
        · split at ran
          · contradiction
          · rename_i reply t2After read
            cases ran
            refine { unnotified with t2Eviction := ?_ }
            by_cases ok : reply.status = .kOk
            · simp only [touchEntry, if_pos ok]
              exact .accessed key entry.recomputeCost io.now
            · simp only [touchEntry, if_neg ok]
              exact .same
        · cases ran
          exact unnotified
      · cases ran
        exact unnotified

/-- A delete that found its key removes it everywhere. -/
theorem del_trackers (e : Engine) (key : StorageKey) :
    e.del key = (.kNotFound, e) ∨
      (e.del key).2.t1Eviction = e.t1Eviction.onRemove key ∧
        (e.del key).2.t2Eviction = e.t2Eviction.onRemove key ∧
        (e.del key).2.index = e.index.erase key := by
  unfold del
  split
  · exact .inl rfl
  · right
    simp only
    split_ifs <;> exact ⟨rfl, rfl, rfl⟩

inductive DelCases (e : Engine) (key : StorageKey) : Status → Engine → Prop where
  | missed (absent : e.index.find key = none) : DelCases e key .kNotFound e
  | fromT1 (entry : IndexEntry) (t1Eviction t2Eviction : CwSlru)
      (found : e.index.find key = some entry) (inT1 : entry.tier = kT1Dram) :
      DelCases e key .kOk
        ({ e with t1Eviction, t2Eviction, index := e.index.erase key }.freeT1 entry.address.toNat)
  | fromT2 (entry : IndexEntry) (t1Eviction t2Eviction : CwSlru) (t2 : T2)
      (found : e.index.find key = some entry) (inT2 : entry.tier = kT2Nvme)
      (isStore : e.t2Store = some t2) :
      DelCases e key .kOk
        { e with
          t1Eviction
          t2Eviction
          t2Store := some (t2.markDead (entryLocation entry))
          index := e.index.erase key }
  | fromNowhere (entry : IndexEntry) (t1Eviction t2Eviction : CwSlru)
      (found : e.index.find key = some entry) (notInT1 : entry.tier ≠ kT1Dram) :
      DelCases e key .kOk { e with t1Eviction, t2Eviction, index := e.index.erase key }

theorem del_cases (e : Engine) (key : StorageKey) : DelCases e key (e.del key).1 (e.del key).2 := by
  unfold del
  cases found : e.index.find key with
  | none => exact .missed found
  | some entry =>
      by_cases inT1 : entry.tier = kT1Dram
      · have notInT2 : entry.tier ≠ kT2Nvme := by
          rw [inT1]
          decide
        simp only [if_pos inT1, if_neg notInT2]
        exact .fromT1 entry _ _ found inT1
      · by_cases inT2 : entry.tier = kT2Nvme
        · simp only [if_neg inT1, if_pos inT2]
          cases isStore : e.t2Store with
          | none =>
              have gone : DelCases e key .kOk { e with
                  t1Eviction := e.t1Eviction.onRemove key
                  t2Eviction := e.t2Eviction.onRemove key
                  index := e.index.erase key } := .fromNowhere entry _ _ found inT1
              rw [isStore] at gone
              exact gone
          | some t2 => exact .fromT2 entry _ _ t2 found inT2 isStore
        · simp only [if_neg inT1, if_neg inT2]
          exact .fromNowhere entry _ _ found inT1

/-! ## What no call takes back -/

/-- The tiers stay enabled or disabled, and the blob store only moves on. -/
structure Later (e after : Engine) : Prop where
  config : after.config = e.config
  t1 : after.t1Allocator.isSome = e.t1Allocator.isSome
  t2Enabled : after.t2Store.isSome = e.t2Store.isSome
  t2 : ∀ t2After, after.t2Store = some t2After → ∃ t2, e.t2Store = some t2 ∧ T2.Later t2 t2After

theorem Later.refl (e : Engine) : Later e e where
  config := rfl
  t1 := rfl
  t2Enabled := rfl
  t2 t2 isStore := ⟨t2, isStore, T2.Later.refl t2⟩

theorem Later.trans {middle : Engine} (first : Later e middle) (second : Later middle after) :
    Later e after where
  config := second.config.trans first.config
  t1 := second.t1.trans first.t1
  t2Enabled := second.t2Enabled.trans first.t2Enabled
  t2 := by
    intro t2After isStore
    rcases second.t2 t2After isStore with ⟨t2Middle, isMiddle, laterMiddle⟩
    rcases first.t2 t2Middle isMiddle with ⟨t2, isFirst, later⟩
    exact ⟨t2, isFirst, later.trans laterMiddle⟩

/-- A step that leaves the blob store alone. -/
theorem later_same_store (config : after.config = e.config)
    (t1 : after.t1Allocator.isSome = e.t1Allocator.isSome) (t2 : after.t2Store = e.t2Store) :
    Later e after where
  config := config
  t1 := t1
  t2Enabled := by rw [t2]
  t2 store isStore := ⟨store, t2 ▸ isStore, T2.Later.refl store⟩

theorem later_new_store {t2 t2After : T2} (config : after.config = e.config)
    (t1 : after.t1Allocator.isSome = e.t1Allocator.isSome) (isStore : e.t2Store = some t2)
    (isAfter : after.t2Store = some t2After) (later : T2.Later t2 t2After) : Later e after where
  config := config
  t1 := t1
  t2Enabled := by rw [isStore, isAfter]; rfl
  t2 := by
    intro other isOther
    rw [isAfter] at isOther
    cases isOther
    exact ⟨t2, isStore, later⟩

@[simp] theorem free_t1_some (e : Engine) (ptr : Nat) :
    (e.freeT1 ptr).t1Allocator.isSome = e.t1Allocator.isSome := by
  simp [freeT1]

theorem evict_round_later {io : EvictIo} (round : EvictRound e io after) : Later e after := by
  cases round with
  | skipped => exact later_same_store rfl rfl rfl
  | dropped => exact later_same_store rfl (by simp) rfl
  | refused t1Eviction victim entry found inT1 t2 t2After status loc isStore ran bad =>
      exact later_new_store rfl (by simp) isStore rfl (T2.write_written ran).1.later
  | demoted t1Eviction t2Eviction victim entry found inT1 t2 t2After loc isStore ran =>
      exact later_new_store rfl (by simp) isStore rfl (T2.write_written ran).1.later

theorem evict_run_later {io : Nat → EvictIo} (run : EvictRun io e after) : Later e after :=
  run.keeps (Later e) (fun _ _ _ before round => before.trans (evict_round_later round))
    (Later.refl e)

/-- What every round keeps under a bound on the last state that earlier states
inherit, the whole eviction keeps. -/
theorem EvictRun.keeps_under {io : Nat → EvictIo} (bound inv : Engine → Prop)
    (earlier : ∀ e after, Later e after → bound after → bound e)
    (keep : ∀ e i after, bound after → inv e → EvictRound e (io i) after → inv after)
    (run : EvictRun io e after) (bounded : bound after) (before : inv e) : inv after := by
  induction run with
  | done e => exact before
  | round i first rest ih =>
      have between := earlier _ _ (evict_run_later rest) bounded
      exact ih bounded (keep _ i _ between before first)

theorem put_later {key : StorageKey} {blob : List UInt8} {opts : PutOpts} {io : PutIo}
    {status : Status} (cases : PutCases e key blob opts io status after) : Later e after := by
  cases cases with
  | rejected => exact later_same_store rfl rfl rfl
  | refused status admission t2 t2After loc isStore ran bad =>
      exact later_new_store rfl rfl isStore rfl (T2.write_written ran).1.later
  | storedT1 admission t1Eviction a allocator handle ptr accepted isAllocator allocated run =>
      apply Later.trans _ (evict_run_later run)
      exact later_same_store rfl (by simp [isAllocator]) rfl
  | storedT2 admission t2Eviction t2 t2After loc accepted full isStore ran run =>
      apply Later.trans _ (evict_run_later run)
      exact later_new_store rfl rfl isStore rfl (T2.write_written ran).1.later

theorem get_later {key : StorageKey} {bufLen : Nat} {io : GetIo} {reply : ReadReply}
    (cases : GetCases e key bufLen io reply after) : Later e after := by
  cases cases with
  | missed => exact Later.refl e
  | fromT1 | nowhere => exact later_same_store rfl rfl rfl
  | fromT2 reply entry t2Eviction t2 t2After found inT2 isStore ran =>
      exact later_new_store rfl rfl isStore rfl (T2.read_later ran)

theorem del_later {key : StorageKey} {status : Status} (cases : DelCases e key status after) :
    Later e after := by
  cases cases with
  | missed => exact Later.refl e
  | fromT1 => exact later_same_store rfl (by simp) rfl
  | fromT2 entry t1Eviction t2Eviction t2 found inT2 isStore =>
      exact later_new_store rfl rfl isStore rfl (T2.mark_dead_later t2 _)
  | fromNowhere => exact later_same_store rfl rfl rfl

end Engine

end AttentionDB
