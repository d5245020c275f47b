import AttentionDB.Engine.ContainsGet
import AttentionDB.Lib.LossyMap

/-!
# The engine as a map that forgets

Tiers, slots, write blocks and demotion are invisible to a client. Its calls
are those of a map from keys to blobs in which a put may forget other keys, and
nothing else changes the map. While the blob store refuses nothing, only blobs
below the admission cost are forgotten. The contents at any time are the latest
puts of the keys that the index still has.
-/

namespace AttentionDB

open GuardedRuns BlobStore LossyMaps

set_option autoImplicit false

structure GetAnswer where
  bufLen : Nat
  reply : ReadReply
  deriving DecidableEq

def Call.event : Call → CacheEvent StorageKey PutRecord GetAnswer
  | .put key blob opts status =>
      if status = .kOk then .stored key { blob, opts } else .turnedAway key { blob, opts }
  | .get key bufLen reply => .answered key { bufLen, reply }
  | .del key status => if status = .kOk then .removed key else .absent key

/-- The right answers of a get. An empty blob may be missed once it is on disk. -/
def cacheAnswers : Option PutRecord → GetAnswer → Prop
  | none, answer => answer.reply = { status := .kNotFound }
  | some record, answer =>
      answer.reply = replyFor record.blob answer.bufLen ∨
        record.blob = [] ∧ answer.reply = { status := .kNotFound }

/-- Expensive blobs are durable while `kept` holds. -/
def cachePolicy (minRecomputeCost : UInt32) (kept : Prop) : CachePolicy PutRecord GetAnswer where
  durable record := kept ∧ minRecomputeCost ≤ record.opts.recomputeCost
  answers := cacheAnswers

def Session.contents (session : Session) (key : StorageKey) : Option PutRecord :=
  (session.engine.index.find key).bind fun _ => latest session.log key

def allIoGuard (session : Session) (label : SessionLabel) : Prop :=
  ioSucceedsGuard session label ∧
    match label with
    | .get _ _ io => io.first.readOk = true ∧ io.second.readOk = true
    | _ => True

namespace Engine

variable {e after : Engine} {view : StorageKey → Option PutRecord} {key : StorageKey}

/-! ## No key comes back by itself -/

theorem evict_round_keys {io : EvictIo} (round : EvictRound e io after)
    (present : after.index.find key ≠ none) : e.index.find key ≠ none := by
  have erased : ∀ victim, (e.index.erase victim).find key ≠ none → e.index.find key ≠ none := by
    intro victim present
    rw [ConcurrentHashMap.find_erase] at present
    split at present
    · contradiction
    · exact present
  cases round with
  | skipped => exact present
  | dropped t1Eviction victim => exact erased victim present
  | refused t1Eviction victim => exact erased victim present
  | demoted t1Eviction t2Eviction victim entry found =>
      have here : (e.index.upsert victim (demotedEntry entry _)).find key ≠ none := present
      rw [ConcurrentHashMap.find_upsert] at here
      split at here
      · rename_i same
        rw [same, found]
        exact Option.some_ne_none _
      · exact here

theorem evict_run_keys {io : Nat → EvictIo} (run : EvictRun io e after)
    (present : after.index.find key ≠ none) : e.index.find key ≠ none := by
  have keeps := run.keeps (fun other => other.index.find key ≠ none → e.index.find key ≠ none)
    (fun _ _ _ before round present => before (evict_round_keys round present)) id
  exact keeps present

/-- A put adds its own key only, and does not touch the index unless it
returns `kOk`. -/
theorem put_keys (key : StorageKey) {stored : StorageKey} {blob : List UInt8} {opts : PutOpts}
    {io : PutIo} {status : Status} (cases : PutCases e stored blob opts io status after) :
    (status ≠ .kOk → after.index = e.index) ∧
      (after.index.find key ≠ none → key = stored ∨ e.index.find key ≠ none) := by
  have added : ∀ entry, (e.index.upsert stored entry).find key ≠ none →
      key = stored ∨ e.index.find key ≠ none := by
    intro entry present
    rw [ConcurrentHashMap.find_upsert] at present
    split at present
    · rename_i same
      exact .inl same
    · exact .inr present
  cases cases with
  | rejected | refused => exact ⟨fun _ => rfl, .inr⟩
  | storedT1 admission t1Eviction a allocator handle ptr accepted isAllocator allocated run =>
      exact ⟨fun bad => absurd rfl bad, fun present => added _ (evict_run_keys run present)⟩
  | storedT2 admission t2Eviction t2 t2After loc accepted full isStore ran run =>
      exact ⟨fun bad => absurd rfl bad, fun present => added _ (evict_run_keys run present)⟩

theorem get_keys {bufLen : Nat} {io : GetIo} {reply : ReadReply} {asked : StorageKey}
    (cases : GetCases e asked bufLen io reply after) :
    after.index.find key = none ↔ e.index.find key = none := by
  have touched : (e.index.updateFn asked (·.touch io.touchedAt)).find key = none ↔
      e.index.find key = none := by
    rw [ConcurrentHashMap.find_update_fn]
    split
    · rename_i same
      rw [same, Option.map_eq_none_iff]
    · exact Iff.rfl
  cases cases with
  | missed => exact Iff.rfl
  | fromT1 | fromT2 | nowhere => exact touched

theorem del_keys {status : Status} {asked : StorageKey} (cases : DelCases e asked status after) :
    status = .kNotFound ∧ e.index.find asked = none ∧ after = e ∨
      status = .kOk ∧ e.index.find asked ≠ none ∧ after.index = e.index.erase asked := by
  cases cases with
  | missed absent => exact .inl ⟨rfl, absent, rfl⟩
  | fromT1 entry _ _ found => exact .inr ⟨rfl, by rw [found]; exact Option.some_ne_none _, rfl⟩
  | fromT2 entry _ _ _ found => exact .inr ⟨rfl, by rw [found]; exact Option.some_ne_none _, rfl⟩
  | fromNowhere entry _ _ found => exact .inr ⟨rfl, by rw [found]; exact Option.some_ne_none _, rfl⟩

/-! ## The answer of a get -/

/-- The whole answer of a get, not only its status. -/
theorem get_reply (inv : CoherentInv e view) {bufLen : Nat} {io : GetIo} {reply : ReadReply}
    (succeeds : io.first.Succeeds ∧ io.second.Succeeds)
    (readOk : io.first.readOk = true ∧ io.second.readOk = true)
    (got : e.get key bufLen io = some (reply, after)) :
    match e.index.find key with
    | none => reply = { status := .kNotFound }
    | some _ => ∃ record, view key = some record ∧ (reply = replyFor record.blob bufLen ∨
        record.blob = [] ∧ reply = { status := .kNotFound }) := by
  cases found : e.index.find key with
  | none =>
      unfold get at got
      rw [found] at got
      cases got
      rfl
  | some entry =>
      obtain ⟨record, isRecord, holds⟩ := inv.held key entry found
      refine ⟨record, isRecord, ?_⟩
      cases holds with
      | inSlot inT1 length bytes =>
          obtain ⟨a, isAllocator, _⟩ := inv.t1.valid key entry found inT1
          have here : entry.tier = kT1Dram ∧ e.t1Allocator.isSome = true :=
            ⟨inT1, by rw [isAllocator]; rfl⟩
          unfold get at got
          rw [found] at got
          dsimp only at got
          rw [if_pos here] at got
          left
          unfold replyFor
          split at got
          · rename_i short
            cases got
            rw [if_pos (by omega)]
          · rename_i fits
            cases got
            rw [if_neg (by omega), length, bytes]
      | inStore inT2 length t2 isStore ack member location data =>
          obtain ⟨t2After, ran⟩ := get_t2 found inT2 isStore got
          rw [← location] at ran
          have answered := T2.read_answers (inv.t2 t2 isStore) succeeds.1 succeeds.2 readOk.1
            readOk.2 member ran
          rw [data] at answered
          split at answered
          · exact .inl answered
          · rename_i lost
            push Not at lost
            exact .inr ⟨lost.1, answered⟩

end Engine

section Runs

variable {session after : Session} {label : SessionLabel} {minCost : UInt32} {kept : Prop}

theorem reach_retains (reached : Reach (sessionMachine emptyCheckpoint) session)
    (none : session.engine.NoneRefused) : session.engine.Retains (latest session.log) := by
  apply reached.invariant_under (fun session => session.engine.NoneRefused)
    (fun session => session.engine.Retains (latest session.log)) _ _ _ none
  · intro before label after moved bound
    exact Engine.none_refused_earlier (session_later (session_cases moved)) bound
  · rintro start ⟨config, io, empty, opening, _, noLog⟩
    have index := (Engine.open_engine_opened opening).index
    rw [empty] at index
    constructor
    · intro key entry found
      rw [index] at found
      contradiction
    · intro key record isRecord
      rw [noLog] at isRecord
      contradiction
  · intro before label after bound inv _ moved
    exact session_retains bound inv (session_cases moved)

structure CacheInv (minCost : UInt32) (kept : Prop) (session : Session) : Prop where
  coherent : CoherentInv session.engine (latest session.log)
  retains : kept → session.engine.Retains (latest session.log)
  cost : session.engine.config.admission.minRecomputeCost = minCost

theorem CacheInv.present (inv : CacheInv minCost kept session) {key : StorageKey}
    (found : session.engine.index.find key ≠ none) :
    ∃ record, session.contents key = some record ∧ latest session.log key = some record := by
  obtain ⟨entry, isEntry⟩ := Option.ne_none_iff_exists'.1 found
  obtain ⟨record, isRecord, _⟩ := inv.coherent.held key entry isEntry
  refine ⟨record, ?_, isRecord⟩
  rw [Session.contents, isEntry, Option.bind_some, isRecord]

theorem contents_absent {key : StorageKey} (absent : session.engine.index.find key = none) :
    session.contents key = none := by
  rw [Session.contents, absent, Option.bind_none]

theorem CacheInv.contains (inv : CacheInv minCost kept session) (key : StorageKey) :
    session.engine.index.contains key = (session.contents key).isSome := by
  cases found : session.engine.index.find key with
  | none =>
      rw [contents_absent found, ConcurrentHashMap.contains, found]
      rfl
  | some entry =>
      have there : session.engine.index.find key ≠ none := by
        rw [found]
        exact Option.some_ne_none _
      obtain ⟨record, isThere, _⟩ := inv.present there
      rw [isThere, ConcurrentHashMap.contains, found]
      rfl

/-- The contents are known by the keys and by the latest puts. -/
theorem contents_same (sameKeys : ∀ key, after.engine.index.find key = none ↔
      session.engine.index.find key = none)
    (sameLatest : latest after.log = latest session.log) : after.contents = session.contents := by
  funext key
  unfold Session.contents
  rw [sameLatest]
  cases before : session.engine.index.find key with
  | none => rw [(sameKeys key).2 before]
  | some entry =>
      have here : after.engine.index.find key ≠ none := by
        rw [Ne, sameKeys key, before]
        exact Option.some_ne_none _
      obtain ⟨found, isFound⟩ := Option.ne_none_iff_exists'.1 here
      rw [isFound]
      rfl

/-- A put that stored its blob forgets cheap blobs only. -/
theorem put_forgets (inv : CacheInv minCost kept session) (invAfter : CacheInv minCost kept after)
    {key : StorageKey} {record : PutRecord}
    (keys : ∀ other, after.engine.index.find other ≠ none →
      other = key ∨ session.engine.index.find other ≠ none)
    (self : latest after.log key = some record)
    (others : ∀ other, other ≠ key → latest after.log other = latest session.log other) :
    Forgets (cachePolicy minCost kept) (Function.update session.contents key (some record))
      after.contents := by
  have latestIs : ∀ other known, Function.update session.contents key (some record) other = some known →
      latest after.log other = some known := by
    intro other known isKnown
    by_cases same : other = key
    · subst same
      rw [Function.update_self] at isKnown
      rw [self, isKnown]
    · rw [Function.update_of_ne same, Session.contents, Option.bind_eq_some_iff] at isKnown
      obtain ⟨_, _, isLatest⟩ := isKnown
      rw [others other same, isLatest]
  intro other
  by_cases absent : after.engine.index.find other = none
  · refine .inr ⟨contents_absent absent, ?_⟩
    rintro known isKnown ⟨holds, expensive⟩
    rw [← invAfter.cost] at expensive
    exact (invAfter.retains holds).present other known (latestIs other known isKnown) expensive absent
  · obtain ⟨known, isThere, isLatest⟩ := invAfter.present absent
    refine .inl (isThere.trans ?_)
    by_cases same : other = key
    · subst same
      rw [Function.update_self, ← self, isLatest]
    · have before := (keys other absent).resolve_left same
      obtain ⟨old, wasThere, wasLatest⟩ := inv.present before
      rw [Function.update_of_ne same, wasThere, ← wasLatest, ← others other same, isLatest]

theorem put_step_cache (inv : CacheInv minCost kept session) {engine : Engine} {key : StorageKey}
    {blob : List UInt8} {opts : PutOpts} {io : PutIo} {status : Status}
    (invAfter : CacheInv minCost kept { engine, log := .put key blob opts status :: session.log })
    (cases : session.engine.PutCases key blob opts io status engine) :
    CacheStep (cachePolicy minCost kept) session.contents (Call.event (.put key blob opts status))
      (Session.contents { engine, log := .put key blob opts status :: session.log }) := by
  by_cases ok : status = .kOk
  · subst ok
    exact .stored key { blob, opts } (put_forgets inv invAfter
      (fun other => (Engine.put_keys other cases).2)
      (latest_put_self session.log key blob opts) fun _ different => latest_put_other different)
  · have sameIndex : engine.index = session.engine.index := (Engine.put_keys key cases).1 ok
    have same : Session.contents { engine, log := .put key blob opts status :: session.log } =
        session.contents := by
      apply contents_same
      · intro other
        rw [sameIndex]
      · exact funext fun _ => latest_put_bad ok
    have event : Call.event (.put key blob opts status) = .turnedAway key { blob, opts } := if_neg ok
    rw [same, event]
    exact .turnedAway key _

theorem get_step_cache (inv : CacheInv minCost kept session) {engine : Engine} {key : StorageKey}
    {bufLen : Nat} {io : GetIo} {reply : ReadReply}
    (succeeds : io.first.Succeeds ∧ io.second.Succeeds)
    (readOk : io.first.readOk = true ∧ io.second.readOk = true)
    (got : session.engine.get key bufLen io = some (reply, engine)) :
    CacheStep (cachePolicy minCost kept) session.contents (Call.event (.get key bufLen reply))
      (Session.contents { engine, log := .get key bufLen reply :: session.log }) := by
  have same : Session.contents { engine, log := .get key bufLen reply :: session.log } =
      session.contents :=
    contents_same (fun _ => Engine.get_keys (Engine.get_cases got)) rfl
  rw [same]
  refine .answered key ({ bufLen, reply } : GetAnswer) ?_
  have answer := Engine.get_reply inv.coherent succeeds readOk got
  cases found : session.engine.index.find key with
  | none =>
      rw [found] at answer
      rw [contents_absent found]
      exact answer
  | some entry =>
      rw [found] at answer
      obtain ⟨record, isRecord, right⟩ := answer
      rw [Session.contents, found, Option.bind_some, isRecord]
      exact right

theorem del_step_cache (inv : CacheInv minCost kept session) {engine : Engine} {key : StorageKey}
    {status : Status} (cases : session.engine.DelCases key status engine) :
    CacheStep (cachePolicy minCost kept) session.contents (Call.event (.del key status))
      (Session.contents { engine, log := .del key status :: session.log }) := by
  rcases Engine.del_keys cases with ⟨rfl, absent, rfl⟩ | ⟨rfl, present, erased⟩
  · have sameLatest : latest (.del key .kNotFound :: session.log) = latest session.log := by
      funext other
      simp [latest]
    have same : Session.contents { session with log := .del key .kNotFound :: session.log } =
        session.contents := contents_same (fun _ => Iff.rfl) sameLatest
    rw [same]
    exact .absent key (contents_absent absent)
  · obtain ⟨record, isThere, _⟩ := inv.present present
    have after : Session.contents { engine, log := .del key .kOk :: session.log } =
        Function.update session.contents key none := by
      funext other
      by_cases same : other = key
      · subst same
        rw [Function.update_self]
        apply contents_absent
        rw [erased, ConcurrentHashMap.find_erase_self]
      · rw [Function.update_of_ne same]
        unfold Session.contents
        rw [erased, ConcurrentHashMap.find_erase, if_neg same, latest_del_other same]
    rw [after]
    exact .removed key record isThere

/-- Every step of a session is a step of the map, or none. -/
theorem session_step_cache (inv : CacheInv minCost kept session)
    (invAfter : CacheInv minCost kept after) (allowed : allIoGuard session label)
    (moved : (sessionMachine emptyCheckpoint).exec session label = some after) :
    (after.log.map Call.event = session.log.map Call.event ∧ after.contents = session.contents) ∨
      ∃ event, after.log.map Call.event = event :: session.log.map Call.event ∧
        CacheStep (cachePolicy minCost kept) session.contents event after.contents := by
  cases label with
  | put key blob opts io =>
      simp only [sessionMachine, Session.exec, Option.map_eq_some_iff] at moved
      obtain ⟨⟨status, engine⟩, ran, rfl⟩ := moved
      exact .inr ⟨_, rfl, put_step_cache inv invAfter (Engine.put_cases ran)⟩
  | get key bufLen io =>
      simp only [sessionMachine, Session.exec, Option.map_eq_some_iff] at moved
      obtain ⟨⟨reply, engine⟩, ran, rfl⟩ := moved
      exact .inr ⟨_, rfl, get_step_cache inv allowed.1 allowed.2 ran⟩
  | del key =>
      cases moved
      exact .inr ⟨_, rfl, del_step_cache inv (Engine.del_cases session.engine key)⟩
  | flush step =>
      simp only [sessionMachine, Session.exec] at moved
      split at moved
      · contradiction
      · rw [Option.map_eq_some_iff] at moved
        obtain ⟨t2After, _, rfl⟩ := moved
        exact .inl ⟨rfl, rfl⟩

structure CacheBound (minCost : UInt32) (kept : Prop) (session : Session) : Prop where
  buffered : session.engine.AllBuffered
  refused : kept → session.engine.NoneRefused
  cost : session.engine.config.admission.minRecomputeCost = minCost

theorem CacheBound.earlier (bound : CacheBound minCost kept after)
    (moved : (sessionMachine emptyCheckpoint).exec session label = some after) :
    CacheBound minCost kept session := by
  have later := session_later (session_cases moved)
  refine
    { buffered := Engine.all_buffered_earlier later bound.buffered
      refused := fun holds => Engine.none_refused_earlier later (bound.refused holds)
      cost := ?_ }
  rw [← later.config]
  exact bound.cost

theorem CacheBound.inv (bound : CacheBound minCost kept session)
    (reached : ReachWithin (sessionMachine emptyCheckpoint) allIoGuard session) :
    CacheInv minCost kept session where
  coherent := (reach_coherent (reached.weaken fun _ _ => And.left) bound.buffered).1
  retains holds := reach_retains (reached.weaken fun _ _ _ => trivial) (bound.refused holds)
  cost := bound.cost

theorem session_history (reached : ReachWithin (sessionMachine emptyCheckpoint) allIoGuard session)
    (bound : CacheBound minCost kept session) :
    CacheHistory (cachePolicy minCost kept) (session.log.map Call.event) session.contents := by
  apply reach_history (cachePolicy minCost kept) (fun session => session.log.map Call.event)
    Session.contents (CacheBound minCost kept) _ _ _ reached bound
  · intro before label after moved bound
    exact bound.earlier moved
  · rintro start ⟨config, io, empty, opening, _, noLog⟩ _
    refine ⟨by rw [noLog]; rfl, funext fun key => ?_⟩
    apply contents_absent
    have index := (Engine.open_engine_opened opening).index
    rw [empty] at index
    rw [index]
    rfl
  · intro before label after reachedBefore boundAfter allowed moved
    have reachedAfter := reachedBefore.next allowed moved
    exact session_step_cache ((boundAfter.earlier moved).inv reachedBefore)
      (boundAfter.inv reachedAfter) allowed moved

/-- In every sequential run from an empty engine, with the flush thread at any
point and all I/O succeeding, the calls are those of a map that forgets, and
what it has left is what `contains` answers. Expensive blobs are not forgotten
unless the blob store is disabled or refused a write. -/
theorem session_refines_cache
    (reached : ReachWithin (sessionMachine emptyCheckpoint) allIoGuard session)
    (buffered : session.engine.AllBuffered) :
    ∃ contents, CacheHistory
        (cachePolicy session.engine.config.admission.minRecomputeCost session.engine.NoneRefused)
        (session.log.map Call.event) contents ∧
      ∀ key, session.engine.index.contains key = (contents key).isSome := by
  have bound : CacheBound session.engine.config.admission.minRecomputeCost
      session.engine.NoneRefused session := { buffered, refused := id, cost := rfl }
  exact ⟨session.contents, session_history reached bound, (bound.inv reached).contains⟩

end Runs

def deletedSession : Session :=
  last (sessionMachine emptyCheckpoint) tieredStart
    [tieredPut, .get probeKey 16 {}, .del probeKey, .get probeKey 16 {}]

theorem session_refines_cache_deleted :
    (deletedSession.log.map Call.event).length = 4 ∧
      ∃ contents, CacheHistory (cachePolicy deletedSession.engine.config.admission.minRecomputeCost
          deletedSession.engine.NoneRefused) (deletedSession.log.map Call.event) contents ∧
        ∀ key, deletedSession.engine.index.contains key = (contents key).isSome := by
  have reached : ReachWithin (sessionMachine emptyCheckpoint) allIoGuard deletedSession := by
    refine ((((ReachWithin.start tiered_started).to_next tieredPut ?_ (by decide +kernel)).to_next
      (.get probeKey 16 {}) ?_ (by decide +kernel)).to_next (.del probeKey) ?_
        (by decide +kernel)).to_next (.get probeKey 16 {}) ?_ (by decide +kernel)
    · exact ⟨Engine.quiet_put_succeeds, trivial⟩
    · exact ⟨⟨quiet_read_succeeds, quiet_read_succeeds⟩, rfl, rfl⟩
    · exact ⟨trivial, trivial⟩
    · exact ⟨⟨quiet_read_succeeds, quiet_read_succeeds⟩, rfl, rfl⟩
  have counted : deletedSession.engine.t2Store.map (fun t2 =>
      (t2.store.nextSegmentId, t2.handed, blockCapacity t2.store.config)) =
        some (1, [1], 1048576) := by decide +kernel
  refine ⟨by decide +kernel, session_refines_cache reached ?_⟩
  intro t2 isStore
  rw [isStore] at counted
  simp only [Option.map_some, Option.some.injEq, Prod.mk.injEq] at counted
  obtain ⟨segments, handed, capacity⟩ := counted
  refine { segments := by omega, small := by omega, fits := ?_ }
  rw [handed, capacity]
  decide

end AttentionDB
