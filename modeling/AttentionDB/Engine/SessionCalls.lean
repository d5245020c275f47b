import AttentionDB.Engine.CacheRefinement
import AttentionDB.Engine.FailedPuts

/-!
# The calls of a session

The interfaces over the engine make several calls of it in one function, with
steps of the flush thread in between. Each call is a function on the session,
with its log, and what a client learns from it is told by the contents alone.
-/

namespace AttentionDB

open GuardedRuns BlobStore LossyMaps

set_option autoImplicit false

namespace Session

/-- Steps of the flush thread between two calls of the engine. -/
def flushSteps : List FlushStep → Session → Option Session
  | [], session => some session
  | step :: steps, session => (session.exec (.flush step)).bind (flushSteps steps)

def put (session : Session) (key : StorageKey) (blob : List UInt8) (opts : PutOpts) (io : PutIo) :
    Option (Status × Session) :=
  (session.engine.put key blob opts io).map fun result =>
    (result.1, { engine := result.2, log := .put key blob opts result.1 :: session.log })

def get (session : Session) (key : StorageKey) (bufLen : Nat) (io : GetIo) :
    Option (ReadReply × Session) :=
  (session.engine.get key bufLen io).map fun result =>
    (result.1, { engine := result.2, log := .get key bufLen result.1 :: session.log })

def del (session : Session) (key : StorageKey) : Status × Session :=
  ((session.engine.del key).1,
    { engine := (session.engine.del key).2
      log := .del key (session.engine.del key).1 :: session.log })

end Session

/-! ## What each call tells -/

def withoutKeys (contents : StorageKey → Option PutRecord) (keys : List StorageKey) :
    StorageKey → Option PutRecord :=
  fun key => if key ∈ keys then none else contents key

section Steps

variable {minCost : UInt32} {kept : Prop} {session middle after : Session}

theorem initial_contents (initial : (sessionMachine emptyCheckpoint).start session) :
    session.contents = fun _ => none := by
  obtain ⟨config, io, empty, opening, _, _⟩ := initial
  have index := (Engine.open_engine_opened opening).index
  rw [empty] at index
  funext key
  apply contents_absent
  rw [index]
  rfl

/-- The session can go from one state to the other, and the bound that its run
meets in the end was met before. -/
structure Leads (minCost : UInt32) (kept : Prop) (session after : Session) : Prop where
  reach : ReachWithin (sessionMachine emptyCheckpoint) allIoGuard session →
    ReachWithin (sessionMachine emptyCheckpoint) allIoGuard after
  bound : CacheBound minCost kept after → CacheBound minCost kept session

theorem Leads.refl (session : Session) : Leads minCost kept session session := ⟨id, id⟩

theorem Leads.trans (first : Leads minCost kept session middle)
    (second : Leads minCost kept middle after) : Leads minCost kept session after where
  reach reached := second.reach (first.reach reached)
  bound bounded := first.bound (second.bound bounded)

theorem leads_step (label : SessionLabel) (allowed : allIoGuard session label)
    (moved : session.exec label = some after) : Leads minCost kept session after where
  reach reached := reached.next allowed moved
  bound bounded := bounded.earlier moved

theorem flush_steps_leads (minCost : UInt32) (kept : Prop) {steps : List FlushStep}
    (succeeds : FlushSucceeds steps) (ran : session.flushSteps steps = some after) :
    Leads minCost kept session after ∧ after.contents = session.contents := by
  induction steps generalizing session with
  | nil =>
      cases ran
      exact ⟨Leads.refl _, rfl⟩
  | cons step steps ih =>
      simp only [Session.flushSteps, Option.bind_eq_some_iff] at ran
      obtain ⟨middle, moved, rest⟩ := ran
      have first : Leads minCost kept session middle := by
        refine leads_step (.flush step) ⟨?_, trivial⟩ moved
        intro result member
        exact succeeds result (List.mem_cons.2 (.inl (List.mem_singleton.1 member)))
      have same : middle.contents = session.contents := by
        simp only [Session.exec] at moved
        split at moved
        · contradiction
        · rw [Option.map_eq_some_iff] at moved
          obtain ⟨t2After, _, rfl⟩ := moved
          rfl
      obtain ⟨leads, unchanged⟩ := ih (fun result member => succeeds result
        (List.mem_cons_of_mem _ member)) rest
      exact ⟨first.trans leads, unchanged.trans same⟩

/-- A put either stores or leaves the contents as they are. -/
theorem put_leads (minCost : UInt32) (kept : Prop) {key : StorageKey} {blob : List UInt8}
    {opts : PutOpts} {io : PutIo} {status : Status} (succeeds : Engine.PutSucceeds io)
    (ran : session.put key blob opts io = some (status, after)) :
    Leads minCost kept session after ∧
      (ReachWithin (sessionMachine emptyCheckpoint) allIoGuard session →
        CacheBound minCost kept after →
          status = .kOk ∧ CacheStep (cachePolicy minCost kept) session.contents
              (.stored key { blob, opts }) after.contents ∨
            status ≠ .kOk ∧ after.contents = session.contents) := by
  simp only [Session.put, Option.map_eq_some_iff, Prod.mk.injEq] at ran
  obtain ⟨⟨status, engine⟩, put, rfl, rfl⟩ := ran
  have moved : session.exec (.put key blob opts io) = some
      { engine, log := .put key blob opts status :: session.log } := by
    rw [Session.exec, put, Option.map_some]
  have leads : Leads minCost kept session
      { engine, log := .put key blob opts status :: session.log } :=
    leads_step (.put key blob opts io) ⟨succeeds, trivial⟩ moved
  refine ⟨leads, fun reached bound => ?_⟩
  have step := put_step_cache ((leads.bound bound).inv reached) (bound.inv (leads.reach reached))
    (Engine.put_cases put)
  by_cases ok : status = .kOk
  · subst ok
    exact .inl ⟨rfl, step⟩
  · have event : Call.event (.put key blob opts status) = .turnedAway key { blob, opts } := if_neg ok
    rw [event] at step
    refine .inr ⟨ok, ?_⟩
    generalize Session.contents _ = contents at step ⊢
    cases step
    rfl

def GetRight (contents : StorageKey → Option PutRecord) (key : StorageKey) (bufLen : Nat)
    (reply : ReadReply) : Prop :=
  (reply = { status := .kNotFound } ∧ ∀ record, contents key = some record → record.blob = []) ∨
    ∃ record, contents key = some record ∧ reply = replyFor record.blob bufLen

theorem get_leads (minCost : UInt32) (kept : Prop) {key : StorageKey} {bufLen : Nat} {io : GetIo}
    {reply : ReadReply} (succeeds : io.Succeeds) (ran : session.get key bufLen io = some (reply, after)) :
    Leads minCost kept session after ∧ after.contents = session.contents ∧
      (ReachWithin (sessionMachine emptyCheckpoint) allIoGuard session →
        CacheBound minCost kept after → GetRight session.contents key bufLen reply) := by
  simp only [Session.get, Option.map_eq_some_iff, Prod.mk.injEq] at ran
  obtain ⟨⟨reply, engine⟩, got, rfl, rfl⟩ := ran
  have moved : session.exec (.get key bufLen io) = some
      { engine, log := .get key bufLen reply :: session.log } := by
    rw [Session.exec, got, Option.map_some]
  have leads : Leads minCost kept session { engine, log := .get key bufLen reply :: session.log } :=
    leads_step (.get key bufLen io) ⟨succeeds.flushes, succeeds.reads⟩ moved
  refine ⟨leads, contents_same (fun _ => Engine.get_keys (Engine.get_cases got)) rfl, ?_⟩
  intro reached bound
  have answer := Engine.get_reply ((leads.bound bound).inv reached).coherent succeeds.flushes
    succeeds.reads got
  cases found : session.engine.index.find key with
  | none =>
      rw [found] at answer
      refine .inl ⟨answer, fun record isThere => ?_⟩
      rw [contents_absent found] at isThere
      contradiction
  | some entry =>
      rw [found] at answer
      obtain ⟨record, isRecord, right⟩ := answer
      have isThere : session.contents key = some record := by
        rw [Session.contents, found, Option.bind_some, isRecord]
      rcases right with whole | ⟨empty, lost⟩
      · exact .inr ⟨record, isThere, whole⟩
      · refine .inl ⟨lost, fun other isOther => ?_⟩
        rw [isThere] at isOther
        cases isOther
        exact empty

theorem del_leads (minCost : UInt32) (kept : Prop) (session : Session) (key : StorageKey) :
    Leads minCost kept session (session.del key).2 ∧
      ((session.del key).1 = .kOk ∨ (session.del key).1 = .kNotFound) ∧
      (ReachWithin (sessionMachine emptyCheckpoint) allIoGuard session →
        CacheBound minCost kept (session.del key).2 →
          (session.del key).2.contents = withoutKeys session.contents [key]) := by
  have leads : Leads minCost kept session (session.del key).2 :=
    leads_step (.del key) ⟨trivial, trivial⟩ rfl
  have cases := Engine.del_cases session.engine key
  refine ⟨leads, ?_, fun reached bound => ?_⟩
  · rcases Engine.del_keys cases with ⟨missing, _⟩ | ⟨found, _⟩
    · exact .inr missing
    · exact .inl found
  · have inv := (leads.bound bound).inv reached
    have step := del_step_cache inv cases
    have forgets : ∀ after, CacheStep (cachePolicy minCost kept) session.contents
        (Call.event (.del key (session.engine.del key).1)) after →
          after = withoutKeys session.contents [key] := by
      intro after step
      funext other
      simp only [withoutKeys, List.mem_singleton]
      rcases Engine.del_keys cases with ⟨missing, absent, _⟩ | ⟨found, _, _⟩
      · rw [missing] at step
        cases step with
        | absent _ empty =>
            split
            · rename_i same
              rw [same, empty]
            · rfl
      · rw [found] at step
        cases step with
        | removed _ record present =>
            rw [Function.update_apply]
    exact forgets _ step

end Steps

end AttentionDB
