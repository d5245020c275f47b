import AttentionDB.Api.PyEngine

/-!
# The Python backend over the map that forgets

A caller of the backend sees the map of the engine through its own keys. A
batched lookup counts the keys before the first one that is absent, a batch of
puts leaves no trace of what was turned away, and a key that was counted can be
retrieved until something is put or removed.
-/

namespace AttentionDB

open GuardedRuns BlobStore LossyMaps

set_option autoImplicit false

/-! ## The backend on the contents of the map -/

def retrieved (record : PutRecord) : Except PyError (Option (List UInt8)) :=
  if PyEngine.retryBuffer < record.blob.length then
    .error (.runtimeError "get failed: BUFFER_TOO_SMALL")
  else .ok (some record.blob)

/-- The answers of a get. An empty blob may be missed once it is on disk. -/
def Retrieves (contents : StorageKey → Option PutRecord) (key : StorageKey)
    (answer : Except PyError (Option (List UInt8))) : Prop :=
  (answer = .ok none ∧ ∀ record, contents key = some record → record.blob = []) ∨
    ∃ record, contents key = some record ∧ answer = retrieved record

/-- Puts that raise `RuntimeError` leave the contents as they are. -/
inductive SubmittedPuts (policy : CachePolicy PutRecord GetAnswer) :
    (StorageKey → Option PutRecord) → List (StorageKey × PutRecord) →
      (StorageKey → Option PutRecord) → Prop where
  | done (contents : StorageKey → Option PutRecord) : SubmittedPuts policy contents [] contents
  | accepted {contents middle after : StorageKey → Option PutRecord} {key : StorageKey}
      {record : PutRecord} {puts : List (StorageKey × PutRecord)}
      (step : CacheStep policy contents (.stored key record) middle)
      (rest : SubmittedPuts policy middle puts after) :
      SubmittedPuts policy contents ((key, record) :: puts) after
  | raised {contents after : StorageKey → Option PutRecord} {key : StorageKey}
      {record : PutRecord} {puts : List (StorageKey × PutRecord)}
      (rest : SubmittedPuts policy contents puts after) :
      SubmittedPuts policy contents ((key, record) :: puts) after

section Expected

variable (hashU64 : String → UInt64) (backend : AttentionDBBackend)

/-- The keys before the first one that is absent. A key that does not convert
raises if the keys before it are all there. -/
def expectedPrefix (contents : StorageKey → Option PutRecord) :
    List CacheEngineKey → Except PyError Nat
  | [] => .ok 0
  | key :: keys =>
      match backend.mapKey hashU64 key with
      | .error raised => .error raised
      | .ok storageKey =>
          if (contents storageKey).isSome then (expectedPrefix contents keys).map (1 + ·) else .ok 0

/-- The puts of the tasks before the first one that does not convert, and what
that one raises. -/
def plannedPuts : List AttentionDBBackend.PutTask → List (StorageKey × PutRecord) × Except PyError Unit
  | [] => ([], .ok ())
  | task :: tasks =>
      match backend.mapKey hashU64 task.key, backend.computePutOpts task.key with
      | .error raised, _ | .ok _, .error raised => ([], .error raised)
      | .ok key, .ok opts =>
          ((key, { blob := task.data, opts }) :: (plannedPuts tasks).1, (plannedPuts tasks).2)

inductive BackendStep (policy : CachePolicy PutRecord GetAnswer)
    (contents : StorageKey → Option PutRecord) :
    BackendCall → BackendReply → (StorageKey → Option PutRecord) → Prop where
  | contains (key : CacheEngineKey) :
      BackendStep policy contents (.contains key)
        (.present ((backend.mapKey hashU64 key).map fun storageKey => (contents storageKey).isSome))
        contents
  | counted (keys : List CacheEngineKey) (searchRange : Option (Int × Int)) :
      BackendStep policy contents (.batchedContains keys searchRange)
        (.count (expectedPrefix hashU64 backend contents
          (AttentionDBBackend.searched keys searchRange))) contents
  | answered {key : CacheEngineKey} {io : PyGetIo} {storageKey : StorageKey}
      {answer : Except PyError (Option (List UInt8))}
      (mapped : backend.mapKey hashU64 key = .ok storageKey)
      (right : Retrieves contents storageKey answer) :
      BackendStep policy contents (.getBlocking key io) (.blob answer) contents
  | getRaised {key : CacheEngineKey} {io : PyGetIo} {raised : PyError}
      (unmapped : backend.mapKey hashU64 key = .error raised) :
      BackendStep policy contents (.getBlocking key io) (.blob (.error raised)) contents
  | submitted {after : StorageKey → Option PutRecord} {tasks : List AttentionDBBackend.PutTask}
      (puts : SubmittedPuts policy contents (plannedPuts hashU64 backend tasks).1 after) :
      BackendStep policy contents (.submitPuts tasks)
        (.done (plannedPuts hashU64 backend tasks).2) after
  | removed {key : CacheEngineKey} {storageKey : StorageKey}
      (mapped : backend.mapKey hashU64 key = .ok storageKey) :
      BackendStep policy contents (.remove key) (.done (.ok ()))
        (withoutKeys contents [storageKey])
  | removeRaised {key : CacheEngineKey} {raised : PyError}
      (unmapped : backend.mapKey hashU64 key = .error raised) :
      BackendStep policy contents (.remove key) (.done (.error raised)) contents

inductive BackendHistory (policy : CachePolicy PutRecord GetAnswer) :
    List (BackendCall × BackendReply) → (StorageKey → Option PutRecord) → Prop where
  | nil : BackendHistory policy [] fun _ => none
  | cons {log : List (BackendCall × BackendReply)} {call : BackendCall} {reply : BackendReply}
      {before after : StorageKey → Option PutRecord} (earlier : BackendHistory policy log before)
      (step : BackendStep hashU64 backend policy before call reply after) :
      BackendHistory policy ((call, reply) :: log) after

end Expected

/-! ## One call -/

structure PyGetIo.Succeeds (io : PyGetIo) : Prop where
  first : io.first.Succeeds
  between : FlushSucceeds io.between
  retry : io.retry.Succeeds

def BackendCall.Succeeds : BackendCall → Prop
  | .contains _ | .batchedContains _ _ | .remove _ => True
  | .getBlocking _ io => io.Succeeds
  | .submitPuts tasks => ∀ task ∈ tasks, FlushSucceeds task.before ∧ Engine.PutSucceeds task.io

def backendGuard (_ : BackendSession) : BackendLabel → Prop
  | .call call => call.Succeeds
  | .flush step => FlushSucceeds [step]

section Calls

variable {hashU64 : String → UInt64} {backend : AttentionDBBackend} {minCost : UInt32} {kept : Prop}
  {session after : Session}

theorem quiet_py_get_succeeds : PyGetIo.Succeeds {} where
  first := quiet_get_succeeds
  between := nofun
  retry := quiet_get_succeeds

theorem get_bytes_short {blob : List UInt8} (long : PyEngine.retryBuffer < blob.length) :
    PyEngine.getBytes (replyFor blob PyEngine.retryBuffer) =
      .error (.runtimeError "get failed: BUFFER_TOO_SMALL") := by
  rw [replyFor, if_pos long]
  rfl

theorem get_bytes_whole {blob : List UInt8} {bufLen : Nat} (fits : ¬bufLen < blob.length) :
    PyEngine.getBytes (replyFor blob bufLen) = .ok (some blob) := by
  rw [replyFor, if_neg fits]
  rfl

/-- The retry finds the blob that did not fit the first buffer. -/
theorem py_get_leads (minCost : UInt32) (kept : Prop) {key : StorageKey} {io : PyGetIo}
    {answer : Except PyError (Option (List UInt8))} (succeeds : io.Succeeds)
    (ran : PyEngine.get session key io = some (answer, after)) :
    Leads minCost kept session after ∧ after.contents = session.contents ∧
      (ReachWithin (sessionMachine emptyCheckpoint) allIoGuard session →
        CacheBound minCost kept after → Retrieves session.contents key answer) := by
  unfold PyEngine.get at ran
  split at ran
  · contradiction
  · rename_i reply looked got
    obtain ⟨leads, same, right⟩ := get_leads minCost kept succeeds.first got
    split at ran
    · rename_i missed
      cases ran
      refine ⟨leads, same, fun reached bound => ?_⟩
      rcases right reached bound with ⟨_, empty⟩ | ⟨record, _, whole⟩
      · exact .inl ⟨rfl, empty⟩
      · rw [whole, replyFor] at missed
        split at missed <;> contradiction
    · rename_i notMissed
      split at ran
      · rename_i short
        split at ran
        · contradiction
        · rename_i flushed flushing
          obtain ⟨flushLeads, sameFlushed⟩ := flush_steps_leads minCost kept succeeds.between flushing
          simp only [Option.map_eq_some_iff, Prod.mk.injEq] at ran
          obtain ⟨⟨second, _⟩, retried, rfl, rfl⟩ := ran
          obtain ⟨retryLeads, sameRetried, rightRetry⟩ := get_leads minCost kept succeeds.retry retried
          have upTo := leads.trans flushLeads
          rw [sameFlushed, same] at rightRetry sameRetried
          refine ⟨upTo.trans retryLeads, sameRetried, fun reached bound => ?_⟩
          have firstRight := right reached ((flushLeads.trans retryLeads).bound bound)
          have secondRight := rightRetry (upTo.reach reached) bound
          rcases firstRight with ⟨rfl, _⟩ | ⟨record, present, rfl⟩
          · contradiction
          · have long : PyEngine.firstBuffer < record.blob.length := by
              by_contra fits
              rw [replyFor, if_neg fits] at short
              contradiction
            rcases secondRight with ⟨_, empty⟩ | ⟨other, isOther, rfl⟩
            · rw [empty record present] at long
              exact absurd long (Nat.not_lt_zero _)
            · rw [present] at isOther
              cases isOther
              refine .inr ⟨record, present, ?_⟩
              unfold retrieved
              split
              · rename_i tooLong
                exact get_bytes_short tooLong
              · rename_i fits
                exact get_bytes_whole fits
      · rename_i notShort
        cases ran
        refine ⟨leads, same, fun reached bound => ?_⟩
        rcases right reached bound with ⟨rfl, _⟩ | ⟨record, present, rfl⟩
        · contradiction
        · have fits : ¬PyEngine.firstBuffer < record.blob.length := by
            intro long
            rw [replyFor, if_pos long] at notShort
            contradiction
          have fitsRetry : ¬PyEngine.retryBuffer < record.blob.length := by
            unfold PyEngine.firstBuffer at fits
            unfold PyEngine.retryBuffer
            omega
          refine .inr ⟨record, present, ?_⟩
          rw [retrieved, if_neg fitsRetry]
          exact get_bytes_whole fits

theorem get_blocking_leads (minCost : UInt32) (kept : Prop) {key : CacheEngineKey} {io : PyGetIo}
    {answer : Except PyError (Option (List UInt8))} (succeeds : io.Succeeds)
    (ran : backend.getBlocking hashU64 session key io = some (answer, after)) :
    Leads minCost kept session after ∧ after.contents = session.contents ∧
      (ReachWithin (sessionMachine emptyCheckpoint) allIoGuard session →
        CacheBound minCost kept after →
          match backend.mapKey hashU64 key with
          | .error raised => answer = .error raised
          | .ok storageKey => Retrieves session.contents storageKey answer) := by
  unfold AttentionDBBackend.getBlocking at ran
  cases mapped : backend.mapKey hashU64 key with
  | error raised =>
      rw [mapped] at ran
      cases ran
      exact ⟨Leads.refl _, rfl, fun _ _ => rfl⟩
  | ok storageKey =>
      rw [mapped] at ran
      exact py_get_leads minCost kept succeeds ran

/-- The loop counts from any number on. -/
theorem prefix_loop_expected {contents : StorageKey → Option PutRecord}
    (agree : ∀ key, PyEngine.contains session key = (contents key).isSome)
    (keys : List CacheEngineKey) (count : Nat) :
    backend.prefixLoop hashU64 session keys count =
      (expectedPrefix hashU64 backend contents keys).map (count + ·) := by
  induction keys generalizing count with
  | nil => rfl
  | cons key keys ih =>
      simp only [AttentionDBBackend.prefixLoop, expectedPrefix]
      cases backend.mapKey hashU64 key with
      | error raised => rfl
      | ok storageKey =>
          simp only [agree storageKey]
          split
          · rw [ih (count + 1)]
            cases expectedPrefix hashU64 backend contents keys with
            | error raised => rfl
            | ok rest =>
                have sum : count + 1 + rest = count + (1 + rest) := by omega
                simp only [Except.map, sum]
          · rfl

theorem batched_contains_expected {contents : StorageKey → Option PutRecord}
    (agree : ∀ key, PyEngine.contains session key = (contents key).isSome)
    (keys : List CacheEngineKey) (searchRange : Option (Int × Int)) :
    backend.batchedContains hashU64 session keys searchRange =
      expectedPrefix hashU64 backend contents (AttentionDBBackend.searched keys searchRange) := by
  rw [AttentionDBBackend.batchedContains, prefix_loop_expected agree]
  cases expectedPrefix hashU64 backend contents (AttentionDBBackend.searched keys searchRange) with
  | error raised => rfl
  | ok count => simp [Except.map]

/-- No status of a put ends the loop. -/
theorem submit_goes_on {key : StorageKey} {data : List UInt8} {opts : PutOpts} {io : PutIo}
    {tasks : List AttentionDBBackend.PutTask} {answer : Except PyError Unit}
    (ran : (match PyEngine.put session key data opts io with
      | none => none
      | some (.error .typeError, session) => some (.error .typeError, session)
      | some (.error (.runtimeError _), session) | some (.ok _, session) =>
          backend.submitLoop hashU64 tasks session) = some (answer, after)) :
    ∃ status stored, session.put key data opts io = some (status, stored) ∧
      backend.submitLoop hashU64 tasks stored = some (answer, after) := by
  cases put : session.put key data opts io with
  | none =>
      rw [PyEngine.put, put] at ran
      contradiction
  | some result =>
      obtain ⟨status, stored⟩ := result
      refine ⟨status, stored, rfl, ?_⟩
      rw [PyEngine.put, put, Option.map_some] at ran
      unfold checkStatus at ran
      by_cases ok : status = .kOk
      · simpa only [if_pos ok] using ran
      · simpa only [if_neg ok] using ran

theorem submit_loop_leads (minCost : UInt32) (kept : Prop) {tasks : List AttentionDBBackend.PutTask}
    {answer : Except PyError Unit}
    (succeeds : ∀ task ∈ tasks, FlushSucceeds task.before ∧ Engine.PutSucceeds task.io)
    (ran : backend.submitLoop hashU64 tasks session = some (answer, after)) :
    Leads minCost kept session after ∧ answer = (plannedPuts hashU64 backend tasks).2 ∧
      (ReachWithin (sessionMachine emptyCheckpoint) allIoGuard session →
        CacheBound minCost kept after → SubmittedPuts (cachePolicy minCost kept) session.contents
          (plannedPuts hashU64 backend tasks).1 after.contents) := by
  induction tasks generalizing session with
  | nil =>
      cases ran
      exact ⟨Leads.refl _, rfl, fun _ _ => .done _⟩
  | cons task tasks ih =>
      simp only [AttentionDBBackend.submitLoop] at ran
      simp only [plannedPuts]
      cases mapped : backend.mapKey hashU64 task.key with
      | error raised =>
          simp only [mapped] at ran ⊢
          cases ran
          exact ⟨Leads.refl _, rfl, fun _ _ => .done _⟩
      | ok key =>
          cases computed : backend.computePutOpts task.key with
          | error raised =>
              simp only [mapped, computed] at ran ⊢
              cases ran
              exact ⟨Leads.refl _, rfl, fun _ _ => .done _⟩
          | ok opts =>
              simp only [mapped, computed] at ran ⊢
              obtain ⟨flushOk, putOk⟩ := succeeds task List.mem_cons_self
              split at ran
              · contradiction
              · rename_i flushed flushing
                obtain ⟨flushLeads, sameContents⟩ :=
                  flush_steps_leads minCost kept flushOk flushing
                obtain ⟨status, stored, put, goesOn⟩ := submit_goes_on ran
                obtain ⟨putLeads, told⟩ := put_leads minCost kept putOk put
                rw [sameContents] at told
                obtain ⟨restLeads, sameAnswer, rest⟩ := ih (fun other member => succeeds other
                  (List.mem_cons_of_mem _ member)) goesOn
                refine ⟨(flushLeads.trans putLeads).trans restLeads, sameAnswer,
                  fun reached bound => ?_⟩
                have reachedFlushed := flushLeads.reach reached
                have later := rest (putLeads.reach reachedFlushed) bound
                rcases told reachedFlushed (restLeads.bound bound) with ⟨_, step⟩ | ⟨_, same⟩
                · exact .accepted step later
                · rw [same] at later
                  exact .raised later

theorem contains_agrees (bound : CacheBound minCost kept session)
    (reached : ReachWithin (sessionMachine emptyCheckpoint) allIoGuard session) (key : StorageKey) :
    PyEngine.contains session key = (session.contents key).isSome :=
  (bound.inv reached).contains key

theorem backend_call_leads (minCost : UInt32) (kept : Prop) {call : BackendCall}
    {reply : BackendReply} (succeeds : call.Succeeds)
    (ran : call.run hashU64 backend session = some (reply, after)) :
    Leads minCost kept session after ∧
      (ReachWithin (sessionMachine emptyCheckpoint) allIoGuard session →
        CacheBound minCost kept after → BackendStep hashU64 backend (cachePolicy minCost kept)
          session.contents call reply after.contents) := by
  cases call with
  | contains key =>
      cases ran
      refine ⟨Leads.refl _, fun reached bound => ?_⟩
      have agree := funext (contains_agrees bound reached)
      rw [AttentionDBBackend.contains, agree]
      exact .contains key
  | batchedContains keys searchRange =>
      cases ran
      refine ⟨Leads.refl _, fun reached bound => ?_⟩
      rw [batched_contains_expected (contains_agrees bound reached)]
      exact .counted keys searchRange
  | getBlocking key io =>
      simp only [BackendCall.run, Option.map_eq_some_iff, Prod.mk.injEq] at ran
      obtain ⟨⟨answer, _⟩, got, rfl, rfl⟩ := ran
      obtain ⟨leads, same, right⟩ := get_blocking_leads minCost kept succeeds got
      refine ⟨leads, fun reached bound => ?_⟩
      have told := right reached bound
      rw [same]
      split at told
      · rename_i raised unmapped
        rw [told]
        exact .getRaised unmapped
      · rename_i storageKey mapped
        exact .answered mapped told
  | submitPuts tasks =>
      simp only [BackendCall.run, Option.map_eq_some_iff, Prod.mk.injEq] at ran
      obtain ⟨⟨answer, _⟩, looped, rfl, rfl⟩ := ran
      obtain ⟨leads, rfl, puts⟩ := submit_loop_leads minCost kept succeeds looped
      exact ⟨leads, fun reached bound => .submitted (puts reached bound)⟩
  | remove key =>
      cases mapped : backend.mapKey hashU64 key with
      | error raised =>
          simp only [BackendCall.run, AttentionDBBackend.remove, mapped] at ran
          cases ran
          exact ⟨Leads.refl _, fun _ _ => .removeRaised mapped⟩
      | ok storageKey =>
          simp only [BackendCall.run, AttentionDBBackend.remove, mapped] at ran
          cases ran
          obtain ⟨leads, _, erased⟩ := del_leads minCost kept session storageKey
          refine ⟨leads, fun reached bound => ?_⟩
          have gone : (PyEngine.del session storageKey).contents = _ := erased reached bound
          rw [gone]
          exact .removed mapped

end Calls

/-! ## Runs of a client -/

section Clients

variable {hashU64 : String → UInt64} {backend : AttentionDBBackend} {minCost : UInt32} {kept : Prop}
  {s after : BackendSession} {label : BackendLabel}

theorem backend_step_leads (minCost : UInt32) (kept : Prop) (allowed : backendGuard s label)
    (moved : s.exec hashU64 backend label = some after) :
    Leads minCost kept s.session after.session ∧
      (ReachWithin (sessionMachine emptyCheckpoint) allIoGuard s.session →
        CacheBound minCost kept after.session →
          (after.log = s.log ∧ after.session.contents = s.session.contents) ∨
            ∃ call reply, after.log = (call, reply) :: s.log ∧
              BackendStep hashU64 backend (cachePolicy minCost kept) s.session.contents call reply
                after.session.contents) := by
  cases label with
  | call call =>
      simp only [BackendSession.exec, Option.map_eq_some_iff] at moved
      obtain ⟨⟨reply, session⟩, ran, rfl⟩ := moved
      obtain ⟨leads, step⟩ := backend_call_leads minCost kept allowed ran
      exact ⟨leads, fun reached bound => .inr ⟨call, reply, rfl, step reached bound⟩⟩
  | flush step =>
      simp only [BackendSession.exec, Option.map_eq_some_iff] at moved
      obtain ⟨session, flushed, rfl⟩ := moved
      have steps : s.session.flushSteps [step] = some session := by
        simp [Session.flushSteps, flushed]
      obtain ⟨leads, same⟩ := flush_steps_leads minCost kept allowed steps
      exact ⟨leads, fun _ _ => .inl ⟨rfl, same⟩⟩

structure BackendInv (hashU64 : String → UInt64) (backend : AttentionDBBackend)
    (s : BackendSession) : Prop where
  reach : ReachWithin (sessionMachine emptyCheckpoint) allIoGuard s.session
  history : ∀ minCost kept, CacheBound minCost kept s.session →
    BackendHistory hashU64 backend (cachePolicy minCost kept) s.log s.session.contents

theorem reach_backend
    (reached : ReachWithin (backendMachine hashU64 backend emptyCheckpoint) backendGuard s) :
    BackendInv hashU64 backend s := by
  apply reached.invariant (BackendInv hashU64 backend)
  · rintro start ⟨initial, noLog⟩
    refine { reach := .start initial, history := fun minCost kept _ => ?_ }
    rw [noLog, initial_contents initial]
    exact .nil
  · intro before label after inv allowed moved
    refine { reach := ?_, history := ?_ }
    · exact (backend_step_leads 0 False allowed moved).1.reach inv.reach
    · intro minCost kept bound
      obtain ⟨leads, step⟩ := backend_step_leads minCost kept allowed moved
      have earlier := inv.history minCost kept (leads.bound bound)
      rcases step inv.reach bound with ⟨sameLog, same⟩ | ⟨call, reply, recorded, taken⟩
      · rw [sameLog, same]
        exact earlier
      · rw [recorded]
        exact .cons earlier taken

def pyBackend : AttentionDBBackend := { tenantId := 2 }

def pyKey (chunkHash workerId : Int) : CacheEngineKey :=
  { modelName := .inr 1, chunkHash := .inl chunkHash, workerId, requestKind := some "system_prompt" }

def noHash : String → UInt64 := fun _ => 0

def pyTasks : List AttentionDBBackend.PutTask :=
  [{ key := pyKey 5 0, data := [7] }, { key := pyKey 6 0, data := List.replicate 65 1 },
    { key := pyKey 8 0, data := [8, 9] }, { key := pyKey 9 65536, data := [3] },
    { key := pyKey 10 0, data := [4] }]

def pyStart : BackendSession := { session := slabStart }

def pySubmitted : BackendSession :=
  last (backendMachine noHash pyBackend emptyCheckpoint) pyStart [.call (.submitPuts pyTasks)]

theorem py_started : (backendMachine noHash pyBackend emptyCheckpoint).start pyStart := by
  refine ⟨⟨slabConfig, slabOpenIo, rfl, rfl, ?_, rfl⟩, rfl⟩
  rintro a ⟨⟩
  exact single_class_backed _ (by decide) (by decide)

theorem py_tasks_succeed : (BackendCall.submitPuts pyTasks).Succeeds := by
  intro task member
  simp only [pyTasks, List.mem_cons, List.not_mem_nil, or_false] at member
  rcases member with rfl | rfl | rfl | rfl | rfl <;> exact ⟨nofun, Engine.quiet_put_succeeds⟩

theorem py_submitted_reached :
    ReachWithin (backendMachine noHash pyBackend emptyCheckpoint) backendGuard pySubmitted :=
  (ReachWithin.start py_started).to_next (.call (.submitPuts pyTasks)) py_tasks_succeed
    (by decide +kernel)

theorem all_buffered_without_store {e : Engine} (none : e.t2Store.isNone = true) :
    e.AllBuffered := by
  intro t2 isStore
  rw [isStore] at none
  contradiction

/-- Calls that put and remove nothing. -/
def BackendLabel.LooksUp : BackendLabel → Prop
  | .call (.contains _) | .call (.batchedContains _ _) | .call (.getBlocking _ _) | .flush _ => True
  | .call (.submitPuts _) | .call (.remove _) => False

def lookupsFrom (hashU64 : String → UInt64) (backend : AttentionDBBackend) (s : BackendSession) :
    Machine BackendSession BackendLabel where
  start state := state = s
  exec := BackendSession.exec hashU64 backend

def lookupGuard (s : BackendSession) (label : BackendLabel) : Prop :=
  backendGuard s label ∧ label.LooksUp

theorem lookup_contents (allowed : lookupGuard s label)
    (moved : s.exec hashU64 backend label = some after) :
    after.session.contents = s.session.contents := by
  cases label with
  | call call =>
      simp only [BackendSession.exec, Option.map_eq_some_iff] at moved
      obtain ⟨⟨reply, session⟩, ran, rfl⟩ := moved
      cases call with
      | contains key | batchedContains keys searchRange =>
          cases ran
          rfl
      | getBlocking key io =>
          simp only [BackendCall.run, Option.map_eq_some_iff, Prod.mk.injEq] at ran
          obtain ⟨⟨answer, _⟩, got, rfl, rfl⟩ := ran
          exact (get_blocking_leads 0 False allowed.1 got).2.1
      | submitPuts tasks | remove key => exact allowed.2.elim
  | flush step =>
      simp only [BackendSession.exec, Option.map_eq_some_iff] at moved
      obtain ⟨session, flushed, rfl⟩ := moved
      have steps : s.session.flushSteps [step] = some session := by
        simp [Session.flushSteps, flushed]
      exact (flush_steps_leads 0 False allowed.1 steps).2

theorem lookups_lead {later : BackendSession} (minCost : UInt32) (kept : Prop)
    (reached : ReachWithin (lookupsFrom hashU64 backend s) lookupGuard later) :
    Leads minCost kept s.session later.session ∧
      later.session.contents = s.session.contents := by
  apply reached.invariant (fun state => Leads minCost kept s.session state.session ∧
    state.session.contents = s.session.contents)
  · rintro state rfl
    exact ⟨Leads.refl _, rfl⟩
  · rintro state label after ⟨leads, same⟩ allowed moved
    exact ⟨leads.trans (backend_step_leads minCost kept allowed.1 moved).1,
      (lookup_contents allowed moved).trans same⟩

/-- What is expected of each key of a list whose prefix was counted. -/
theorem expected_prefix_spec {contents : StorageKey → Option PutRecord}
    {keys : List CacheEngineKey} {count : Nat}
    (counted : expectedPrefix hashU64 backend contents keys = .ok count) :
    count ≤ keys.length ∧ ∀ i key, keys[i]? = some key → i ≤ count →
      ∃ storageKey, backend.mapKey hashU64 key = .ok storageKey ∧
        ((contents storageKey).isSome ↔ i < count) := by
  induction keys generalizing count with
  | nil =>
      cases counted
      exact ⟨Nat.le_refl _, fun i key there => by simp at there⟩
  | cons head keys ih =>
      simp only [expectedPrefix] at counted
      cases mapped : backend.mapKey hashU64 head with
      | error raised =>
          rw [mapped] at counted
          contradiction
      | ok storageKey =>
          simp only [mapped] at counted
          split at counted
          · rename_i present
            cases rest : expectedPrefix hashU64 backend contents keys with
            | error raised =>
                rw [rest] at counted
                contradiction
            | ok others =>
                rw [rest] at counted
                simp only [Except.map, Except.ok.injEq] at counted
                subst counted
                obtain ⟨within, each⟩ := ih rest
                refine ⟨by rw [List.length_cons]; omega, ?_⟩
                intro i key there below
                cases i with
                | zero =>
                    cases there
                    exact ⟨storageKey, mapped, iff_of_true present (by omega)⟩
                | succ i =>
                    obtain ⟨other, isOther, iff⟩ := each i key there (by omega)
                    exact ⟨other, isOther, iff.trans (by omega)⟩
          · rename_i absent
            cases counted
            refine ⟨Nat.zero_le _, ?_⟩
            intro i key there below
            have first : i = 0 := by omega
            subst first
            cases there
            exact ⟨storageKey, mapped, iff_of_false absent (Nat.lt_irrefl 0)⟩

/-- A batched lookup is a promise. While nothing is put or removed, a get of any
key it counted gives the blob of the latest put of that key, and the first key
it did not count is not there. -/
theorem prefix_retrievable {later : BackendSession} {retrieval : Session}
    {keys : List CacheEngineKey} {searchRange : Option (Int × Int)} {count i : Nat}
    {key : CacheEngineKey} {io : PyGetIo} {answer : Except PyError (Option (List UInt8))}
    (reached : ReachWithin (backendMachine hashU64 backend emptyCheckpoint) backendGuard s)
    (counted : backend.batchedContains hashU64 s.session keys searchRange = .ok count)
    (lookups : ReachWithin (lookupsFrom hashU64 backend s) lookupGuard later)
    (there : (AttentionDBBackend.searched keys searchRange)[i]? = some key)
    (succeeds : io.Succeeds)
    (ran : backend.getBlocking hashU64 later.session key io = some (answer, retrieval))
    (buffered : retrieval.engine.AllBuffered) :
    count ≤ (AttentionDBBackend.searched keys searchRange).length ∧
      (i < count → ∃ storageKey record, backend.mapKey hashU64 key = .ok storageKey ∧
        latest s.session.log storageKey = some record ∧
          (answer = retrieved record ∨ record.blob = [] ∧ answer = .ok none)) ∧
      (i = count → answer = .ok none) := by
  have inv := reach_backend reached
  have bound : CacheBound retrieval.engine.config.admission.minRecomputeCost
      retrieval.engine.NoneRefused retrieval := { buffered, refused := id, cost := rfl }
  obtain ⟨leads, same⟩ := lookups_lead _ _ lookups
  obtain ⟨getLeads, _, right⟩ := get_blocking_leads _ _ succeeds ran
  have boundStart := (leads.trans getLeads).bound bound
  have told := right (leads.reach inv.reach) bound
  rw [same] at told
  rw [batched_contains_expected (contains_agrees boundStart inv.reach)] at counted
  obtain ⟨within, each⟩ := expected_prefix_spec counted
  refine ⟨within, fun below => ?_, fun stopped => ?_⟩
  · obtain ⟨storageKey, mapped, present⟩ := each i key there (by omega)
    simp only [mapped] at told
    obtain ⟨record, isRecord⟩ := Option.isSome_iff_exists.1 (present.2 below)
    have isLatest : latest s.session.log storageKey = some record := by
      rw [Session.contents, Option.bind_eq_some_iff] at isRecord
      obtain ⟨_, _, isLatest⟩ := isRecord
      exact isLatest
    refine ⟨storageKey, record, mapped, isLatest, ?_⟩
    rcases told with ⟨lost, empty⟩ | ⟨other, isOther, whole⟩
    · exact .inr ⟨empty record isRecord, lost⟩
    · rw [isRecord] at isOther
      cases isOther
      exact .inl whole
  · obtain ⟨storageKey, mapped, present⟩ := each i key there (by omega)
    simp only [mapped] at told
    rcases told with ⟨missing, _⟩ | ⟨record, isRecord, _⟩
    · exact missing
    · have counts := present.1 (by rw [isRecord]; rfl)
      omega

end Clients

def pyLookup : List CacheEngineKey := [pyKey 9 65536, pyKey 8 0, pyKey 5 0, pyKey 6 0]

def pyCounted : BackendSession :=
  last (lookupsFrom noHash pyBackend pySubmitted) pySubmitted
    [.call (.batchedContains pyLookup (some (1, -1)))]

def pyRetrieved : Option (Except PyError (Option (List UInt8)) × Session) :=
  pyBackend.getBlocking noHash pyCounted.session (pyKey 8 0) {}

/-- The slice leaves out the key that does not convert and the one that is
absent. -/
theorem prefix_retrievable_sliced :
    pyBackend.batchedContains noHash pySubmitted.session pyLookup (some (1, -1)) = .ok 2 ∧
      ∃ storageKey record, pyBackend.mapKey noHash (pyKey 8 0) = .ok storageKey ∧
        latest pySubmitted.session.log storageKey = some record ∧
          (pyRetrieved.map Prod.fst = some (retrieved record) ∨
            record.blob = [] ∧ pyRetrieved.map Prod.fst = some (.ok none)) := by
  have allowed : lookupGuard pySubmitted
      (.call (.batchedContains pyLookup (some (1, -1)))) := ⟨trivial, trivial⟩
  have begun : ReachWithin (lookupsFrom noHash pyBackend pySubmitted) lookupGuard pySubmitted :=
    .start rfl
  have looked : ReachWithin (lookupsFrom noHash pyBackend pySubmitted) lookupGuard pyCounted :=
    begun.to_next _ allowed (by decide +kernel)
  have counted : pyBackend.batchedContains noHash pySubmitted.session pyLookup (some (1, -1)) =
      .ok 2 := by decide +kernel
  have someResult : pyRetrieved.isSome = true := by decide +kernel
  obtain ⟨⟨answer, retrieval⟩, ran⟩ := Option.isSome_iff_exists.1 someResult
  have noStore : (pyRetrieved.map fun result => result.2.engine.t2Store.isNone) = some true := by
    decide +kernel
  rw [ran, Option.map_some, Option.some.injEq] at noStore
  have promise := prefix_retrievable (i := 0) py_submitted_reached counted looked rfl
    quiet_py_get_succeeds ran (all_buffered_without_store noStore)
  obtain ⟨storageKey, record, mapped, isLatest, answered⟩ := promise.2.1 (by decide)
  refine ⟨counted, storageKey, record, mapped, isLatest, ?_⟩
  rw [ran, Option.map_some]
  simpa using answered

end AttentionDB
