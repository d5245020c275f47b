import AttentionDB.Engine.FailedWrites

/-!
# Puts that fail

A put that does not return `kOk` changes no entry, no slot and no tracker, and
if it ends before the blob store is called no get can tell that it was made. A
put that the blob store refused may have rotated the write block. Every get
answers as before then too, with one exception: an empty blob is found while its
block is looked at and lost otherwise, and the refused put may have taken that
very block up again.
-/

namespace AttentionDB

open GuardedRuns BlobStore

set_option autoImplicit false

structure GetIo.Succeeds (io : GetIo) : Prop where
  flushes : io.first.Succeeds ∧ io.second.Succeeds
  reads : io.first.readOk = true ∧ io.second.readOk = true

theorem quiet_get_succeeds : GetIo.Succeeds {} where
  flushes := ⟨quiet_read_succeeds, quiet_read_succeeds⟩
  reads := ⟨rfl, rfl⟩

namespace Engine

variable {e after : Engine}

/-! ## The store between two calls -/

def Ready (e : Engine) : Prop := ∀ t2, e.t2Store = some t2 → t2.Ready false

theorem evict_round_ready {io : EvictIo} (succeeds : io.t2.Succeeds) (bound : AllBuffered after)
    (ready : Ready e) (round : EvictRound e io after) : Ready after := by
  cases round with
  | skipped | dropped => exact ready
  | refused t1Eviction victim entry found inT1 t2 t2After status loc isStore ran bad =>
      rintro _ ⟨⟩
      exact T2.write_ready (ready t2 isStore) succeeds ran (bound t2After rfl)
  | demoted t1Eviction t2Eviction victim entry found inT1 t2 t2After loc isStore ran =>
      rintro _ ⟨⟩
      exact T2.write_ready (ready t2 isStore) succeeds ran (bound t2After rfl)

theorem evict_run_ready {io : Nat → EvictIo} (succeeds : ∀ i, (io i).t2.Succeeds)
    (bound : AllBuffered after) (run : EvictRun io e after) (ready : Ready e) : Ready after :=
  run.keeps_under AllBuffered Ready
    (fun _ _ later bound => all_buffered_earlier later bound)
    (fun _ i _ bound ready round => evict_round_ready (succeeds i) bound ready round) bound ready

theorem put_ready {key : StorageKey} {blob : List UInt8} {opts : PutOpts} {io : PutIo}
    {status : Status} (succeeds : PutSucceeds io) (bound : AllBuffered after) (ready : Ready e)
    (cases : PutCases e key blob opts io status after) : Ready after := by
  cases cases with
  | rejected => exact ready
  | refused status admission t2 t2After loc isStore ran bad =>
      rintro _ ⟨⟩
      exact T2.write_ready (ready t2 isStore) succeeds.1 ran (bound t2After rfl)
  | storedT1 admission t1Eviction a allocator handle ptr accepted isAllocator allocated run =>
      exact evict_run_ready succeeds.2 bound run ready
  | storedT2 admission t2Eviction t2 t2After loc accepted full isStore ran run =>
      apply evict_run_ready succeeds.2 bound run
      have boundHere := all_buffered_earlier (evict_run_later run) bound t2After rfl
      rintro _ ⟨⟩
      exact T2.write_ready (ready t2 isStore) succeeds.1 ran boundHere

theorem get_ready {key : StorageKey} {bufLen : Nat} {io : GetIo} {reply : ReadReply}
    (succeeds : io.first.Succeeds ∧ io.second.Succeeds) (ready : Ready e)
    (cases : GetCases e key bufLen io reply after) : Ready after := by
  cases cases with
  | missed | nowhere | fromT1 => exact ready
  | fromT2 reply entry t2Eviction t2 t2After found inT2 isStore ran =>
      rintro _ ⟨⟩
      exact T2.read_ready (ready t2 isStore) succeeds ran

theorem del_ready {key : StorageKey} {status : Status} (ready : Ready e)
    (cases : DelCases e key status after) : Ready after := by
  cases cases with
  | missed | fromT1 | fromNowhere => exact ready
  | fromT2 entry t1Eviction t2Eviction t2 found inT2 isStore =>
      rintro _ ⟨⟩
      exact T2.mark_dead_ready (ready t2 isStore) _

end Engine

section Runs

variable {session after : Session} {label : SessionLabel}

theorem session_ready (bound : after.engine.AllBuffered) (ready : session.engine.Ready)
    (allowed : ioSucceedsGuard session label) (cases : SessionCases session label after) :
    after.engine.Ready := by
  cases cases with
  | put key blob opts io status engine cases => exact Engine.put_ready allowed bound ready cases
  | get key bufLen io reply engine cases => exact Engine.get_ready allowed ready cases
  | del key status engine cases => exact Engine.del_ready ready cases
  | flush step t2 t2After isStore ran =>
      rintro _ ⟨⟩
      exact T2.flush_run_ready (ready t2 isStore) allowed ran

theorem session_start_ready (initial : (sessionMachine anyCheckpoint).start session)
    (bound : session.engine.AllBuffered) : session.engine.Ready := by
  obtain ⟨config, io, _, opening, _⟩ := initial
  have opened := Engine.open_engine_opened opening
  intro t2 isStore
  have buffered := bound t2 isStore
  obtain ⟨store, rfl, ok⟩ := opened.t2 t2 isStore
  have status : (openStore config.nvmeStore io.files io.store).1 = .kOk := by rw [ok]
  have configIs := open_store_config status
  have isOpened := StoreInv.opened status
  have spares := opened_spares status
  have segments := buffered.segments
  have small := buffered.small
  rw [ok] at configIs isOpened spares
  simp only at segments small configIs
  rw [configIs] at small
  exact
    { valid := isOpened small segments
      spares := spares
      used := by
        intro b isWriting
        cases isWriting }

theorem reach_ready (reached : ReachWithin (sessionMachine anyCheckpoint) ioSucceedsGuard session)
    (buffered : session.engine.AllBuffered) : session.engine.Ready := by
  have inv := reached.invariant_under (fun session => session.engine.AllBuffered)
    (fun session => session.engine.AllBuffered → session.engine.Ready)
  refine inv ?_ ?_ ?_ buffered buffered
  · intro before label after moved bound
    exact Engine.all_buffered_earlier (session_later (session_cases moved)) bound
  · intro start initial bound
    exact session_start_ready initial bound
  · intro before label after bound inv allowed moved _
    have cases := session_cases moved
    exact session_ready bound (inv (Engine.all_buffered_earlier (session_later cases) bound))
      allowed cases

end Runs

/-! ## What a get sees -/

namespace Engine

variable {e after : Engine} {key : StorageKey}

structure Unchanged (e after : Engine) : Prop where
  index : after.index = e.index
  t1Allocator : after.t1Allocator = e.t1Allocator
  memory : after.memory = e.memory
  t1Eviction : after.t1Eviction = e.t1Eviction
  t2Eviction : after.t2Eviction = e.t2Eviction

/-- Gets of the key answer alike, whatever the flush thread does during each. -/
structure SameGets (e after : Engine) (key : StorageKey) : Prop where
  returns : ∀ bufLen, ∃ reply eAfter afterAfter, e.get key bufLen {} = some (reply, eAfter) ∧
    after.get key bufLen {} = some (reply, afterAfter)
  same : ∀ bufLen io ioAfter reply replyAfter eAfter afterAfter, GetIo.Succeeds io →
    GetIo.Succeeds ioAfter → e.get key bufLen io = some (reply, eAfter) →
    after.get key bufLen ioAfter = some (replyAfter, afterAfter) → replyAfter = reply

/-- The same where the flush thread does the same during each. -/
structure SameGetsAlong (e after : Engine) (key : StorageKey) : Prop where
  returns : ∀ bufLen, ∃ reply eAfter afterAfter, e.get key bufLen {} = some (reply, eAfter) ∧
    after.get key bufLen {} = some (reply, afterAfter)
  same : ∀ bufLen io reply replyAfter eAfter afterAfter, GetIo.Succeeds io →
    e.get key bufLen io = some (reply, eAfter) →
    after.get key bufLen io = some (replyAfter, afterAfter) → replyAfter = reply

/-- A get of the key does not depend on which blocks are looked at. -/
def KeySettled (e : Engine) (key : StorageKey) : Prop :=
  ∀ entry t2, e.index.find key = some entry → entry.tier = kT2Nvme → e.t2Store = some t2 →
    t2.Settled (entryLocation entry)

/-- The blob of the key, if it is in T2, is one that this blob store took, or it
lies in a segment that nothing is written to. -/
def KeyKnown (e : Engine) (key : StorageKey) : Prop :=
  ∀ entry t2, e.index.find key = some entry → entry.tier = kT2Nvme → e.t2Store = some t2 →
    t2.Known (entryLocation entry)

/-- The blob does not go to a write block, and no block is written meanwhile. -/
def TakesNoBlock (e : Engine) (blob : List UInt8) (io : PutIo) : Prop :=
  io.t2.before = [] ∧ io.t2.directBefore = [] ∧ ∀ t2, e.t2Store = some t2 → t2.Oversized blob

def CallsStore (e : Engine) (blob : List UInt8) (opts : PutOpts) : Prop :=
  e.Accepted blob opts ∧ e.allocateT1 blob = none ∧ e.t2Store.isSome = true

def SegmentsFit (e : Engine) : Prop :=
  ∀ t2, e.t2Store = some t2 → t2.store.nextSegmentId < 2 ^ 32

/-- Gets answer alike if what they read in T2 does. -/
theorem same_reply_of_reads {t2 t2After : T2} (unchanged : Unchanged e after)
    (isStore : e.t2Store = some t2) (isAfter : after.t2Store = some t2After)
    {bufLen : Nat} {io ioAfter : GetIo} {reply replyAfter : ReadReply} {eAfter afterAfter : Engine}
    (reads : ∀ entry answer answerAfter t2Read afterRead, e.index.find key = some entry →
      entry.tier = kT2Nvme →
      t2.read (entryLocation entry) bufLen io.first io.second = some (answer, t2Read) →
      t2After.read (entryLocation entry) bufLen ioAfter.first ioAfter.second =
        some (answerAfter, afterRead) → answerAfter = answer)
    (got : e.get key bufLen io = some (reply, eAfter))
    (gotAfter : after.get key bufLen ioAfter = some (replyAfter, afterAfter)) : replyAfter = reply := by
  unfold get at got gotAfter
  rw [unchanged.index, unchanged.t1Allocator, unchanged.memory, isAfter] at gotAfter
  rw [isStore] at got
  cases found : e.index.find key with
  | none =>
      rw [found] at got gotAfter
      cases got
      cases gotAfter
      rfl
  | some entry =>
      rw [found] at got gotAfter
      dsimp only at got gotAfter
      split at got
      · rename_i inT1
        rw [if_pos inT1] at gotAfter
        split at got
        · rename_i short
          rw [if_pos short] at gotAfter
          cases got
          cases gotAfter
          rfl
        · rename_i fits
          rw [if_neg fits] at gotAfter
          cases got
          cases gotAfter
          rfl
      · rename_i notInT1
        rw [if_neg notInT1] at gotAfter
        split at got
        · rename_i inT2
          rw [if_pos inT2] at gotAfter
          split at got
          · contradiction
          · rename_i answer read ran
            split at gotAfter
            · contradiction
            · rename_i answerAfter readAfter ranAfter
              cases got
              cases gotAfter
              exact reads entry _ _ _ _ found inT2 ran ranAfter
        · rename_i notInT2
          rw [if_neg notInT2] at gotAfter
          cases got
          cases gotAfter
          rfl

theorem same_gets_of_left {t2 t2After : T2} (unchanged : Unchanged e after)
    (isStore : e.t2Store = some t2) (isAfter : after.t2Store = some t2After)
    (ready : t2.Ready false) (left : T2.Left t2 t2After) (settled : e.KeySettled key)
    {bufLen : Nat} {io ioAfter : GetIo} {reply replyAfter : ReadReply} {eAfter afterAfter : Engine}
    (succeeds : GetIo.Succeeds io) (succeedsAfter : GetIo.Succeeds ioAfter)
    (got : e.get key bufLen io = some (reply, eAfter))
    (gotAfter : after.get key bufLen ioAfter = some (replyAfter, afterAfter)) : replyAfter = reply := by
  apply same_reply_of_reads unchanged isStore isAfter _ got gotAfter
  intro entry answer answerAfter t2Read afterRead found inT2 ran ranAfter
  exact left.read_same ready (settled entry t2 found inT2 isStore) succeeds.flushes succeeds.reads ran
    succeedsAfter.flushes succeedsAfter.reads ranAfter

theorem gets_alike_of_left {t2 t2After : T2} (unchanged : Unchanged e after)
    (isStore : e.t2Store = some t2) (isAfter : after.t2Store = some t2After)
    (ready : t2.Ready false) (left : T2.Left t2 t2After) (sameFlush : T2.SameFlush t2 t2After)
    (known : e.KeyKnown key) {bufLen : Nat} {io : GetIo} {reply replyAfter : ReadReply}
    {eAfter afterAfter : Engine} (succeeds : GetIo.Succeeds io)
    (got : e.get key bufLen io = some (reply, eAfter))
    (gotAfter : after.get key bufLen io = some (replyAfter, afterAfter)) : replyAfter = reply := by
  apply same_reply_of_reads unchanged isStore isAfter _ got gotAfter
  intro entry answer answerAfter t2Read afterRead found inT2 ran ranAfter
  exact left.read_alike sameFlush ready (known entry t2 found inT2 isStore) succeeds.flushes
    succeeds.reads ran ranAfter

/-- With the same blob store every get answers alike, on the same schedule. -/
theorem get_same_store (unchanged : Unchanged e after) (store : after.t2Store = e.t2Store)
    (key : StorageKey) (bufLen : Nat) (io : GetIo) :
    (after.get key bufLen io).map Prod.fst = (e.get key bufLen io).map Prod.fst := by
  unfold get
  rw [unchanged.index, unchanged.t1Allocator, unchanged.memory, store]
  cases e.index.find key with
  | none => rfl
  | some entry =>
      dsimp only
      split
      · split <;> rfl
      · cases e.t2Store with
        | none => rfl
        | some t2 =>
            dsimp only
            split
            · cases t2.read (entryLocation entry) bufLen io.first io.second with
              | none => rfl
              | some result => rfl
            · rfl

/-- Without a blob store the schedule does not matter. -/
theorem same_gets_without_store (unchanged : Unchanged e after) (noStore : e.t2Store = none)
    (store : after.t2Store = e.t2Store) {bufLen : Nat} {io ioAfter : GetIo}
    {reply replyAfter : ReadReply} {eAfter afterAfter : Engine}
    (got : e.get key bufLen io = some (reply, eAfter))
    (gotAfter : after.get key bufLen ioAfter = some (replyAfter, afterAfter)) : replyAfter = reply := by
  have same := get_same_store unchanged store key bufLen ioAfter
  rw [gotAfter] at same
  have anyIo : (e.get key bufLen ioAfter).map Prod.fst = (e.get key bufLen io).map Prod.fst := by
    unfold get
    rw [noStore]
    cases e.index.find key with
    | none => rfl
    | some entry =>
        dsimp only
        split
        · split <;> rfl
        · rfl
  rw [anyIo, got] at same
  exact Option.some.inj same

/-- Gets return where nothing else runs, and so with the same reply. -/
theorem quiet_gets_return (bufLen : Nat)
    (same : ∀ reply replyAfter eAfter afterAfter, e.get key bufLen {} = some (reply, eAfter) →
      after.get key bufLen {} = some (replyAfter, afterAfter) → replyAfter = reply) :
    ∃ reply eAfter afterAfter, e.get key bufLen {} = some (reply, eAfter) ∧
      after.get key bufLen {} = some (reply, afterAfter) := by
  obtain ⟨reply, eAfter, got⟩ := get_returns e key bufLen
  obtain ⟨replyAfter, afterAfter, gotAfter⟩ := get_returns after key bufLen
  rw [same reply replyAfter eAfter afterAfter got gotAfter] at gotAfter
  exact ⟨reply, eAfter, afterAfter, got, gotAfter⟩

theorem same_gets_of_replies
    (same : ∀ bufLen io ioAfter reply replyAfter eAfter afterAfter, GetIo.Succeeds io →
      GetIo.Succeeds ioAfter → e.get key bufLen io = some (reply, eAfter) →
      after.get key bufLen ioAfter = some (replyAfter, afterAfter) → replyAfter = reply) :
    SameGets e after key where
  returns bufLen := quiet_gets_return bufLen fun reply replyAfter eAfter afterAfter =>
    same bufLen {} {} reply replyAfter eAfter afterAfter quiet_get_succeeds quiet_get_succeeds
  same := same

theorem same_gets_along_of_replies
    (same : ∀ bufLen io reply replyAfter eAfter afterAfter, GetIo.Succeeds io →
      e.get key bufLen io = some (reply, eAfter) →
      after.get key bufLen io = some (replyAfter, afterAfter) → replyAfter = reply) :
    SameGetsAlong e after key where
  returns bufLen := quiet_gets_return bufLen fun reply replyAfter eAfter afterAfter =>
    same bufLen {} reply replyAfter eAfter afterAfter quiet_get_succeeds
  same := same

/-- One put that fails in a state that is ready for it. -/
theorem failed_put {blob : List UInt8} {opts : PutOpts} {io : PutIo} {status : Status}
    (ready : Ready e) (steps : PutSteps e key blob opts io status after) (failed : status ≠ .kOk)
    (flushes : io.t2.FlushesSucceed) (room : after.SegmentsFit) :
    Unchanged e after ∧ (¬e.CallsStore blob opts → after.t2Store = e.t2Store) ∧
      (∀ other, e.KeySettled other → SameGets e after other) ∧
      (e.TakesNoBlock blob io → ∀ other, e.KeyKnown other → SameGetsAlong e after other) := by
  cases steps with
  | rejected status admission bad =>
      have unchanged : Unchanged e { e with admission } := ⟨rfl, rfl, rfl, rfl, rfl⟩
      refine ⟨unchanged, fun _ => rfl, ?_, ?_⟩
      · intro other settled
        apply same_gets_of_replies
        intro bufLen getIo ioAfter reply replyAfter eAfter afterAfter succeeds succeedsAfter got gotAfter
        cases isStore : e.t2Store with
        | none => exact same_gets_without_store unchanged isStore rfl got gotAfter
        | some t2 =>
            have left := T2.left_same (ready t2 isStore) t2.handed t2.refused
            exact same_gets_of_left unchanged isStore isStore (ready t2 isStore) left settled succeeds
              succeedsAfter got gotAfter
      · intro _ other _
        apply same_gets_along_of_replies
        intro bufLen getIo reply replyAfter eAfter afterAfter _ got gotAfter
        have same := get_same_store unchanged rfl other bufLen getIo
        rw [got, gotAfter] at same
        exact Option.some.inj same
  | refused status admission t2 t2After loc accepted full isStore written bad =>
      have unchanged : Unchanged e { e with admission, t2Store := some t2After } :=
        ⟨rfl, rfl, rfl, rfl, rfl⟩
      have left := T2.write_left (ready t2 isStore) flushes written bad (room t2After rfl)
      refine ⟨unchanged, ?_, ?_, ?_⟩
      · intro notCalled
        exact absurd ⟨accepted, full, by rw [isStore]; rfl⟩ notCalled
      · intro other settled
        apply same_gets_of_replies
        intro bufLen getIo ioAfter reply replyAfter eAfter afterAfter succeeds succeedsAfter got gotAfter
        exact same_gets_of_left unchanged isStore rfl (ready t2 isStore) left settled succeeds
          succeedsAfter got gotAfter
      · rintro ⟨before, directBefore, oversized⟩ other known
        have sameFlush := T2.write_oversized (ready t2 isStore).valid (oversized t2 isStore)
          ⟨before, directBefore⟩ written bad
        apply same_gets_along_of_replies
        intro bufLen getIo reply replyAfter eAfter afterAfter succeeds got gotAfter
        exact gets_alike_of_left unchanged isStore rfl (ready t2 isStore) left sameFlush known succeeds
          got gotAfter
  | stored => exact absurd rfl failed

end Engine

/-! ## Which keys are settled, and which are known -/

/-- The location of a T2 entry is one that the store returned, for a blob of the
length of the entry. -/
theorem CoherentInv.recorded {e : Engine} {view : StorageKey → Option PutRecord}
    (inv : CoherentInv e view) {key : StorageKey} {entry : IndexEntry} {t2 : T2}
    (found : e.index.find key = some entry) (inT2 : entry.tier = kT2Nvme)
    (isStore : e.t2Store = some t2) : ∃ ack ∈ t2.acked, ack.loc = Engine.entryLocation entry ∧
      ack.data.length = entry.length.toNat := by
  obtain ⟨record, _, holds⟩ := inv.held key entry found
  cases holds with
  | inSlot inT1 =>
      rw [inT1] at inT2
      contradiction
  | inStore _ length other isOther ack member location data =>
      rw [isStore] at isOther
      cases isOther
      exact ⟨ack, member, location, by rw [data, length]⟩

/-- In an engine that started empty, a key is settled unless its blob is an
empty one in T2 that a write block covers. -/
theorem key_settled {session : Session}
    (reached : ReachWithin (sessionMachine emptyCheckpoint) ioSucceedsGuard session)
    (buffered : session.engine.AllBuffered) {key : StorageKey}
    (right : ∀ entry t2, session.engine.index.find key = some entry → entry.tier = kT2Nvme →
      session.engine.t2Store = some t2 →
      entry.length ≠ 0 ∨ ∀ b, t2.store.covers (Engine.entryLocation entry) b = false) :
    session.engine.KeySettled key := by
  intro entry t2 found inT2 isStore
  obtain ⟨ack, member, location, length⟩ :=
    (reach_coherent reached buffered).1.recorded found inT2 isStore
  refine .inl ⟨ack, member, location, ?_⟩
  apply (right entry t2 found inT2 isStore).imp_left
  intro nonempty empty
  apply nonempty
  rw [empty, List.length_nil] at length
  exact UInt32.toNat_inj.1 length.symm

/-- In such an engine every key is known. -/
theorem key_known {session : Session}
    (reached : ReachWithin (sessionMachine emptyCheckpoint) ioSucceedsGuard session)
    (buffered : session.engine.AllBuffered) (key : StorageKey) : session.engine.KeyKnown key := by
  intro entry t2 found inT2 isStore
  obtain ⟨ack, member, location, _⟩ :=
    (reach_coherent reached buffered).1.recorded found inT2 isStore
  exact .inl ⟨ack, member, location⟩

/-- In every run with all I/O succeeding, from any checkpoint and with the flush
thread at any point, a put that fails leaves the index, the slots and the
trackers as they were. If it ended before the blob store no get can tell, and
if the blob store refused it, gets of all settled keys answer as before. If no
block was asked for it either, so do gets of empty blobs on the same schedule. -/
theorem failed_put_unobserved {session : Session}
    (reached : ReachWithin (sessionMachine anyCheckpoint) ioSucceedsGuard session)
    (buffered : session.engine.AllBuffered) {key : StorageKey} {blob : List UInt8} {opts : PutOpts}
    {io : PutIo} {status : Status} {after : Engine}
    (ran : session.engine.put key blob opts io = some (status, after)) (failed : status ≠ .kOk)
    (flushes : io.t2.FlushesSucceed) (room : after.SegmentsFit) :
    Engine.Unchanged session.engine after ∧
      (¬session.engine.CallsStore blob opts → ∀ other bufLen getIo,
        (after.get other bufLen getIo).map Prod.fst =
          (session.engine.get other bufLen getIo).map Prod.fst) ∧
      (∀ other, session.engine.KeySettled other → Engine.SameGets session.engine after other) ∧
      (session.engine.TakesNoBlock blob io → ∀ other, session.engine.KeyKnown other →
        Engine.SameGetsAlong session.engine after other) := by
  have ready := reach_ready reached buffered
  obtain ⟨unchanged, store, same, along⟩ :=
    Engine.failed_put ready (Engine.put_steps ran) failed flushes room
  refine ⟨unchanged, ?_, same, along⟩
  intro notCalled other bufLen getIo
  exact Engine.get_same_store unchanged (store notCalled) other bufLen getIo

/-! ## An empty blob that comes back -/

theorem reach_any_checkpoint {session : Session}
    (reached : ReachWithin (sessionMachine emptyCheckpoint) ioSucceedsGuard session) :
    ReachWithin (sessionMachine anyCheckpoint) ioSucceedsGuard session := by
  induction reached with
  | start initial => exact .start (any_checkpoint_start initial)
  | next _ allowed moved ih => exact .next ih allowed moved

/-- A put without T1 that the blob store refuses. -/
theorem Engine.put_t2_refused {e : Engine} {blob : List UInt8} {opts : PutOpts} {t2 t2After : T2}
    {status : Status} {loc : BlobLocation} (key : StorageKey) (io : PutIo) (noT1 : e.t1Allocator = none)
    (accepted : e.Accepted blob opts) (isStore : e.t2Store = some t2)
    (ran : t2.write { key, data := blob, checksum := computeCrc32 blob } io.t2 =
      some ((status, loc), t2After)) (bad : status ≠ .kOk) :
    e.put key blob opts io = some (status,
      { e with
        admission := e.admission.recordEvaluation .kAdmit
        t2Store := some t2After }) := by
  rcases accepted with ⟨admitted, short⟩
  have fits : ¬ 2 ^ 32 - 1 < blob.length := by omega
  unfold put
  simp only [admitted, ne_eq, not_true_eq_false, if_false, fits, allocateT1, noT1, Option.bind_none,
    storeT2, isStore, ran, bad]

def narrowConfig : Config :=
  { flashConfig with nvmeStore := { flashConfig.nvmeStore with segmentSize := 2097152 } }

def narrowStart : Session :=
  { engine := (Engine.openEngine narrowConfig {}).getD tieredEngine }

theorem narrow_started : (sessionMachine emptyCheckpoint).start narrowStart := by
  refine ⟨narrowConfig, {}, rfl, rfl, ?_, rfl⟩
  rintro a ⟨⟩

def narrowEmptyBlob : Session :=
  next (sessionMachine emptyCheckpoint) narrowStart (.put probeKey [] alwaysAdmitted {})

theorem narrow_blob_stored :
    ∃ t2, narrowEmptyBlob.engine.t2Store = some t2 ∧ EmptyBlobStored narrowConfig.nvmeStore t2 := by
  refine ⟨narrowEmptyBlob.engine.t2Store.getD { store := singleBlockStore }, rfl, ?_⟩
  exact {
    flush := by decide +kernel
    activeBlock := by decide +kernel
    freePool := by decide +kernel
    flushQueue := by decide +kernel
    activeSegment := by decide +kernel
    segment := by decide +kernel
    holds := by decide +kernel
    capacity := by decide +kernel
    nextCapacity := by decide +kernel
    config := by decide +kernel
    nextSegmentId := by decide +kernel
    handed := by decide +kernel }

theorem narrow_blob_entry : ∃ entry, narrowEmptyBlob.engine.index.find probeKey = some entry ∧
    entry.tier = kT2Nvme ∧ entry.length = 0 ∧ entry.address = 4096 ∧ entry.segmentId = 0 := by
  refine ⟨(narrowEmptyBlob.engine.index.find probeKey).getD IndexEntry.zero, ?_, ?_, ?_, ?_, ?_⟩
  · decide +kernel
  · decide +kernel
  · decide +kernel
  · decide +kernel
  · decide +kernel

def oneByteKey : StorageKey := { probeKey with chunkIndex := 2 }

def noFileIo : PutIo := { t2 := { segment := { opened := false } } }

/-- A write whose first section fails. -/
theorem T2.write_refused {t2 : T2} {request : WriteRequest} {status : Status} {store : BlobStore}
    {io : T2WriteIo} (noFlush : io.before = [])
    (entered : t2.store.writeEnter request io.segment = some (.failed status, store)) :
    t2.write request io = some ((status, ⟨0, 0, 0, 0⟩),
      { t2 with
        handed := request.data.length :: t2.handed
        store
        refused := t2.refused + 1 }) := by
  simp only [write, noFlush, flushRun, entered]

/-- One more byte needs the other block and a segment for it. -/
theorem EmptyBlobOnDisk.late_refused {t2 : T2} (facts : EmptyBlobOnDisk narrowConfig.nvmeStore t2) :
    ∃ t2After, t2.write { key := oneByteKey, data := [7], checksum := computeCrc32 [7] } noFileIo.t2 =
        some ((.kIOError, ⟨0, 0, 0, 0⟩), t2After) ∧
      t2After.store.activeBlock = some 1 ∧ t2After.store.nextSegmentId = 2 := by
  obtain ⟨seg, current, offset⟩ := facts.current
  obtain ⟨pos, capacity⟩ := facts.full
  have entered : t2.store.writeEnter { key := oneByteKey, data := [7], checksum := computeCrc32 [7] }
      noFileIo.t2.segment = some (.failed .kIOError, _) :=
    write_enter_no_segment facts.activeBlock (by decide) (by rw [capacity]; decide)
      (by rw [capacity, pos]; decide) facts.freePool current
      (by rw [facts.config, offset, facts.spare.2.2.2]; decide) rfl
  have next : t2.store.nextSegmentId + 1 = 2 := by rw [facts.nextSegmentId]
  exact ⟨_, T2.write_refused rfl entered, rfl, next⟩

/-- The put that is refused, in the session with the empty blob on disk. -/
theorem EmptyBlobFlushed.late_put {stored session : Session}
    (flushed : EmptyBlobFlushed narrowConfig.nvmeStore stored session) :
    ∃ after t2 t2After loc,
      session.engine.put oneByteKey [7] alwaysAdmitted noFileIo = some (.kIOError, after) ∧
      session.engine.t2Store = some t2 ∧ EmptyBlobOnDisk narrowConfig.nvmeStore t2 ∧
      t2.write { key := oneByteKey, data := [7], checksum := computeCrc32 [7] } noFileIo.t2 =
        some ((.kIOError, loc), t2After) ∧
      after.t2Store = some t2After ∧ after.index = session.engine.index ∧
      t2After.store.activeBlock = some 1 ∧ t2After.store.nextSegmentId = 2 := by
  obtain ⟨t2, isStore, facts⟩ := flushed.t2Store
  obtain ⟨t2After, written, isActive, next⟩ := facts.late_refused
  have accepted : session.engine.Accepted [7] alwaysAdmitted := ⟨rfl, by decide⟩
  have put := Engine.put_t2_refused oneByteKey noFileIo flushed.noT1 accepted isStore written (by decide)
  exact ⟨_, t2, t2After, _, put, isStore, facts, written, rfl, rfl, isActive, next⟩

theorem no_file_flushes : noFileIo.t2.FlushesSucceed where
  before := no_flush_succeeds
  naps nap member := by cases member
  directBefore := no_flush_succeeds

/-- The empty blob whose block was flushed. -/
theorem narrow_flushed : ∃ session, EmptyBlobFlushed narrowConfig.nvmeStore narrowEmptyBlob session := by
  obtain ⟨t2, isStore, facts⟩ := narrow_blob_stored
  have first : ReachWithin (sessionMachine emptyCheckpoint) ioSucceedsGuard narrowEmptyBlob :=
    ReachWithin.to_next _ (.start narrow_started) Engine.quiet_put_succeeds (by decide +kernel)
  have noT1 : narrowEmptyBlob.engine.t1Allocator = none :=
    Option.isNone_iff_eq_none.1 (by decide +kernel)
  exact empty_blob_flushed first noT1 isStore facts (by decide)

/-- The blob of the filler reads the same after a put that was refused in the
middle of a rotation. -/
theorem failed_put_unobserved_filler :
    ∃ (session : Session) (after : Engine),
      session.engine.put oneByteKey [7] alwaysAdmitted noFileIo = some (.kIOError, after) ∧
      (∃ entry, session.engine.index.find fillerKey = some entry) ∧
      Engine.Unchanged session.engine after ∧ Engine.SameGets session.engine after fillerKey := by
  obtain ⟨session, flushed⟩ := narrow_flushed
  obtain ⟨after, t2, t2After, loc, put, isStore, facts, written, isAfter, _, _, next⟩ := flushed.late_put
  obtain ⟨filler, found, nonempty⟩ := flushed.filler
  have buffered := flushed.buffered (by decide)
  have room : after.SegmentsFit := by
    intro other isOther
    rw [isAfter] at isOther
    cases isOther
    rw [next]
    decide
  have settled : session.engine.KeySettled fillerKey := by
    apply key_settled flushed.reached buffered
    intro entry t2 foundHere _ _
    rw [found] at foundHere
    cases foundHere
    exact .inl nonempty
  have unobserved := failed_put_unobserved (reach_any_checkpoint flushed.reached) buffered put
    (by decide) no_file_flushes room
  exact ⟨session, after, put, ⟨filler, found⟩, unobserved.1, unobserved.2.2.1 fillerKey settled⟩

/-- A put that is refused makes the empty blob come back: it was not found
before, and it is found afterwards. -/
theorem refused_put_returns_empty_blob :
    ∃ (session : Session) (after first second : Engine),
      ReachWithin (sessionMachine anyCheckpoint) ioSucceedsGuard session ∧
      session.engine.AllBuffered ∧
      session.engine.put oneByteKey [7] alwaysAdmitted noFileIo = some (.kIOError, after) ∧
      session.engine.get probeKey 0 {} = some ({ status := .kNotFound }, first) ∧
      after.get probeKey 0 {} = some ({ status := .kOk }, second) := by
  obtain ⟨session, flushed⟩ := narrow_flushed
  obtain ⟨after, t2, t2After, loc, put, isStore, facts, written, isAfter, sameIndex, isActive, next⟩ :=
    flushed.late_put
  obtain ⟨entry, foundStored, inT2, empty, address, segment⟩ := narrow_blob_entry
  have buffered := flushed.buffered (by decide)
  have found : session.engine.index.find probeKey = some entry := by rw [flushed.kept, foundStored]
  have foundAfter : after.index.find probeKey = some entry := by rw [sameIndex, found]
  have coherent := (reach_coherent flushed.reached buffered).1
  obtain ⟨ack, member, location, length⟩ := coherent.recorded found inT2 isStore
  have noData : ack.data = [] := by
    rw [empty] at length
    exact List.length_eq_zero_iff.1 length
  have reached := reach_any_checkpoint flushed.reached
  have ready := reach_ready reached buffered t2 isStore
  have left := T2.write_left ready no_file_flushes written (by decide) (by rw [next]; decide)
  -- before the put no block that is looked at covers the blob
  obtain ⟨reply, first, got⟩ := Engine.get_returns session.engine probeKey 0
  obtain ⟨_, read⟩ := Engine.get_t2 found inT2 isStore got
  rw [← location] at read
  have answer := T2.read_answers ready.valid quiet_read_succeeds quiet_read_succeeds rfl rfl member read
  have notPending : t2.pendingAfter ack.loc [] = false := by
    simp only [T2.pendingAfter, T2.flushRun, location, facts.not_pending address, Option.isSome_none]
  have missed : ¬(ack.data ≠ [] ∨ t2.pendingAfter ack.loc [] = true) := by simp [noData, notPending]
  rw [if_neg missed] at answer
  -- afterwards its old block is the active one
  obtain ⟨replyAfter, second, gotAfter⟩ := Engine.get_returns after probeKey 0
  obtain ⟨_, readAfter⟩ := Engine.get_t2 foundAfter inT2 isAfter gotAfter
  rw [← location] at readAfter
  have answerAfter := left.answers member ⟨quiet_read_succeeds, quiet_read_succeeds⟩ ⟨rfl, rfl⟩ readAfter
  have pending : t2After.pendingAfter ack.loc [] = true := by
    simp only [T2.pendingAfter, T2.flushRun]
    unfold findInPendingBlocks
    rw [List.find?_isSome]
    refine ⟨1, by simp [pendingBlocks, isActive], ?_⟩
    obtain ⟨pos, id, offset, _⟩ := facts.spare
    rw [covers, left.blocks, pos, id, offset, location, Engine.entryLocation, address, segment]
    rfl
  rw [if_pos (.inr pending), noData] at answerAfter
  rw [answer] at got
  rw [answerAfter] at gotAfter
  exact ⟨session, after, first, second, reached, buffered, put, got, gotAfter⟩

end AttentionDB
