import AttentionDB.Engine.DirtyFlag
import AttentionDB.Engine.Recovery

/-!
# Generations of a process on one directory

What outlives a process is the checkpoint file and the segment files. One
client calls the engine, the flush thread and the saving thread step between
and inside the calls, and a process ends by `close` or by a crash at any point.
Between two writes of its files a crash is the same wherever it comes, so it is
placed between the steps, inside the sleep of a `write` and inside `close`.
-/

namespace AttentionDB

open GuardedRuns ByteMap BlobStore Checkpoint

set_option autoImplicit false

namespace Engine

def evictRound (e : Engine) (io : EvictIo) : Option (Bool × Engine) :=
  if e.overWatermark then
    match e.t1Eviction.evict with
    | (none, _) => some (false, e)
    | (some victim, t1Eviction) =>
        ({ e with t1Eviction }.evictVictim victim io).map fun e => (true, e)
  else some (false, e)

theorem evict_loop_rounds (io : Nat → EvictIo) (fuel round : Nat) (e : Engine) :
    evictLoop io (fuel + 1) round e =
      (e.evictRound (io round)).bind fun (more, e) =>
        if more then evictLoop io fuel (round + 1) e else some e := by
  rw [evictLoop]
  unfold evictRound
  by_cases crowded : e.overWatermark = true
  · rw [if_pos crowded, if_pos crowded]
    rcases e.t1Eviction.evict with ⟨_ | victim, t1Eviction⟩
    · rfl
    · dsimp only
      cases evictVictim { e with t1Eviction } victim (io round) <;> rfl
  · rw [if_neg crowded, if_neg crowded]
    rfl

theorem evict_round_cases {e after : Engine} {io : EvictIo} {more : Bool}
    (ran : e.evictRound io = some (more, after)) : after = e ∧ more = false ∨ EvictRound e io after := by
  unfold evictRound at ran
  split_ifs at ran
  · split at ran
    · cases ran
      exact .inl ⟨rfl, rfl⟩
    · rw [Option.map_eq_some_iff] at ran
      rcases ran with ⟨engine, evicted, same⟩
      cases same
      exact .inr (evict_victim_round evicted)
  · cases ran
    exact .inl ⟨rfl, rfl⟩

end Engine

structure Running where
  engine : Engine
  evicting : Bool := false
  dirty : Bool := false
  saver : Option SaveRun := none

/-- The two files stores, the ids of the segment files, and the process if there
is one. Two histories are kept: what blob stores of earlier processes
acknowledged, and the calls. -/
structure Generations where
  checkpoint : Option (List UInt8) := none
  files : Files := fun _ => File.empty
  ids : List Nat := []
  running : Option Running := none
  old : List Ack := []
  log : List Call := []

/-- Where a process ends without `close` being over. -/
inductive CrashPoint where
  | between
  | inWrite (request : WriteRequest) (io : T2WriteIo) (last : List FlushStep)
  | inClose (steps : List FlushStep) (count : Nat) (headers : Nat → SegmentIo)

inductive GenerationLabel where
  | openEngine (config : Config) (io : Engine.OpenIo)
  | put (key : StorageKey) (blob : List UInt8) (opts : PutOpts) (io : PutIo)
  | evict (io : EvictIo)
  | get (key : StorageKey) (bufLen : Nat) (io : GetIo)
  | del (key : StorageKey)
  | flush (step : FlushStep)
  | beginSave
  | saveCall (call : SaveCall)
  | close (calls : List SaveCall) (io : CloseIo)
  | crash (point : CrashPoint)

namespace Running

variable (xxh32 : List UInt8 → UInt32) (p : Running)

/-- The next call of the `save` that is running, on the file and the flag as
they are now. -/
def saveCall (file : Option (List UInt8)) (call : SaveCall) :
    Option (Option (List UInt8) × Running) :=
  match p.saver with
  | none => none
  | some run =>
      match { run with file, dirty := p.dirty }.step xxh32 call with
      | none => none
      | some run =>
          let saver := match run.pc with
            | .returned _ => none
            | _ => some run
          some (run.file, { p with dirty := run.dirty, saver })

/-- The save after the loop of the saving thread, which `stop` waits for. -/
def finalSave (file : Option (List UInt8)) (calls : List SaveCall) : Option (Option (List UInt8)) :=
  if p.dirty then
    match SaveRun.steps xxh32 { entries := p.engine.index.snapshot, file, dirty := true } calls with
    | none => none
    | some run =>
        match run.pc with
        | .returned _ => some run.file
        | _ => none
  else if calls = [] then some file else none

def crashed : CrashPoint → Option (Option T2)
  | .between => some p.engine.t2Store
  | .inWrite request io last =>
      match p.engine.t2Store with
      | none => none
      | some t2 => (t2.writeCut request io last).map some
  | .inClose steps count headers =>
      if p.evicting ∨ p.saver.isSome then none
      else
        match p.engine.t2Store with
        | none => none
        | some t2 =>
            (t2.store.closeCut t2.flush steps count headers).map fun store => some { t2 with store }

end Running

namespace Generations

variable (xxh32 : List UInt8 → UInt32) (s : Generations)

/-- The entries of the checkpoint file, if `load` takes it. -/
def acceptedCheckpoint (file : Option (List UInt8)) : Option (List Record) :=
  let (status, loaded) := load xxh32 file {} ∅
  if status = .kOk then some loaded.snapshot else none

def recovered (config : Config) (io : Engine.OpenIo) : Option Running :=
  (Engine.openEngine config
    { io with files := s.files, checkpoint := acceptedCheckpoint xxh32 s.checkpoint }).map
      fun engine => { engine }

/-- The process is gone, and its files are what they are. -/
def ended : Option T2 → Generations
  | none => { s with running := none }
  | some t2 =>
      { s with
        files := t2.store.files
        ids := t2.store.segmentIds
        running := none
        old := t2.acked ++ s.old }

/-- A call of the client, when it is not in the middle of a put. -/
def execClient (p : Running) : GenerationLabel → Option Generations
  | .put key blob opts io =>
      match p.engine.putUpsert key blob opts io with
      | none => none
      | some (status, engine) =>
          some { s with
            running := some { p with
              engine
              evicting := status = .kOk
              dirty := p.dirty || status = .kOk }
            log := .put key blob opts status :: s.log }
  | .get key bufLen io =>
      match p.engine.get key bufLen io with
      | none => none
      | some (reply, engine) =>
          some { s with
            running := some { p with engine, dirty := p.dirty || p.engine.getTouches key bufLen }
            log := .get key bufLen reply :: s.log }
  | .del key =>
      let (status, engine) := p.engine.del key
      some { s with
        running := some { p with engine, dirty := p.dirty || status = .kOk }
        log := .del key status :: s.log }
  | .close calls io =>
      if p.saver.isSome then none
      else
        match p.finalSave xxh32 s.checkpoint calls with
        | none => none
        | some checkpoint =>
            match p.engine.t2Store with
            | none => some ({ s with checkpoint }.ended none)
            | some t2 =>
                (t2.store.close t2.flush io).map fun store =>
                  { s with checkpoint }.ended (some { t2 with store })
  | _ => none

def exec : GenerationLabel → Option Generations
  | .openEngine config io =>
      match s.running with
      | none => (s.recovered xxh32 config io).map fun p => { s with running := some p }
      | some _ => none
  | label =>
      match s.running with
      | none => none
      | some p =>
          match label with
          | .evict io =>
              if p.evicting then
                (p.engine.evictRound io).map fun (more, engine) =>
                  { s with running := some { p with engine, evicting := more } }
              else none
          | .flush step =>
              match p.engine.t2Store with
              | none => none
              | some t2 =>
                  (t2.flushRun [step]).map fun t2 =>
                    { s with running := some { p with engine := { p.engine with t2Store := some t2 } } }
          | .beginSave =>
              if p.dirty ∧ p.saver = none then
                some { s with
                  running := some { p with
                    saver := some
                      { entries := p.engine.index.snapshot, file := s.checkpoint, dirty := p.dirty } } }
              else none
          | .saveCall call =>
              (p.saveCall xxh32 s.checkpoint call).map fun (checkpoint, p) =>
                { s with checkpoint, running := some p }
          | .crash point => (p.crashed point).map s.ended
          | label => if p.evicting then none else s.execClient xxh32 p label

def ledger : List Ack :=
  match s.running with
  | none => s.old
  | some p => p.engine.acked ++ s.old

def filesNow : Files :=
  match s.running with
  | none => s.files
  | some p =>
      match p.engine.t2Store with
      | none => s.files
      | some t2 => t2.store.files

end Generations

/-- The first process finds no files. -/
def generationMachine (xxh32 : List UInt8 → UInt32) : Machine Generations GenerationLabel where
  start s := s = {}
  exec := Generations.exec xxh32

end AttentionDB
