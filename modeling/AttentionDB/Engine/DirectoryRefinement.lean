import AttentionDB.Engine.SavedContents

/-!
# A directory as a map that is saved and restored

Over any number of processes on one directory, closed or crashed at any point,
the calls are those of one map. A save copies the map as it is when the snapshot
is taken, between two calls or in the middle of an eviction, and its rename
makes the copy the saved one. A new process has what the saved one had outside
T1, and nothing that was put or deleted since.
-/

namespace AttentionDB

open GuardedRuns BlobStore Checkpoint LossyMaps

set_option autoImplicit false

/-! ## Copies of an index -/

/-- An index that is not in use: what its entries describe, and the blobs of
those outside T1 in the ledger. -/
structure Copies (ledger : List Ack) (index : ConcurrentHashMap) (contents : Contents) : Prop where
  shown : Related Shows index.find contents
  recorded : Indexed (fun key entry => entry.tier ≠ kT1Dram →
    ∃ blob, Promised contents key blob ∧ Recorded ledger entry blob) index

/-- The file has what `contents` had outside T1. -/
def OnFile (xxh32 : List UInt8 → UInt32) (ledger : List Ack) (file : Option (List UInt8))
    (contents : Contents) : Prop :=
  Copies ledger (Engine.loadedIndex (Generations.acceptedCheckpoint xxh32 file)) (restored contents)

section Copies

variable {xxh32 : List UInt8 → UInt32} {content : File → Ack → Prop} {ledger wider old : List Ack}
  {index : ConcurrentHashMap} {contents : Contents} {e : Engine}

theorem Copies.grow (copies : Copies ledger index contents) (grown : ∀ ack ∈ ledger, ack ∈ wider) :
    Copies wider index contents where
  shown := copies.shown
  recorded := copies.recorded.imp fun _ _ _ recorded notInT1 =>
    let ⟨blob, promised, isRecorded⟩ := recorded notInT1
    ⟨blob, promised, isRecorded.grow grown⟩

theorem Mirrors.copies (mirrors : Mirrors content old contents e) :
    Copies (e.acked ++ old) e.index contents where
  shown := mirrors.shown
  recorded := mirrors.safe.held.imp fun _ _ _ held notInT1 =>
    let ⟨blob, promised, stands⟩ := held
    ⟨blob, promised, stands.recorded notInT1⟩

theorem restored_settled {key : StorageKey} {held : Held PutRecord} (isHeld : contents key = some held)
    (settled : held.settled = true) :
    restored contents key = some { held with fresh := false } := by
  rw [restored, isHeld]
  simp [Option.filter, settled]

/-- A file that agrees with an index has the copy of its map. -/
theorem Copies.on_file {file : Option (List UInt8)} (copies : Copies ledger index contents)
    (agrees : Agrees xxh32 file index) : OnFile xxh32 ledger file contents := by
  constructor
  · intro key
    rw [agrees key]
    rcases copies.shown key with ⟨absent, missing⟩ | ⟨entry, held, found, isHeld, shows⟩
    · exact .inl ⟨by rw [absent]; rfl, by rw [restored, missing]; rfl⟩
    · rw [found]
      by_cases inT1 : entry.tier = kT1Dram
      · have unsettled : held.settled = false := by simpa [inT1] using shows.settled
        refine .inl ⟨by simp [Option.filter, inT1], ?_⟩
        rw [restored, isHeld]
        simp [Option.filter, unsettled]
      · have settled : held.settled = true := by simpa [inT1] using shows.settled
        exact .inr ⟨entry, _, by simp [Option.filter, inT1], restored_settled isHeld settled,
          shows.describes, shows.settled⟩
  · intro key entry found notInT1
    rw [agrees key, Option.filter_eq_some_iff] at found
    rcases copies.recorded key entry found.1 notInT1 with ⟨blob, ⟨held, isHeld, data⟩, recorded⟩
    rcases copies.shown key with ⟨absent, _⟩ | ⟨known, other, isKnown, isOther, shows⟩
    · rw [absent] at found
      cases found.1
    · rw [found.1] at isKnown
      cases isKnown
      rw [isHeld] at isOther
      cases isOther
      have settled : held.settled = true := by simpa [notInT1] using shows.settled
      exact ⟨blob, ⟨_, restored_settled isHeld settled, data⟩, recorded⟩

theorem on_file_none (xxh32 : List UInt8 → UInt32) (ledger : List Ack) :
    OnFile xxh32 ledger none fun _ => none := by
  rw [OnFile, accepted_missing]
  exact ⟨fun _ => .inl ⟨rfl, rfl⟩, fun key entry found => by cases found⟩

end Copies

/-! ## The journal of a directory -/

abbrev Mark := SavedMark StorageKey PutRecord GetAnswer

/-- What a step of the processes is to the map, newest first. The call of a
client is the one that was just logged. -/
def GenerationLabel.marks (after : Generations) : GenerationLabel → List Mark
  | .openEngine _ _ => [.started]
  | .put _ _ _ _ | .get _ _ _ | .del _ => (after.log.head?.map fun call => .call call.event).toList
  | .evict _ => [.settled]
  | .flush _ => []
  | .beginSave => [.copied]
  | .saveCall call => if call = .rename true then [.replaced] else []
  | .close calls _ => .stopped :: if .rename true ∈ calls then [.replaced, .copied] else []
  | .crash _ => [.stopped]

structure Journal where
  dirs : Generations := {}
  marks : List Mark := []

def journalMachine (xxh32 : List UInt8 → UInt32) : Machine Journal GenerationLabel where
  start j := j = {}
  exec j label := ((generationMachine xxh32).exec j.dirs label).map fun after =>
    { dirs := after, marks := label.marks after ++ j.marks }

/-! ## The invariant -/

/-- Reads and segments do not fail, and saves may. Every process has a blob store. -/
structure Within (xxh32 : List UInt8 → UInt32) (regime : Regime) (s : Generations)
    (label : GenerationLabel) : Prop where
  reliable : Reliable xxh32 s label
  opens : ∀ config io, label = .openEngine config io → config.nvmeStore.enabled = true ∧
    config.admission.minRecomputeCost ≤ regime.minRecomputeCost
  reads : ∀ key bufLen io, label = .get key bufLen io →
    io.first.readOk = true ∧ io.second.readOk = true
  crashes : ∀ point, label = .crash point → regime.crashes
  capped : ∀ after p, (generationMachine xxh32).exec s label = some after →
    after.running = some p → p.engine.index.size ≤ 100000000
  accepted : ¬regime.refusals → ∀ after p, (generationMachine xxh32).exec s label = some after →
    after.running = some p → p.engine.NoneRefused

structure RunningInv (regime : Regime) (content : File → Ack → Prop) (s : Generations) (p : Running)
    (map : SavedMap StorageKey PutRecord) : Prop where
  mirrored : ∃ contents, map.current = some contents ∧ Mirrors content s.old contents p.engine
  copied : ∀ run, p.saver = some run → ∃ index copy, run.entries = index.snapshot ∧
    index.size ≤ 100000000 ∧ map.copy = some copy ∧ Copies s.ledger index copy
  capped : p.engine.index.size ≤ 100000000
  enabled : p.engine.t2Store ≠ none
  cost : p.engine.config.admission.minRecomputeCost ≤ regime.minRecomputeCost

structure DirectoryInv (xxh32 : List UInt8 → UInt32) (regime : Regime) (content : File → Ack → Prop)
    (s : Generations) (map : SavedMap StorageKey PutRecord) : Prop where
  base : GenerationInv xxh32 content s
  saved : OnFile xxh32 s.ledger s.checkpoint map.saved
  stopped : s.running = none → map.current = none
  running : ∀ p, s.running = some p → RunningInv regime content s p map

section Keeps

variable {xxh32 : List UInt8 → UInt32} {regime : Regime} {content : File → Ack → Prop}
  {s after : Generations} {p : Running} {map : SavedMap StorageKey PutRecord}

/-- A call moved the engine on, and the map with it. -/
theorem DirectoryInv.called (inv : DirectoryInv xxh32 regime content s map)
    (isRunning : s.running = some p) {engine : Engine} {evicting dirty : Bool} {log : List Call}
    {contents : Contents}
    (base : GenerationInv xxh32 content
      { s with running := some { p with engine, evicting, dirty }, log })
    (mirrors : Mirrors content s.old contents engine) (later : Engine.Later p.engine engine)
    (capped : engine.index.size ≤ 100000000) :
    DirectoryInv xxh32 regime content
      { s with running := some { p with engine, evicting, dirty }, log }
      { map with current := some contents } := by
  have grown : ∀ ack ∈ s.ledger, ack ∈ engine.acked ++ s.old := by
    rw [ledger_running isRunning]
    exact Engine.acked_later later
  have before := inv.running p isRunning
  refine { base, saved := inv.saved.grow grown, stopped := nofun, running := ?_ }
  intro q isQ
  cases isQ
  refine { mirrored := ⟨contents, rfl, mirrors⟩, copied := ?_, capped, enabled := ?_, cost := ?_ }
  · intro run isSaver
    rcases before.copied run isSaver with ⟨index, copy, entries, small, isCopy, copies⟩
    exact ⟨index, copy, entries, small, isCopy, copies.grow grown⟩
  · intro disabled
    have still := later.t2Enabled
    rw [disabled, Option.isSome_none] at still
    exact before.enabled (by simpa using still.symm)
  · rw [show engine.config = p.engine.config from later.config]
    exact before.cost

theorem DirectoryInv.began_save (inv : DirectoryInv xxh32 regime content s map)
    (isRunning : s.running = some p) {contents : Contents} (current : map.current = some contents)
    (mirrors : Mirrors content s.old contents p.engine) :
    DirectoryInv xxh32 regime content
      { s with
        running := some { p with
          saver := some
            { entries := p.engine.index.snapshot, file := s.checkpoint, dirty := p.dirty } } }
      { map with copy := some contents } := by
  have before := inv.running p isRunning
  have saved := inv.saved
  rw [ledger_running isRunning] at saved
  refine { base := inv.base.began_save isRunning, saved, stopped := nofun, running := ?_ }
  intro q isQ
  cases isQ
  refine
    { mirrored := ⟨contents, current, mirrors⟩
      copied := ?_
      capped := before.capped
      enabled := before.enabled
      cost := before.cost }
  intro run isSaver
  cases isSaver
  exact ⟨p.engine.index, contents, rfl, before.capped, rfl, mirrors.copies⟩

theorem save_keeps_file {run next : SaveRun} {call : SaveCall} (other : call ≠ .rename true)
    (ran : run.step xxh32 call = some next) : next.file = run.file := by
  unfold SaveRun.step at ran
  cases pc : run.pc <;> cases call <;>
    simp only [pc, reduceCtorEq, Option.some.injEq] at ran <;> subst ran
  case replacing.rename ok =>
    have failed : ok = false := by
      cases ok with
      | true => exact absurd rfl other
      | false => rfl
    subst failed
    rfl
  all_goals rfl

theorem save_renames {run next : SaveRun} (inSave : InSave xxh32 run)
    (ran : run.step xxh32 (.rename true) = some next) :
    ∃ now, next.file = some (checkpointImage xxh32 now run.entries) := by
  rcases inSave.stage with early | ⟨clearing, _⟩
  · rcases early_step xxh32 early ran with ⟨other, _⟩ | ⟨_, _, replaced⟩
    · exact absurd rfl other
    · exact replaced.file
  · unfold SaveRun.step at ran
    rw [clearing] at ran
    cases ran

/-- A call of `save`. The rename replaces the saved map by the copy. -/
theorem DirectoryInv.saved_call (inv : DirectoryInv xxh32 regime content s map)
    (isRunning : s.running = some p) {run next : SaveRun} {call : SaveCall}
    (isSaver : p.saver = some run)
    (ran : { run with file := s.checkpoint, dirty := p.dirty }.step xxh32 call = some next)
    {saver : Option SaveRun}
    (finished : saver = none ∧ (∃ status, next.pc = .returned status) ∨
      saver = some next ∧ ∀ status, next.pc ≠ .returned status)
    {marks : List Mark} (history : SavedRun regime.policy marks map) :
    ∃ mapAfter,
      SavedRun regime.policy ((if call = .rename true then [.replaced] else []) ++ marks) mapAfter ∧
        DirectoryInv xxh32 regime content
          { s with checkpoint := next.file, running := some { p with dirty := next.dirty, saver } }
          mapAfter := by
  have before := inv.running p isRunning
  have base := inv.base.saved_call isRunning isSaver ran finished
  have inSave := (inv.base.saver p run isRunning isSaver).1
  have same := save_step_entries xxh32 ran
  rcases before.copied run isSaver with ⟨index, copy, entries, small, isCopy, copies⟩
  have saved := inv.saved
  rw [ledger_running isRunning] at saved copies
  -- the state after the call, whichever map is saved then
  have moves : ∀ savedMap, OnFile xxh32 (p.engine.acked ++ s.old) next.file savedMap →
      DirectoryInv xxh32 regime content
        { s with checkpoint := next.file, running := some { p with dirty := next.dirty, saver } }
        { map with saved := savedMap } := by
    intro savedMap onFile
    refine { base, saved := onFile, stopped := nofun, running := ?_ }
    intro q isQ
    cases isQ
    refine
      { mirrored := before.mirrored
        copied := ?_
        capped := before.capped
        enabled := before.enabled
        cost := before.cost }
    intro other isOther
    rcases finished with ⟨ended, _⟩ | ⟨goesOn, _⟩
    · rw [show saver = some other from isOther] at ended
      cases ended
    · rw [show saver = some other from isOther] at goesOn
      cases goesOn
      exact ⟨index, copy, same.trans entries, small, isCopy, copies⟩
  by_cases renames : call = .rename true
  · subst renames
    rcases save_renames inSave ran with ⟨now, file⟩
    refine ⟨_, history.replaced isCopy, moves copy ?_⟩
    rw [file, entries]
    exact copies.on_file (agrees_image now index small)
  · rw [if_neg renames, List.nil_append]
    refine ⟨map, history, moves map.saved ?_⟩
    rw [save_keeps_file renames ran]
    exact saved

/-- The process has ended, and its blob store keeps its part of the ledger. -/
theorem DirectoryInv.ended {checkpoint : Option (List UInt8)} {found : Option T2} {saved : Contents}
    (isRunning : s.running = some p)
    (base : GenerationInv xxh32 content ({ s with checkpoint }.ended found))
    (onFile : OnFile xxh32 s.ledger checkpoint saved)
    (left : p.engine.t2Store = none ∧ found = none ∨ ∃ t2, found = some t2 ∧ t2.acked = p.engine.acked) :
    DirectoryInv xxh32 regime content ({ s with checkpoint }.ended found) { saved } := by
  rw [ledger_running isRunning] at onFile
  rcases left with ⟨noStore, rfl⟩ | ⟨t2, rfl, acked⟩
  · have fresh : p.engine.acked = [] := by rw [Engine.acked, noStore]
    rw [fresh, List.nil_append] at onFile
    exact { base, saved := onFile, stopped := fun _ => rfl, running := fun q isQ => by cases isQ }
  · rw [← acked] at onFile
    exact { base, saved := onFile, stopped := fun _ => rfl, running := fun q isQ => by cases isQ }

/-- A crash leaves the ledger as it is, in the sleep of a write too. -/
theorem crashed_acked {point : CrashPoint} {found : Option T2} (ran : p.crashed point = some found) :
    p.engine.t2Store = none ∧ found = none ∨ ∃ t2, found = some t2 ∧ t2.acked = p.engine.acked := by
  cases point with
  | between =>
      cases ran
      cases isStore : p.engine.t2Store with
      | none => exact .inl ⟨rfl, rfl⟩
      | some t2 => exact .inr ⟨t2, rfl, (Engine.acked_of_store isStore).symm⟩
  | inWrite request io last =>
      simp only [Running.crashed] at ran
      split at ran
      · contradiction
      · rename_i t2 isStore
        rw [Option.map_eq_some_iff] at ran
        rcases ran with ⟨cut, ran, rfl⟩
        refine .inr ⟨cut, rfl, ?_⟩
        rw [Engine.acked_of_store isStore]
        simp only [T2.writeCut] at ran
        split at ran
        · contradiction
        · rename_i middle flushed
          split at ran
          · rename_i store entered
            exact (T2.sleep_cut_frame ran).2.trans (T2.flush_run_frame flushed).1
          · contradiction
  | inClose steps count headers =>
      simp only [Running.crashed] at ran
      split_ifs at ran
      split at ran
      · contradiction
      · rename_i t2 isStore
        rw [Option.map_eq_some_iff] at ran
        rcases ran with ⟨store, _, rfl⟩
        exact .inr ⟨_, rfl, (Engine.acked_of_store isStore).symm⟩

theorem final_save_renames {file checkpoint : Option (List UInt8)} {calls : List SaveCall}
    (ran : p.finalSave xxh32 file calls = some checkpoint) :
    .rename true ∉ calls ∧ checkpoint = file ∨
      .rename true ∈ calls ∧
        ∃ now, checkpoint = some (checkpointImage xxh32 now p.engine.index.snapshot) := by
  unfold Running.finalSave at ran
  split_ifs at ran with dirty nothing
  · split at ran
    · contradiction
    · rename_i run stepped
      split at ran
      · cases ran
        have early := early_start xxh32
          { entries := p.engine.index.snapshot, file, dirty := true } rfl rfl
        rcases early_run xxh32 early stepped with ⟨absent, ⟨kept, _⟩, _⟩ | ⟨present, _, _, replaced⟩
        · exact .inl ⟨absent, kept.file⟩
        · exact .inr ⟨present, replaced.file⟩
      · cases ran
  · cases ran
    rw [nothing]
    exact .inl ⟨List.not_mem_nil, rfl⟩

/-- The last save of `close` copies the map and saves the copy, or does neither. -/
theorem DirectoryInv.final_save (inv : DirectoryInv xxh32 regime content s map)
    (isRunning : s.running = some p) {calls : List SaveCall} {checkpoint : Option (List UInt8)}
    (ran : p.finalSave xxh32 s.checkpoint calls = some checkpoint)
    {marks : List Mark} (history : SavedRun regime.policy marks map) :
    ∃ mapAfter,
      SavedRun regime.policy
        ((if .rename true ∈ calls then [.replaced, .copied] else []) ++ marks) mapAfter ∧
        OnFile xxh32 s.ledger checkpoint mapAfter.saved := by
  have before := inv.running p isRunning
  rcases final_save_renames ran with ⟨absent, rfl⟩ | ⟨present, now, rfl⟩
  · rw [if_neg absent, List.nil_append]
    exact ⟨map, history, inv.saved⟩
  · rw [if_pos present]
    rcases before.mirrored with ⟨contents, current, mirrors⟩
    refine ⟨_, (history.copied current).replaced rfl, ?_⟩
    rw [ledger_running isRunning]
    exact mirrors.copies.on_file (agrees_image now _ before.capped)

theorem DirectoryInv.opened (inv : DirectoryInv xxh32 regime content s map) (down : s.running = none)
    {config : Config} {io : Engine.OpenIo} (reliable : OpensReliably xxh32 s config io)
    (enabled : config.nvmeStore.enabled = true)
    (cost : config.admission.minRecomputeCost ≤ regime.minRecomputeCost)
    (ran : s.recovered xxh32 config io = some p) (buffered : p.engine.AllBuffered)
    (capped : p.engine.index.size ≤ 100000000) :
    DirectoryInv xxh32 regime content { s with running := some p }
      { map with current := some (restored map.saved) } := by
  have ledger : s.ledger = s.old := by rw [Generations.ledger, down]
  rcases recovered_safe inv.base down reliable ran buffered with ⟨safe, fresh, index⟩
  have opening := ran
  unfold Generations.recovered at opening
  rw [Option.map_eq_some_iff] at opening
  rcases opening with ⟨engine, opening, rfl⟩
  have saved := inv.saved
  rw [ledger] at saved
  refine
    { base := inv.base.opened down reliable ran buffered
      saved := saved.grow fun ack member => List.mem_append_right _ member
      stopped := fun down => by cases down
      running := ?_ }
  intro q isQ
  cases isQ
  refine
    { mirrored := ⟨restored map.saved, rfl, ⟨safe.t1, safe.t2, ?_⟩, ?_, ?_⟩
      copied := fun run isSaver => by cases isSaver
      capped
      enabled := ?_
      cost := ?_ }
  · intro key entry found
    rw [index] at found
    rcases saved.recorded key entry found (Engine.loaded_index_not_t1 found) with
      ⟨blob, promised, recorded⟩
    exact ⟨blob, promised, .inFile (recorded.grow fun ack member => List.mem_append_right _ member)⟩
  · intro key entry _ held isHeld fresh
    rcases Option.map_eq_some_iff.1 isHeld with ⟨before, _, rfl⟩
    cases fresh
  · rw [index]
    exact saved.shown
  · rcases Engine.open_engine_enabled opening enabled with ⟨t2, isStore⟩
    rw [isStore]
    exact Option.some_ne_none _
  · rw [(Engine.open_engine_opened opening).sameConfig]
    exact cost

end Keeps

/-! ## Every step -/

section Steps

variable {xxh32 : List UInt8 → UInt32} {regime : Regime} {content : File → Ack → Prop}
  {s after : Generations} {label : GenerationLabel} {map : SavedMap StorageKey PutRecord}

/-- Every step of the processes is what its marks say. -/
theorem directory_step (behind : BehindHeader content)
    (whole : ∀ file ack, BlobStore.Written file ack → content file ack)
    (readable : Readable content regime.crashes)
    (crashing : regime.crashes → content = WrittenOrBlank)
    (inv : DirectoryInv xxh32 regime content s map)
    {marks : List Mark} (history : SavedRun regime.policy marks map)
    (allowed : Within xxh32 regime s label)
    (moved : (generationMachine xxh32).exec s label = some after) :
    ∃ mapAfter, SavedRun regime.policy (label.marks after ++ marks) mapAfter ∧
      DirectoryInv xxh32 regime content after mapAfter := by
  have base := generation_step behind whole
    (fun point isCrash => crashing (allowed.crashes point isCrash)) inv.base allowed.reliable moved
  have capped := fun p => allowed.capped after p moved
  have buffered := fun p => allowed.reliable.buffered after p moved
  have accepted := fun holds p => allowed.accepted holds after p moved
  rcases allowed with ⟨⟨io, _⟩, opens, reads, crashes, _, _⟩
  cases generation_cases moved with
  | opened config openIo p down ran =>
      rcases opens config openIo rfl with ⟨enabled, cost⟩
      exact ⟨_, history.started (inv.stopped down),
        inv.opened down io enabled cost ran (buffered p rfl) (capped p rfl)⟩
  | put key blob opts putIo p status engine isRunning ran =>
      rcases (inv.running p isRunning).mirrored with ⟨contents, current, mirrors⟩
      have later := Engine.put_later (Engine.put_upsert_cases ran)
      rcases Engine.mirrors_put mirrors io (buffered _ rfl) ran with
        ⟨bad, mirrors⟩ | ⟨rfl, settled, mirrors⟩
      · refine ⟨_, ?_, inv.called isRunning base mirrors later (capped _ rfl)⟩
        have event : Call.event (.put key blob opts status) = .turnedAway key { blob, opts } :=
          if_neg bad
        change SavedRun _ (.call (Call.event (.put key blob opts status)) :: marks) _
        rw [event]
        exact history.call current (.turnedAway key _)
      · exact ⟨_, history.call current (.stored key _ settled),
          inv.called isRunning base mirrors later (capped _ rfl)⟩
  | evicted evictIo p more engine isRunning busy ran =>
      have before := inv.running p isRunning
      rcases before.mirrored with ⟨contents, current, mirrors⟩
      rcases Engine.evict_round_cases ran with ⟨rfl, _⟩ | round
      · exact ⟨_, history.settled current (.refl _ contents),
          inv.called isRunning base mirrors (Engine.Later.refl _) before.capped⟩
      · rcases Engine.mirrors_evict_round mirrors io (buffered _ rfl) before.enabled before.cost
          (fun holds => accepted holds _ rfl) round with ⟨left, settles, mirrors⟩
        exact ⟨_, history.settled current settles,
          inv.called isRunning base mirrors (Engine.evict_round_later round) (capped _ rfl)⟩
  | get key bufLen getIo p reply engine isRunning ran =>
      have before := inv.running p isRunning
      rcases before.mirrored with ⟨contents, current, mirrors⟩
      have right := Engine.mirrors_answer mirrors readable io (reads key bufLen getIo rfl)
        before.enabled ran
      have cases := Engine.get_cases ran
      exact ⟨_, history.call current (.answered key ({ bufLen, reply } : GetAnswer) right),
        inv.called isRunning base (Engine.mirrors_get mirrors io cases) (Engine.get_later cases)
          (capped _ rfl)⟩
  | del key p isRunning =>
      rcases (inv.running p isRunning).mirrored with ⟨contents, current, mirrors⟩
      have cases := Engine.del_cases p.engine key
      have later := Engine.del_later cases
      rcases Engine.mirrors_del mirrors cases with ⟨missed, missing, mirrors⟩ | ⟨ok, present, mirrors⟩
      · refine ⟨_, ?_, inv.called isRunning base mirrors later (capped _ rfl)⟩
        have event : Call.event (.del key (p.engine.del key).1) = .absent key := by
          rw [missed]
          rfl
        change SavedRun _ (.call (Call.event (.del key (p.engine.del key).1)) :: marks) _
        rw [event]
        exact history.call current (.absent key missing)
      · refine ⟨_, ?_, inv.called isRunning base mirrors later (capped _ rfl)⟩
        have event : Call.event (.del key (p.engine.del key).1) = .removed key := by
          rw [ok]
          rfl
        change SavedRun _ (.call (Call.event (.del key (p.engine.del key).1)) :: marks) _
        rw [event]
        exact history.call current (.removed key present)
  | flushed step p t2 t2After isRunning isStore ran =>
      have before := inv.running p isRunning
      rcases before.mirrored with ⟨contents, current, mirrors⟩
      have later : Engine.Later p.engine { p.engine with t2Store := some t2After } :=
        Engine.later_new_store rfl rfl isStore rfl (T2.flush_run_later ran)
      have moved := inv.called isRunning base (Engine.mirrors_flush mirrors isStore io ran) later
        before.capped
      rw [← current] at moved
      exact ⟨map, history, moved⟩
  | beganSave p isRunning =>
      rcases (inv.running p isRunning).mirrored with ⟨contents, current, mirrors⟩
      exact ⟨_, history.copied current, inv.began_save isRunning current mirrors⟩
  | saved call p run next isRunning isSaver ran saver finished =>
      exact inv.saved_call isRunning isSaver ran finished history
  | closed calls closeIo p checkpoint found isRunning settled idle saved store =>
      rcases inv.final_save isRunning saved history with ⟨mapSaved, historySaved, onFile⟩
      refine ⟨_, historySaved.stopped, .ended isRunning base onFile ?_⟩
      rcases store with ⟨noStore, rfl⟩ | ⟨t2, store, isStore, _, rfl⟩
      · exact .inl ⟨noStore, rfl⟩
      · exact .inr ⟨_, rfl, (Engine.acked_of_store isStore).symm⟩
  | crashed point p found isRunning ran =>
      exact ⟨_, history.stopped, .ended isRunning base inv.saved (crashed_acked ran)⟩

/-- What `contains` answers, and which entries a restart brings back. -/
structure Presents (s : Generations) (map : SavedMap StorageKey PutRecord) : Prop where
  stopped : s.running = none → map.current = none
  running : ∀ p, s.running = some p → ∃ contents, map.current = some contents ∧
    ∀ key, (contents key).map Held.settled =
      (p.engine.index.find key).map fun entry => decide (entry.tier ≠ kT1Dram)

theorem DirectoryInv.presents (inv : DirectoryInv xxh32 regime content s map) : Presents s map where
  stopped := inv.stopped
  running p isRunning := by
    rcases (inv.running p isRunning).mirrored with ⟨contents, current, mirrors⟩
    refine ⟨contents, current, fun key => ?_⟩
    rcases mirrors.shown key with ⟨absent, missing⟩ | ⟨entry, held, found, isHeld, shows⟩
    · rw [absent, missing]
      rfl
    · rw [found, isHeld, Option.map_some, Option.map_some, shows.settled]

variable {j : Journal}

/-- The bottom of the simulation: what is known of the files of earlier
processes depends on whether any of them crashed. -/
theorem journal_inv
    (reached : ReachWithin (journalMachine xxh32) (fun j => Within xxh32 regime j.dirs) j) :
    ∃ content map, SavedRun regime.policy j.marks map ∧
      DirectoryInv xxh32 regime content j.dirs map := by
  have simulated : ∀ content : File → Ack → Prop, BehindHeader content →
      (∀ file ack, BlobStore.Written file ack → content file ack) →
      Readable content regime.crashes → (regime.crashes → content = WrittenOrBlank) →
      ∃ map, SavedRun regime.policy j.marks map ∧ DirectoryInv xxh32 regime content j.dirs map := by
    intro content behind whole readable crashing
    apply reached.invariant (fun j => ∃ map, SavedRun regime.policy j.marks map ∧
      DirectoryInv xxh32 regime content j.dirs map)
    · rintro start rfl
      exact ⟨{}, .nil,
        { base := generation_start rfl
          saved := on_file_none xxh32 []
          stopped := fun _ => rfl
          running := fun p isRunning => by cases isRunning }⟩
    · rintro before label after ⟨map, history, inv⟩ allowed moved
      simp only [journalMachine, Option.map_eq_some_iff] at moved
      rcases moved with ⟨dirs, moved, rfl⟩
      exact directory_step behind whole readable crashing inv history allowed moved
  by_cases crashes : regime.crashes
  · refine ⟨WrittenOrBlank, simulated _ written_or_blank_behind_header (fun _ _ => Or.inl) ?_
      fun _ => rfl⟩
    rintro file ack (written | blank)
    · exact .inl written
    · exact .inr ⟨crashes, blank⟩
  · exact ⟨BlobStore.Written, simulated _ written_behind_header (fun _ _ => id) (fun _ _ => Or.inl)
      fun holds => absurd holds crashes⟩

/-- In every run of processes on one directory the calls are those of a map that
is saved and restored. Expensive blobs are kept while a process runs and no
write is refused. A get of a blob that is not empty misses it only if it was
stored by an earlier process and a process has crashed. -/
theorem directory_refines_saved_map
    (reached : ReachWithin (journalMachine xxh32) (fun j => Within xxh32 regime j.dirs) j) :
    ∃ map, SavedRun regime.policy j.marks map ∧ Presents j.dirs map := by
  rcases journal_inv reached with ⟨content, map, history, inv⟩
  exact ⟨map, history, inv.presents⟩

/-- Every get answers from the journal: a `kOk` has the blob of the last put, or
of the last put before the snapshot that the process goes back to, and a key
that has none is not found. -/
theorem gets_follow_journal
    (reached : ReachWithin (journalMachine xxh32) (fun j => Within xxh32 regime j.dirs) j)
    {key : StorageKey} {answer : GetAnswer} {earlier : List Mark}
    (asked : j.marks = .call (.answered key answer) :: earlier) :
    (answer.reply.status = .kOk →
      ∃ record, (expected earlier).current key = some record ∧ answer.reply.bytes = record.blob) ∧
      ((expected earlier).current key = none → answer.reply = { status := .kNotFound }) := by
  rcases journal_inv reached with ⟨content, map, history, _⟩
  rw [asked] at history
  rcases history.answered with missed | ⟨held, isExpected, right⟩
  · have missed : answer.reply = { status := .kNotFound } := missed
    refine ⟨fun ok => ?_, fun _ => missed⟩
    rw [missed] at ok
    cases ok
  · refine ⟨fun ok => ⟨held.value, isExpected, ?_⟩, fun none => ?_⟩
    · rcases (right : T2.AnswersFor (regime.crashes ∧ held.fresh = false) held.value.blob answer.bufLen
          answer.reply) with whole | ⟨_, missed⟩
      · rw [whole] at ok ⊢
        unfold replyFor at ok ⊢
        split_ifs at ok ⊢
        rfl
      · rw [missed] at ok
        cases ok
    · rw [none] at isExpected
      cases isExpected

end Steps

/-! ## A delete that a crash takes back -/

def rollbackRegime : Regime where
  minRecomputeCost := tieredConfig.admission.minRecomputeCost
  refusals := False
  crashes := True

def rollbackLabels : List GenerationLabel :=
  [tieredOpen []] ++ tieredPutCalls ++ [.beginSave] ++ (saveCalls 1).map .saveCall ++
    [.del probeKey, .crash (.inClose [.pop, .write .complete, .release] 0 fun _ => {}),
      tieredOpen [0], .get probeKey 1 {}]

def rollbackRun : Journal := last (journalMachine tieredHash) {} rollbackLabels

def withinCheck (s : Generations) (label : GenerationLabel) : Bool :=
  reliableCheck tieredHash s label &&
    (match label with
    | .openEngine config _ => decide (config = tieredConfig)
    | .get _ _ io => io.first.readOk && io.second.readOk
    | _ => true) &&
    ((generationMachine tieredHash).exec s label).all fun after =>
      after.running.all fun p => decide (p.engine.index.size ≤ 100000000) &&
        p.engine.t2Store.any fun t2 => t2.refused = 0

theorem within_check_sound (s : Generations) (label : GenerationLabel)
    (checked : withinCheck s label = true) : Within tieredHash rollbackRegime s label := by
  simp only [withinCheck, Bool.and_eq_true] at checked
  rcases checked with ⟨⟨reliable, calls⟩, bounds⟩
  have bounded : ∀ after p, (generationMachine tieredHash).exec s label = some after →
      after.running = some p → p.engine.index.size ≤ 100000000 ∧ p.engine.NoneRefused := by
    intro after p moved isRunning
    rw [moved, Option.all_some, isRunning, Option.all_some, Bool.and_eq_true, decide_eq_true_eq,
      Option.any_eq_true] at bounds
    rcases bounds with ⟨capped, t2, isStore, none⟩
    exact ⟨capped, t2, isStore, of_decide_eq_true none⟩
  refine
    { reliable := reliable_check_sound tieredHash s label reliable
      opens := ?_
      reads := ?_
      crashes := fun _ _ => trivial
      capped := fun after p moved isRunning => (bounded after p moved isRunning).1
      accepted := fun _ after p moved isRunning => (bounded after p moved isRunning).2 }
  · rintro config io rfl
    have same : config = tieredConfig := of_decide_eq_true calls
    subst same
    exact ⟨rfl, UInt32.le_refl _⟩
  · rintro key bufLen io rfl
    simpa using calls

theorem rollback_reached : ReachWithin (journalMachine tieredHash)
    (fun j => Within tieredHash rollbackRegime j.dirs) rollbackRun :=
  ReachWithin.to_last (fun _ => True) (fun j => withinCheck j.dirs)
    (fun j label _ => within_check_sound j.dirs label) (fun _ _ _ _ _ _ => trivial) (.start rfl) trivial
    rollbackLabels (by decide +kernel)

/-- The get after the crash returns the blob that was deleted before it. -/
theorem directory_refines_saved_map_rollback :
    rollbackRun.dirs.log.take 2 =
      [.get probeKey 1 { status := .kOk, bytes := [7] }, .del probeKey .kOk] ∧
    ∃ map, SavedRun rollbackRegime.policy rollbackRun.marks map ∧ Presents rollbackRun.dirs map :=
  ⟨by decide +kernel, directory_refines_saved_map rollback_reached⟩

deriving instance DecidableEq for PutRecord

/-- What the get after the crash had to answer. -/
theorem gets_follow_journal_rollback :
    ∃ record, (expected rollbackRun.marks.tail).current probeKey = some record ∧ [7] = record.blob := by
  have asked : rollbackRun.marks =
      .call (.answered probeKey { bufLen := 1, reply := { status := .kOk, bytes := [7] } }) ::
        rollbackRun.marks.tail := by
    decide +kernel
  exact (gets_follow_journal rollback_reached asked).1 rfl

end AttentionDB
