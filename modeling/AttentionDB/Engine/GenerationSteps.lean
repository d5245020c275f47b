import AttentionDB.Engine.Generations

/-!
# What the generations of a process keep

Every entry that a checkpoint file or a running `save` holds outside T1 has its
blob in the ledger, and every entry of the ledger has its file. A process that
ends leaves both as they are, and `open` builds the invariant of the engine
from them again.
-/

namespace AttentionDB

open GuardedRuns ByteMap BlobStore Checkpoint

set_option autoImplicit false

/-! ## The steps -/

/-- The steps of a process, each with what its calls did. -/
inductive GenerationCases (xxh32 : List UInt8 → UInt32) (s : Generations) :
    GenerationLabel → Generations → Prop where
  | opened (config : Config) (io : Engine.OpenIo) (p : Running) (down : s.running = none)
      (ran : s.recovered xxh32 config io = some p) :
      GenerationCases xxh32 s (.openEngine config io) { s with running := some p }
  | put (key : StorageKey) (blob : List UInt8) (opts : PutOpts) (io : PutIo) (p : Running)
      (status : Status) (engine : Engine) (isRunning : s.running = some p)
      (ran : p.engine.putUpsert key blob opts io = some (status, engine)) :
      GenerationCases xxh32 s (.put key blob opts io)
        { s with
          running := some { p with
            engine
            evicting := status = .kOk
            dirty := p.dirty || status = .kOk }
          log := .put key blob opts status :: s.log }
  | evicted (io : EvictIo) (p : Running) (more : Bool) (engine : Engine)
      (isRunning : s.running = some p) (busy : p.evicting = true)
      (ran : p.engine.evictRound io = some (more, engine)) :
      GenerationCases xxh32 s (.evict io)
        { s with running := some { p with engine, evicting := more } }
  | get (key : StorageKey) (bufLen : Nat) (io : GetIo) (p : Running) (reply : ReadReply)
      (engine : Engine) (isRunning : s.running = some p)
      (ran : p.engine.get key bufLen io = some (reply, engine)) :
      GenerationCases xxh32 s (.get key bufLen io)
        { s with
          running := some { p with engine, dirty := p.dirty || p.engine.getTouches key bufLen }
          log := .get key bufLen reply :: s.log }
  | del (key : StorageKey) (p : Running) (isRunning : s.running = some p) :
      GenerationCases xxh32 s (.del key)
        { s with
          running := some { p with
            engine := (p.engine.del key).2
            dirty := p.dirty || (p.engine.del key).1 = .kOk }
          log := .del key (p.engine.del key).1 :: s.log }
  | flushed (step : FlushStep) (p : Running) (t2 t2After : T2) (isRunning : s.running = some p)
      (isStore : p.engine.t2Store = some t2) (ran : t2.flushRun [step] = some t2After) :
      GenerationCases xxh32 s (.flush step)
        { s with running := some { p with engine := { p.engine with t2Store := some t2After } } }
  | beganSave (p : Running) (isRunning : s.running = some p) (dirty : p.dirty = true)
      (idle : p.saver = none) :
      GenerationCases xxh32 s .beginSave
        { s with
          running := some { p with
            saver := some
              { entries := p.engine.index.snapshot, file := s.checkpoint, dirty := p.dirty } } }
  | saved (call : SaveCall) (p : Running) (run after : SaveRun) (isRunning : s.running = some p)
      (isSaver : p.saver = some run)
      (ran : { run with file := s.checkpoint, dirty := p.dirty }.step xxh32 call = some after)
      (saver : Option SaveRun)
      (finished : saver = none ∧ (∃ status, after.pc = .returned status) ∨
        saver = some after ∧ ∀ status, after.pc ≠ .returned status) :
      GenerationCases xxh32 s (.saveCall call)
        { s with checkpoint := after.file, running := some { p with dirty := after.dirty, saver } }
  | closed (calls : List SaveCall) (io : CloseIo) (p : Running) (checkpoint : Option (List UInt8))
      (found : Option T2) (isRunning : s.running = some p) (settled : p.evicting = false)
      (idle : p.saver = none)
      (saved : p.finalSave xxh32 s.checkpoint calls = some checkpoint)
      (store : p.engine.t2Store = none ∧ found = none ∨ ∃ t2 store, p.engine.t2Store = some t2 ∧
        t2.store.close t2.flush io = some store ∧ found = some { t2 with store }) :
      GenerationCases xxh32 s (.close calls io) ({ s with checkpoint }.ended found)
  | crashed (point : CrashPoint) (p : Running) (found : Option T2) (isRunning : s.running = some p)
      (ran : p.crashed point = some found) :
      GenerationCases xxh32 s (.crash point) (s.ended found)

section Inversion

variable {xxh32 : List UInt8 → UInt32} {s after : Generations} {label : GenerationLabel}
  {p : Running}

theorem client_cases (isRunning : s.running = some p) (settled : p.evicting = false)
    (moved : s.execClient xxh32 p label = some after) : GenerationCases xxh32 s label after := by
  cases label with
  | put key blob opts io =>
      simp only [Generations.execClient] at moved
      split at moved
      · contradiction
      · rename_i status engine ran
        cases moved
        exact .put key blob opts io p status engine isRunning ran
  | get key bufLen io =>
      simp only [Generations.execClient] at moved
      split at moved
      · contradiction
      · rename_i reply engine ran
        cases moved
        exact .get key bufLen io p reply engine isRunning ran
  | del key =>
      cases moved
      exact .del key p isRunning
  | close calls io =>
      simp only [Generations.execClient] at moved
      split_ifs at moved with busy
      have idle : p.saver = none := by simpa using busy
      split at moved
      · contradiction
      · rename_i checkpoint saved
        split at moved
        · rename_i noStore
          cases moved
          exact .closed calls io p checkpoint none isRunning settled idle saved (.inl ⟨noStore, rfl⟩)
        · rename_i t2 isStore
          rw [Option.map_eq_some_iff] at moved
          rcases moved with ⟨store, closed, rfl⟩
          exact .closed calls io p checkpoint (some { t2 with store }) isRunning settled idle saved
            (.inr ⟨t2, store, isStore, closed, rfl⟩)
  | openEngine | evict | flush | beginSave | saveCall | crash => cases moved

theorem generation_cases (moved : (generationMachine xxh32).exec s label = some after) :
    GenerationCases xxh32 s label after := by
  cases isRunning : s.running with
  | none =>
      cases label with
      | openEngine config io =>
          simp only [generationMachine, Generations.exec, isRunning, Option.map_eq_some_iff] at moved
          rcases moved with ⟨p, ran, rfl⟩
          exact .opened config io p isRunning ran
      | _ =>
          simp only [generationMachine, Generations.exec, isRunning] at moved
          cases moved
  | some p =>
      have client : (if p.evicting then none else s.execClient xxh32 p label) = some after →
          GenerationCases xxh32 s label after := by
        intro moved
        split_ifs at moved with busy
        exact client_cases isRunning (by simpa using busy) moved
      cases label with
      | openEngine config io =>
          simp only [generationMachine, Generations.exec, isRunning] at moved
          cases moved
      | evict io =>
          simp only [generationMachine, Generations.exec, isRunning] at moved
          split_ifs at moved with busy
          rw [Option.map_eq_some_iff] at moved
          rcases moved with ⟨⟨more, engine⟩, ran, rfl⟩
          exact .evicted io p more engine isRunning busy ran
      | flush step =>
          simp only [generationMachine, Generations.exec, isRunning] at moved
          split at moved
          · contradiction
          · rename_i t2 isStore
            rw [Option.map_eq_some_iff] at moved
            rcases moved with ⟨t2After, ran, rfl⟩
            exact .flushed step p t2 t2After isRunning isStore ran
      | beginSave =>
          simp only [generationMachine, Generations.exec, isRunning] at moved
          split_ifs at moved with ready
          cases moved
          exact .beganSave p isRunning ready.1 ready.2
      | saveCall call =>
          simp only [generationMachine, Generations.exec, isRunning, Option.map_eq_some_iff] at moved
          rcases moved with ⟨⟨checkpoint, pAfter⟩, ran, rfl⟩
          unfold Running.saveCall at ran
          split at ran
          · contradiction
          · rename_i run isSaver
            split at ran
            · contradiction
            · rename_i next stepped
              cases ran
              apply GenerationCases.saved call p run next isRunning isSaver stepped
              split
              · rename_i status returned
                exact .inl ⟨rfl, status, returned⟩
              · rename_i notReturned
                exact .inr ⟨rfl, notReturned⟩
      | crash point =>
          simp only [generationMachine, Generations.exec, isRunning, Option.map_eq_some_iff] at moved
          rcases moved with ⟨found, ran, rfl⟩
          exact .crashed point p found isRunning ran
      | put | get | del | close =>
          simp only [generationMachine, Generations.exec, isRunning] at moved
          exact client moved

end Inversion

/-! ## The invariant -/

/-- A put of the key with this blob returned `kOk` or was about to. -/
def Issued (log : List Call) (key : StorageKey) (blob : List UInt8) : Prop :=
  ∃ opts, Call.put key blob opts .kOk ∈ log

def RecordsSafe (ledger : List Ack) (log : List Call) (entries : List Record) : Prop :=
  ∀ record ∈ entries, record.2.tier ≠ kT1Dram →
    ∃ blob, Issued log record.1 blob ∧ Recorded ledger record.2 blob

def SavedSafe (xxh32 : List UInt8 → UInt32) (ledger : List Ack) (log : List Call)
    (file : Option (List UInt8)) : Prop :=
  ∀ bytes, file = some bytes → ∃ now entries, bytes = checkpointImage xxh32 now entries ∧
    RecordsSafe ledger log entries

structure GenerationInv (xxh32 : List UInt8 → UInt32) (content : File → Ack → Prop)
    (s : Generations) : Prop where
  survives : ∀ ack ∈ s.old, Survives content s.files s.ids ack
  idsSmall : ∀ id ∈ s.ids, id < 2 ^ 32
  saved : SavedSafe xxh32 s.ledger s.log s.checkpoint
  safe : ∀ p, s.running = some p → SafeInv content s.old (Issued s.log) p.engine
  buffered : ∀ p, s.running = some p → p.engine.AllBuffered
  saver : ∀ p run, s.running = some p → p.saver = some run →
    InSave xxh32 { run with file := s.checkpoint, dirty := p.dirty } ∧
      RecordsSafe s.ledger s.log run.entries

section Records

variable {xxh32 : List UInt8 → UInt32} {ledger wider : List Ack} {log longer : List Call}
  {entries : List Record} {file : Option (List UInt8)}

theorem issued_cons {key : StorageKey} {blob : List UInt8} (call : Call) (issued : Issued log key blob) :
    Issued (call :: log) key blob := by
  rcases issued with ⟨opts, member⟩
  exact ⟨opts, List.mem_cons_of_mem _ member⟩

theorem RecordsSafe.grow (safe : RecordsSafe ledger log entries) (grown : ∀ ack ∈ ledger, ack ∈ wider)
    (issued : ∀ key blob, Issued log key blob → Issued longer key blob) :
    RecordsSafe wider longer entries := by
  intro record member notInT1
  rcases safe record member notInT1 with ⟨blob, put, recorded⟩
  exact ⟨blob, issued _ _ put, recorded.grow grown⟩

theorem SavedSafe.grow (safe : SavedSafe xxh32 ledger log file) (grown : ∀ ack ∈ ledger, ack ∈ wider)
    (issued : ∀ key blob, Issued log key blob → Issued longer key blob) :
    SavedSafe xxh32 wider longer file := by
  intro bytes isFile
  rcases safe bytes isFile with ⟨now, entries, image, records⟩
  exact ⟨now, entries, image, records.grow grown issued⟩

theorem SavedSafe.image (now : UInt64) (records : RecordsSafe ledger log entries)
    (isImage : file = some (checkpointImage xxh32 now entries)) : SavedSafe xxh32 ledger log file := by
  intro bytes isFile
  rw [isImage] at isFile
  cases isFile
  exact ⟨now, entries, rfl, records⟩

/-- What is loaded from an image was saved in it, outside T1. -/
theorem accepted_found {now : UInt64} {key : StorageKey} {entry : IndexEntry}
    (found : (Engine.loadedIndex (Generations.acceptedCheckpoint xxh32
      (some (checkpointImage xxh32 now entries)))).find key = some entry) :
    (key, entry) ∈ entries ∧ entry.tier ≠ kT1Dram := by
  refine ⟨?_, Engine.loaded_index_not_t1 found⟩
  unfold Generations.acceptedCheckpoint at found
  dsimp only at found
  split_ifs at found with ok
  · rw [Engine.loadedIndex, Engine.scrub_t1_find,
      ConcurrentHashMap.find_bulk_load_snapshot _ key (List.Perm.refl _),
      Option.filter_eq_some_iff] at found
    exact load_image_found xxh32 found.1
  · cases found

theorem accepted_missing : Generations.acceptedCheckpoint xxh32 none = none := rfl

end Records

section Keeps

variable {xxh32 : List UInt8 → UInt32} {content : File → Ack → Prop} {s after : Generations}
  {p : Running}

theorem ledger_running (isRunning : s.running = some p) : s.ledger = p.engine.acked ++ s.old := by
  rw [Generations.ledger, isRunning]

/-- The entries of a snapshot. -/
theorem snapshot_safe {old : List Ack} {log : List Call} {e : Engine}
    (safe : SafeInv content old (Issued log) e) :
    RecordsSafe (e.acked ++ old) log e.index.snapshot := by
  rintro ⟨key, entry⟩ member notInT1
  rcases safe.held key entry ((e.index.mem_snapshot key entry).1 member) with ⟨blob, put, stands⟩
  exact ⟨blob, put, stands.recorded notInT1⟩

/-- The engine moved on, and the flag may have been set. -/
theorem GenerationInv.moved (inv : GenerationInv xxh32 content s) (isRunning : s.running = some p)
    {engine : Engine} {evicting dirty : Bool} {log : List Call}
    (issued : ∀ key blob, Issued s.log key blob → Issued log key blob)
    (safe : SafeInv content s.old (Issued log) engine) (later : Engine.Later p.engine engine)
    (buffered : engine.AllBuffered) :
    GenerationInv xxh32 content
      { s with running := some { p with engine, evicting, dirty }, log } := by
  have grown : ∀ ack ∈ s.ledger, ack ∈ engine.acked ++ s.old := by
    rw [ledger_running isRunning]
    exact Engine.acked_later later
  refine
    { survives := inv.survives
      idsSmall := inv.idsSmall
      saved := inv.saved.grow grown issued
      safe := ?_
      buffered := ?_
      saver := ?_ }
  · intro q isQ
    cases isQ
    exact safe
  · intro q isQ
    cases isQ
    exact buffered
  · intro q run isQ isSaver
    cases isQ
    rcases inv.saver p run isRunning isSaver with ⟨inSave, records⟩
    exact ⟨inSave.flagged xxh32 dirty, records.grow grown issued⟩

theorem GenerationInv.began_save (inv : GenerationInv xxh32 content s)
    (isRunning : s.running = some p) :
    GenerationInv xxh32 content
      { s with
        running := some { p with
          saver := some
            { entries := p.engine.index.snapshot, file := s.checkpoint, dirty := p.dirty } } } := by
  have records := snapshot_safe (inv.safe p isRunning)
  refine
    { survives := inv.survives
      idsSmall := inv.idsSmall
      saved := ?_
      safe := ?_
      buffered := ?_
      saver := ?_ }
  · have saved := inv.saved
    rw [ledger_running isRunning] at saved
    exact saved
  · intro q isQ
    cases isQ
    exact inv.safe p isRunning
  · intro q isQ
    cases isQ
    exact inv.buffered p isRunning
  · intro q run isQ isSaver
    cases isQ
    cases isSaver
    exact ⟨in_save_start xxh32 _ _ _, records⟩

theorem GenerationInv.saved_call (inv : GenerationInv xxh32 content s) (isRunning : s.running = some p)
    {run next : SaveRun} {call : SaveCall} (isSaver : p.saver = some run)
    (ran : { run with file := s.checkpoint, dirty := p.dirty }.step xxh32 call = some next)
    {saver : Option SaveRun}
    (finished : saver = none ∧ (∃ status, next.pc = .returned status) ∨
      saver = some next ∧ ∀ status, next.pc ≠ .returned status) :
    GenerationInv xxh32 content
      { s with checkpoint := next.file, running := some { p with dirty := next.dirty, saver } } := by
  rcases inv.saver p run isRunning isSaver with ⟨inSave, records⟩
  rcases in_save_step xxh32 inSave ran with ⟨entries, moved⟩
  rw [ledger_running isRunning] at records
  have saved := inv.saved
  rw [ledger_running isRunning] at saved
  refine
    { survives := inv.survives
      idsSmall := inv.idsSmall
      saved := ?_
      safe := ?_
      buffered := ?_
      saver := ?_ }
  · cases moved with
    | kept file =>
        rw [file]
        exact saved
    | renamed now file => exact .image now records file
    | cleared now file => exact .image now records file
  · intro q isQ
    cases isQ
    exact inv.safe p isRunning
  · intro q isQ
    cases isQ
    exact inv.buffered p isRunning
  · intro q other isQ isOther
    cases isQ
    rcases finished with ⟨ended, _⟩ | ⟨goesOn, notReturned⟩
    · rw [show saver = some other from isOther] at ended
      cases ended
    · rw [show saver = some other from isOther] at goesOn
      cases goesOn
      refine ⟨?_, by rw [entries]; exact records⟩
      cases moved with
      | kept file dirty stage =>
          rcases stage with still | ⟨status, returned⟩
          · exact still
          · exact absurd returned (notReturned status)
      | renamed now file dirty still => exact still
      | cleared now file dirty returned => exact absurd returned (notReturned _)

end Keeps

/-! ## A process ends and another begins -/

/-- The directory lists every segment file, each can be opened, and the slab
classes get regions of their own. -/
structure OpensReliably (xxh32 : List UInt8 → UInt32) (s : Generations) (config : Config)
    (io : Engine.OpenIo) : Prop where
  listing : ∃ (listing : List ScanEntry) (ids : List Nat), io.store.listing = some listing ∧
    List.Forall₂ FindsFile listing ids ∧ ids.Perm s.ids
  backed : ∀ p a, s.recovered xxh32 config io = some p → p.engine.t1Allocator = some a → a.Backed

/-- No flush write fails and every segment that is needed opens, up to the crash. -/
def CrashPoint.Reliable (p : Running) : CrashPoint → Prop
  | .between => True
  | .inWrite request io last =>
      io.Succeeds ∧ FlushSucceeds last ∧ ∀ t2 cut, p.engine.t2Store = some t2 →
        t2.writeCut request io last = some cut → T2.Buffered cut
  | .inClose steps _ _ => FlushSucceeds steps

section Endings

variable {xxh32 : List UInt8 → UInt32} {content : File → Ack → Prop} {s after : Generations}
  {p : Running}

/-- The index of a new process refers to entries of the ledger only. -/
theorem recovered_held (inv : GenerationInv xxh32 content s) (down : s.running = none)
    (memory : Image) :
    Indexed (fun key entry => ∃ blob, Issued s.log key blob ∧ Stands memory s.old entry blob)
      (Engine.loadedIndex (Generations.acceptedCheckpoint xxh32 s.checkpoint)) := by
  have ledger : s.ledger = s.old := by rw [Generations.ledger, down]
  intro key entry found
  cases isFile : s.checkpoint with
  | none =>
      rw [isFile, accepted_missing] at found
      cases found
  | some bytes =>
      rcases inv.saved bytes isFile with ⟨now, entries, rfl, records⟩
      rw [isFile] at found
      rcases accepted_found found with ⟨member, notInT1⟩
      rcases records (key, entry) member notInT1 with ⟨blob, put, recorded⟩
      rw [ledger] at recorded
      exact ⟨blob, put, .inFile recorded⟩

theorem recovered_safe (inv : GenerationInv xxh32 content s) (down : s.running = none)
    {config : Config} {io : Engine.OpenIo} (reliable : OpensReliably xxh32 s config io)
    (ran : s.recovered xxh32 config io = some p) (buffered : p.engine.AllBuffered) :
    SafeInv content s.old (Issued s.log) p.engine ∧ p = { engine := p.engine } ∧
      p.engine.index = Engine.loadedIndex (Generations.acceptedCheckpoint xxh32 s.checkpoint) := by
  have backed := reliable.backed p
  unfold Generations.recovered at ran backed
  rw [Option.map_eq_some_iff] at ran
  rcases ran with ⟨engine, opening, rfl⟩
  have opened := Engine.open_engine_opened opening
  have regions : ∀ a, engine.t1Allocator = some a → a.Backed := by
    intro a isAllocator
    apply backed a _ isAllocator
    rw [opening]
    rfl
  have fresh : engine.acked = [] := by
    cases isStore : engine.t2Store with
    | none => rw [Engine.acked, isStore]
    | some t2 =>
        rcases opened.t2 t2 isStore with ⟨store, rfl, _⟩
        rw [Engine.acked, isStore]
  refine ⟨{ t1 := ?_, t2 := ?_, held := ?_ }, rfl, opened.index⟩
  · apply T1Inv.opened
    · intro a isAllocator
      exact SlabAllocator.init_classes_layout (opened.t1 a isAllocator) (regions a isAllocator)
    · intro a isAllocator
      exact SlabAllocator.init_classes_free (opened.t1 a isAllocator)
    · intro key entry found
      rw [opened.index] at found
      exact Engine.loaded_index_not_t1 found
  · intro t2 isStore
    have bound := buffered t2 isStore
    rcases opened.t2 t2 isStore with ⟨store, rfl, ran⟩
    rcases reliable.listing with ⟨listing, ids, listed, finds, perm⟩
    have isStore : (openStore config.nvmeStore s.files io.store).2 = store := by rw [ran]
    have ok : (openStore config.nvmeStore s.files io.store).1 = .kOk := by rw [ran]
    have sameConfig : store.config = config.nvmeStore := by
      rw [← isStore]
      exact open_store_config ok
    have small := bound.small
    rw [sameConfig] at small
    have life := Lifetime.opened ok small (by rw [isStore]; exact bound.segments) listed finds
      (fun id member => inv.idsSmall id (perm.mem_iff.1 member))
      (fun ack member =>
        { inv.survives ack member with listed := perm.mem_iff.2 (inv.survives ack member).listed })
    rw [isStore] at life
    exact life
  · rw [fresh, opened.index, List.nil_append]
    exact recovered_held inv down engine.memory

theorem GenerationInv.opened (inv : GenerationInv xxh32 content s) (down : s.running = none)
    {config : Config} {io : Engine.OpenIo} (reliable : OpensReliably xxh32 s config io)
    (ran : s.recovered xxh32 config io = some p) (buffered : p.engine.AllBuffered) :
    GenerationInv xxh32 content { s with running := some p } := by
  rcases recovered_safe inv down reliable ran buffered with ⟨safe, fresh, _⟩
  have saved := inv.saved
  have ledger : s.ledger = s.old := by rw [Generations.ledger, down]
  rw [ledger] at saved
  refine
    { survives := inv.survives
      idsSmall := inv.idsSmall
      saved := saved.grow (fun ack member => List.mem_append_right _ member) fun _ _ issued => issued
      safe := ?_
      buffered := ?_
      saver := ?_ }
  · intro q isQ
    cases isQ
    exact safe
  · intro q isQ
    cases isQ
    exact buffered
  · intro q run isQ isSaver
    cases isQ
    rw [fresh] at isSaver
    cases isSaver

/-- The process ends, and its blob store left its entries in their files. -/
theorem GenerationInv.ended (inv : GenerationInv xxh32 content s) (isRunning : s.running = some p)
    {checkpoint : Option (List UInt8)} (saved : SavedSafe xxh32 s.ledger s.log checkpoint)
    {found : Option T2}
    (left : p.engine.t2Store = none ∧ found = none ∨ ∃ t2, found = some t2 ∧
      t2.acked = p.engine.acked ∧
      (∀ ack ∈ p.engine.acked ++ s.old, Survives content t2.store.files t2.store.segmentIds ack) ∧
      ∀ id ∈ t2.store.segmentIds, id < 2 ^ 32) :
    GenerationInv xxh32 content ({ s with checkpoint }.ended found) := by
  rw [ledger_running isRunning] at saved
  rcases left with ⟨noStore, rfl⟩ | ⟨t2, rfl, acked, survives, small⟩
  · have fresh : p.engine.acked = [] := by rw [Engine.acked, noStore]
    rw [fresh, List.nil_append] at saved
    exact
      { survives := inv.survives
        idsSmall := inv.idsSmall
        saved := saved
        safe := fun q isQ => by cases isQ
        buffered := fun q isQ => by cases isQ
        saver := fun q run isQ => by cases isQ }
  · rw [← acked] at saved survives
    exact
      { survives := survives
        idsSmall := small
        saved := saved
        safe := fun q isQ => by cases isQ
        buffered := fun q isQ => by cases isQ
        saver := fun q run isQ => by cases isQ }

/-- The final save leaves the file or replaces it by the image of the index. -/
theorem final_save_file {file checkpoint : Option (List UInt8)} {calls : List SaveCall}
    (ran : p.finalSave xxh32 file calls = some checkpoint) :
    checkpoint = file ∨ ∃ now, checkpoint = some (checkpointImage xxh32 now p.engine.index.snapshot) := by
  unfold Running.finalSave at ran
  split_ifs at ran
  · split at ran
    · contradiction
    · rename_i run stepped
      split at ran
      · cases ran
        have early := early_start xxh32 { entries := p.engine.index.snapshot, file, dirty := true } rfl rfl
        rcases early_run xxh32 early stepped with ⟨_, ⟨kept, _⟩, _⟩ | ⟨_, _, _, replaced⟩
        · exact .inl kept.file
        · exact .inr replaced.file
      · cases ran
  · cases ran
    exact .inl rfl

theorem GenerationInv.closed (inv : GenerationInv xxh32 content s) (isRunning : s.running = some p)
    (behind : BehindHeader content) (whole : ∀ file ack, Written file ack → content file ack)
    {calls : List SaveCall} {io : CloseIo} (succeeds : FlushSucceeds io.steps)
    {checkpoint : Option (List UInt8)} {found : Option T2}
    (saved : p.finalSave xxh32 s.checkpoint calls = some checkpoint)
    (store : p.engine.t2Store = none ∧ found = none ∨ ∃ t2 store, p.engine.t2Store = some t2 ∧
      t2.store.close t2.flush io = some store ∧ found = some { t2 with store }) :
    GenerationInv xxh32 content ({ s with checkpoint }.ended found) := by
  apply inv.ended isRunning
  · rcases final_save_file saved with rfl | ⟨now, image⟩
    · exact inv.saved
    · rw [ledger_running isRunning]
      exact .image now (snapshot_safe (inv.safe p isRunning)) image
  · rcases store with noStore | ⟨t2, store, isStore, closed, rfl⟩
    · exact .inl noStore
    · refine .inr ⟨_, rfl, (Engine.acked_of_store isStore).symm, ?_⟩
      have alive := (inv.safe p isRunning).t2 t2 isStore
      have segments := (inv.buffered p isRunning t2 isStore).segments
      rcases Lifetime.closed alive behind whole succeeds closed with ⟨ids, survives⟩
      rw [Engine.acked_of_store isStore]
      refine ⟨survives, ?_⟩
      dsimp only
      rw [ids]
      exact alive.ids_small segments

theorem GenerationInv.crashed (inv : GenerationInv xxh32 WrittenOrBlank s)
    (isRunning : s.running = some p) {point : CrashPoint} (reliable : point.Reliable p)
    {found : Option T2} (ran : p.crashed point = some found) :
    GenerationInv xxh32 WrittenOrBlank (s.ended found) := by
  have left : ∀ {t2 : T2} {asleep : Bool}, t2.Alive WrittenOrBlank s.old asleep →
      t2.acked = p.engine.acked → t2.store.nextSegmentId < 2 ^ 32 →
      (∀ ack ∈ p.engine.acked ++ s.old, Survives WrittenOrBlank t2.store.files t2.store.segmentIds ack) ∧
        ∀ id ∈ t2.store.segmentIds, id < 2 ^ 32 := by
    intro t2 asleep alive acked segments
    rw [← acked]
    exact ⟨fun ack member => alive.survives alive.onFile member, alive.ids_small segments⟩
  apply GenerationInv.ended inv isRunning inv.saved
  cases point with
  | between =>
      cases ran
      cases isStore : p.engine.t2Store with
      | none => exact .inl ⟨rfl, rfl⟩
      | some t2 =>
          have acked := (Engine.acked_of_store isStore).symm
          exact .inr ⟨t2, rfl, acked, left ((inv.safe p isRunning).t2 t2 isStore) acked
            (inv.buffered p isRunning t2 isStore).segments⟩
  | inWrite request io last =>
      simp only [Running.crashed] at ran
      split at ran
      · contradiction
      · rename_i t2 isStore
        rw [Option.map_eq_some_iff] at ran
        rcases ran with ⟨cut, ran, rfl⟩
        rcases reliable with ⟨succeeds, lastSucceeds, bound⟩
        have buffered := bound t2 cut isStore ran
        rcases T2.write_cut_alive ((inv.safe p isRunning).t2 t2 isStore) succeeds lastSucceeds ran
          buffered with ⟨alive, acked⟩
        rw [← Engine.acked_of_store isStore] at acked
        exact .inr ⟨cut, rfl, acked, left alive acked buffered.segments⟩
  | inClose steps count headers =>
      simp only [Running.crashed] at ran
      split_ifs at ran
      split at ran
      · contradiction
      · rename_i t2 isStore
        rw [Option.map_eq_some_iff] at ran
        rcases ran with ⟨store, cut, rfl⟩
        refine .inr ⟨_, rfl, (Engine.acked_of_store isStore).symm, ?_⟩
        have alive := (inv.safe p isRunning).t2 t2 isStore
        rcases Lifetime.close_cut alive reliable cut with ⟨ids, survives⟩
        rw [Engine.acked_of_store isStore]
        refine ⟨survives, ?_⟩
        dsimp only
        rw [ids]
        exact alive.ids_small (inv.buffered p isRunning t2 isStore).segments

end Endings

/-! ## Every step -/

/-- The files are reliable: no flush write fails, every segment that is needed
opens, and a new process finds what is there. -/
def Generations.ioReliable (xxh32 : List UInt8 → UInt32) (s : Generations) : GenerationLabel → Prop
  | .openEngine config io => OpensReliably xxh32 s config io
  | .put _ _ _ io => io.t2.Succeeds
  | .evict io => io.t2.Succeeds
  | .get _ _ io => io.first.Succeeds ∧ io.second.Succeeds
  | .flush step => FlushSucceeds [step]
  | .close _ io => FlushSucceeds io.steps
  | .crash point => ∀ p, s.running = some p → point.Reliable p
  | .del _ | .beginSave | .saveCall _ => True

/-- Reliable files, and every blob that the blob store gets takes the buffered
branch in one of fewer than `2 ^ 32` segments. -/
structure Reliable (xxh32 : List UInt8 → UInt32) (s : Generations) (label : GenerationLabel) :
    Prop where
  io : s.ioReliable xxh32 label
  buffered : ∀ after p, (generationMachine xxh32).exec s label = some after →
    after.running = some p → p.engine.AllBuffered

section Steps

variable {xxh32 : List UInt8 → UInt32} {content : File → Ack → Prop} {s after : Generations}
  {label : GenerationLabel}

theorem generation_step (behind : BehindHeader content)
    (whole : ∀ file ack, Written file ack → content file ack)
    (noCrash : ∀ point, label = .crash point → content = WrittenOrBlank)
    (inv : GenerationInv xxh32 content s) (allowed : Reliable xxh32 s label)
    (moved : (generationMachine xxh32).exec s label = some after) :
    GenerationInv xxh32 content after := by
  rcases allowed with ⟨io, buffered⟩
  have buffered := fun p => buffered after p moved
  cases generation_cases moved with
  | opened config openIo p down ran => exact inv.opened down io ran (buffered p rfl)
  | put key blob opts putIo p status engine isRunning ran =>
      -- the put is cut before its evictions, so nothing is asked of them
      have cases : p.engine.PutCases key blob opts { putIo with evictions := fun _ => {} } status
          engine := Engine.put_upsert_cases ran
      have succeeds : Engine.PutSucceeds { putIo with evictions := fun _ => {} } :=
        ⟨io, fun _ => quiet_write_succeeds⟩
      have issued : ∀ key blob, Issued s.log key blob → Issued (_ :: s.log) key blob :=
        fun _ _ => issued_cons (.put key blob opts status)
      have stored : status = .kOk → Issued (.put key blob opts status :: s.log) key blob := by
        intro ok
        rw [ok]
        exact ⟨opts, List.mem_cons_self⟩
      have bound := buffered _ rfl
      exact inv.moved isRunning issued
        (Engine.put_safe succeeds bound (inv.safe p isRunning) issued stored cases)
        (Engine.put_later cases) bound
  | evicted evictIo p more engine isRunning busy ran =>
      have bound := buffered _ rfl
      rcases Engine.evict_round_cases ran with ⟨rfl, _⟩ | round
      · exact inv.moved isRunning (fun _ _ issued => issued) (inv.safe p isRunning)
          (Engine.Later.refl _) bound
      · exact inv.moved isRunning (fun _ _ issued => issued)
          (Engine.evict_round_safe io bound (inv.safe p isRunning) round)
          (Engine.evict_round_later round) bound
  | get key bufLen getIo p reply engine isRunning ran =>
      have cases := Engine.get_cases ran
      have issued : ∀ key blob, Issued s.log key blob → Issued (_ :: s.log) key blob :=
        fun _ _ => issued_cons (.get key bufLen reply)
      exact inv.moved isRunning issued
        (Engine.safe_more (Engine.get_keeps io (inv.safe p isRunning) cases) issued)
        (Engine.get_later cases) (buffered _ rfl)
  | del key p isRunning =>
      have cases := Engine.del_cases p.engine key
      have issued : ∀ other blob, Issued s.log other blob → Issued (_ :: s.log) other blob :=
        fun _ _ => issued_cons (.del key (p.engine.del key).1)
      exact inv.moved isRunning issued
        (Engine.safe_more (Engine.del_keeps (inv.safe p isRunning) cases) issued)
        (Engine.del_later cases) (buffered _ rfl)
  | flushed step p t2 t2After isRunning isStore ran =>
      have later : Engine.Later p.engine { p.engine with t2Store := some t2After } :=
        Engine.later_new_store rfl rfl isStore rfl (T2.flush_run_later ran)
      exact inv.moved isRunning (fun _ _ issued => issued)
        (Engine.flush_keeps (inv.safe p isRunning) isStore io ran) later (buffered _ rfl)
  | beganSave p isRunning => exact inv.began_save isRunning
  | saved call p run next isRunning isSaver ran saver finished =>
      exact inv.saved_call isRunning isSaver ran finished
  | closed calls closeIo p checkpoint found isRunning settled idle saved store =>
      exact inv.closed isRunning behind whole io saved store
  | crashed point p found isRunning ran =>
      cases noCrash point rfl
      exact inv.crashed isRunning (io p isRunning) ran

theorem generation_start (initial : (generationMachine xxh32).start s) :
    GenerationInv xxh32 content s := by
  cases initial
  exact
    { survives := by simp
      idsSmall := by simp
      saved := fun bytes isFile => by cases isFile
      safe := fun p isRunning => by cases isRunning
      buffered := fun p isRunning => by cases isRunning
      saver := fun p run isRunning => by cases isRunning }

end Steps

end AttentionDB
