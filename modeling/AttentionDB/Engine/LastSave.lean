import AttentionDB.Engine.DirtyFlag

/-!
# What the last save leaves in the file

A mark is lost where the flag is cleared although the index has moved on since
the snapshot, and where an eviction moves a blob after the mark of its put was
cleared. The scrub at `open` sets no flag either. In every run without these
the file agrees with the index when the saving thread has ended.
-/

namespace AttentionDB

open GuardedRuns ByteMap Checkpoint

set_option autoImplicit false

/-! ## Which runs keep every mark -/

def Process.markPending (p : Process) : Prop := ∃ call ∈ p.calls, call.marks = true

/-- The checkpoint file is one that `load` takes whole and that loses nothing to
the scrub. -/
def FreshCheckpoint (xxh32 : List UInt8 → UInt32) (file : Option (List UInt8)) : Prop :=
  file = none ∨ ∃ now entries, file = some (checkpointImage xxh32 now entries) ∧
    entries.length ≤ 100000000 ∧ ∀ record ∈ entries, record.2.tier ≠ kT1Dram

/-- The flag is cleared when the snapshot still shows the index or a mark is yet
to come, and an eviction finds a victim only under a set flag or a mark that is
yet to come. -/
def marksKept (xxh32 : List UInt8 → UInt32) (s : CheckpointSystem) : CheckpointLabel → Prop
  | .openEngine _ _ => FreshCheckpoint xxh32 s.file
  | .clear => ∀ p final entries, s.process = some p → p.saver = .clearing final entries →
      p.markPending ∨ ∀ key, placedAt (ConcurrentHashMap.bulkLoad ∅ entries) key =
        placedAt p.engine.index key
  | .evict _ _ => ∀ p, s.process = some p →
      p.dirty = true ∨ p.markPending ∨ p.engine.evictsSome = false
  | _ => True

/-! ## What the file says -/

section Files

variable (xxh32 : List UInt8 → UInt32)

theorem file_records_image (now : UInt64) (entries : List Record) :
    fileRecords (checkpointImage xxh32 now entries) = sortEntries entries := by
  have header : (headerCodec.encode (finalHeader xxh32 entries now)).length = headerCodec.width :=
    headerCodec.encode_length _
  have length : (checkpointImage xxh32 now entries).length =
      headerCodec.width + recordCodec.width * entries.length := by
    rw [checkpointImage, List.length_append, header, checkpoint_body_length, record_width]
  have count : ((checkpointImage xxh32 now entries).length - headerCodec.width) / recordCodec.width =
      (sortEntries entries).length := by
    rw [length, Nat.add_sub_cancel_left, sort_entries_length]
    exact Nat.mul_div_cancel_left _ (by decide)
  have decoded := recordCodec.decode_encode_row (sortEntries entries) []
  rw [List.append_nil] at decoded
  rw [fileRecords, count, image_drop_header, checkpointBody, decoded]

/-- An image says what loading its entries would. -/
theorem stored_at_image (now : UInt64) (entries : List Record) (key : StorageKey) :
    storedAt (some (checkpointImage xxh32 now entries)) key =
      placedAt (ConcurrentHashMap.bulkLoad ∅ (sortEntries entries)) key := by
  rw [placedAt, ConcurrentHashMap.find_bulk_load, ConcurrentHashMap.find_empty, Option.none_or,
    Option.map_map]
  unfold storedAt
  dsimp only
  rw [file_records_image]
  rfl

theorem stored_at_snapshot (now : UInt64) (index : ConcurrentHashMap) (key : StorageKey) :
    storedAt (some (checkpointImage xxh32 now index.snapshot)) key = placedAt index key := by
  rw [stored_at_image, placedAt, placedAt,
    index.find_bulk_load_snapshot key (sort_entries_perm index.snapshot)]

/-- What is loaded from a file without T1 entries is what the file says. -/
theorem loaded_index_image (now : UInt64) (entries : List Record)
    (capped : entries.length ≤ 100000000) (notT1 : ∀ record ∈ entries, record.2.tier ≠ kT1Dram)
    (key : StorageKey) :
    placedAt (Engine.loadedIndex (some
        (load xxh32 (some (checkpointImage xxh32 now entries)) {} ∅).2.snapshot)) key =
      storedAt (some (checkpointImage xxh32 now entries)) key := by
  rw [load_image xxh32 now entries ∅ capped, stored_at_image, placedAt, placedAt,
    Engine.loadedIndex, Engine.scrub_t1_find,
    ConcurrentHashMap.find_bulk_load_snapshot _ key (List.Perm.refl _)]
  congr 1
  rw [ConcurrentHashMap.find_bulk_load, ConcurrentHashMap.find_empty, Option.none_or]
  cases found : (sortEntries entries).find? fun record => record.1 = key with
  | none => rfl
  | some record =>
      have member := (sort_entries_perm entries).mem_iff.1 (List.mem_of_find?_eq_some found)
      simp [notT1 record member]

end Files

/-! ## The invariant -/

def SaverPc.busy : SaverPc → Bool
  | .saving _ | .writing _ _ | .clearing _ _ => true
  | .waiting | .checking | .exited => false

def SaverPc.ending : SaverPc → Bool
  | .saving final | .writing final _ | .clearing final _ => final
  | .waiting => false
  | .checking | .exited => true

def SaverPc.entries : SaverPc → List Record
  | .writing _ entries | .clearing _ entries => entries
  | _ => []

/-- Without a set flag and without a mark to come the file says what the index
says. -/
structure Marked (file : Option (List UInt8)) (p : Process) : Prop where
  clean : p.dirty = false → ¬ p.markPending → ∀ key, storedAt file key = placedAt p.engine.index key
  busy : p.saver.busy = true → p.dirty = true
  snapshot : ∃ index : ConcurrentHashMap, p.saver.entries = index.snapshot
  written : ∀ final entries, p.saver = .clearing final entries →
    ∀ key, storedAt file key = placedAt (ConcurrentHashMap.bulkLoad ∅ entries) key
  ending : p.saver.ending = true → p.running = false
  exited : p.saver = .exited → p.dirty = false
  stopped : p.running = false → ∀ call ∈ p.calls, call = .returned

namespace Marked

variable {file : Option (List UInt8)} {p : Process}

theorem entered_pending (engine : Engine) (pc : CallPc) :
    (p.entered engine pc).markPending ↔ p.markPending ∨ pc.marks = true := by
  simp [Process.markPending, Process.entered, or_and_right, exists_or]

/-- The first stage of a call, which marks later if it moved a blob. -/
theorem entered (marked : Marked file p) (open_ : p.running = true) {engine : Engine} {pc : CallPc}
    (kept : pc.marks = true ∨ ∀ key, placedAt engine.index key = placedAt p.engine.index key) :
    Marked file (p.entered engine pc) := by
  refine
    { clean := ?_
      busy := marked.busy
      snapshot := marked.snapshot
      written := marked.written
      ending := marked.ending
      exited := marked.exited
      stopped := ?_ }
  · intro notDirty noMark key
    rw [entered_pending, not_or] at noMark
    rcases kept with marks | same
    · exact absurd marks noMark.2
    · rw [marked.clean notDirty noMark.1 key]
      exact (same key).symm
  · intro stopped
    have running : p.running = false := stopped
    rw [open_] at running
    cases running

/-- A call goes on without changing the index where no mark protects it. -/
theorem advanced (marked : Marked file p) {call : Nat} {before after : CallPc} {engine : Engine}
    {dirty : Bool} (here : p.calls[call]? = some before) (working : before ≠ .returned)
    (raised : p.dirty = true → dirty = true) (marks : before.marks = true → dirty = true)
    (same : dirty = false → ¬ p.markPending → ∀ key,
      placedAt engine.index key = placedAt p.engine.index key) :
    Marked file { p with engine, dirty, calls := p.calls.set call after } := by
  have member : before ∈ p.calls := List.mem_of_getElem? here
  have running : p.running = true := by
    cases ended : p.running with
    | true => rfl
    | false => exact absurd (marked.stopped ended before member) working
  have notEnding : p.saver.ending ≠ true := by
    intro ending
    have stopped := marked.ending ending
    rw [running] at stopped
    cases stopped
  refine
    { clean := ?_
      busy := fun busy => raised (marked.busy busy)
      snapshot := marked.snapshot
      written := marked.written
      ending := fun ending => absurd ending notEnding
      exited := ?_
      stopped := ?_ }
  · intro notDirty noMark key
    have wasClean : p.dirty = false := by
      cases was : p.dirty with
      | false => rfl
      | true =>
          have now := raised was
          rw [show dirty = false from notDirty] at now
          cases now
    have noMarkBefore : ¬ p.markPending := by
      rintro ⟨other, otherMember, otherMarks⟩
      rcases List.mem_iff_getElem?.1 otherMember with ⟨i, at_i⟩
      by_cases same : i = call
      · subst same
        rw [here] at at_i
        cases at_i
        have now := marks otherMarks
        rw [show dirty = false from notDirty] at now
        cases now
      · refine noMark ⟨other, ?_, otherMarks⟩
        apply List.mem_of_getElem? (i := i)
        dsimp only
        rw [List.getElem?_set_ne (Ne.symm same), at_i]
    rw [marked.clean wasClean noMarkBefore key]
    exact (same notDirty noMarkBefore key).symm
  · intro exited
    have ending : p.saver.ending = true := by
      rw [show p.saver = .exited from exited]
      rfl
    exact absurd ending notEnding
  · intro stopped
    rw [show p.running = false from stopped] at running
    cases running

/-- The engine changes outside its index only. -/
theorem same_index (marked : Marked file p) {engine : Engine} (same : engine.index = p.engine.index) :
    Marked file { p with engine } := by
  refine
    { clean := ?_
      busy := marked.busy
      snapshot := marked.snapshot
      written := marked.written
      ending := marked.ending
      exited := marked.exited
      stopped := marked.stopped }
  intro notDirty noMark key
  dsimp only
  rw [same]
  exact marked.clean notDirty noMark key

/-- The saving thread goes on, with the flag, the file and the index as they were. -/
theorem saver_moved (marked : Marked file p) {saver : SaverPc}
    (busy : saver.busy = true → p.dirty = true)
    (snapshot : ∃ index : ConcurrentHashMap, saver.entries = index.snapshot)
    (notClearing : ∀ final entries, saver ≠ .clearing final entries)
    (ending : saver.ending = true → p.running = false) (exited : saver = .exited → p.dirty = false) :
    Marked file { p with saver } where
  clean := marked.clean
  busy := busy
  snapshot := snapshot
  written final entries here := absurd here (notClearing final entries)
  ending := ending
  exited := exited
  stopped := marked.stopped

theorem no_snapshot : ∃ index : ConcurrentHashMap, ([] : List Record) = index.snapshot := ⟨∅, rfl⟩

theorem after_save_moved (final : Bool) :
    (SaverPc.afterSave final).busy = false ∧ (SaverPc.afterSave final).entries = [] ∧
      (SaverPc.afterSave final).ending = final ∧
      ∀ other entries, SaverPc.afterSave final ≠ .clearing other entries := by
  cases final <;> exact ⟨rfl, rfl, rfl, fun _ _ => by simp [SaverPc.afterSave]⟩

end Marked

section Steps

variable {xxh32 : List UInt8 → UInt32} {s after : CheckpointSystem} {p pAfter : Process}
  {file : Option (List UInt8)} {label : CheckpointLabel}

theorem Engine.get_placed {e after : Engine} {key : StorageKey} {bufLen : Nat} {io : GetIo}
    {reply : BlobStore.ReadReply} (ran : e.get key bufLen io = some (reply, after))
    (other : StorageKey) : placedAt after.index other = placedAt e.index other := by
  have touched : ∀ now, placedAt (e.index.updateFn key (·.touch now)) other =
      placedAt e.index other := by
    intro now
    rw [placedAt, placedAt, ConcurrentHashMap.find_update_fn]
    split_ifs with same
    · subst same
      cases e.index.find other <;> rfl
    · rfl
  cases Engine.get_cases ran with
  | missed => rfl
  | fromT1 | fromT2 | nowhere => exact touched io.touchedAt

theorem Engine.del_missed {e after : Engine} {key : StorageKey} {status : Status}
    (cases : Engine.DelCases e key status after) (failed : status ≠ .kOk) : after = e := by
  cases cases with
  | missed => rfl
  | fromT1 | fromT2 | fromNowhere => exact absurd rfl failed

/-- A step of a client. -/
theorem client_marked (marked : Marked file p)
    (begins : ∀ key blob opts io, label = .put key blob opts io → p.running = true)
    (looks : ∀ key bufLen io, label = .get key bufLen io → p.running = true)
    (deletes : ∀ key, label = .del key → p.running = true)
    (allowed : ∀ call io, label = .evict call io →
      p.dirty = true ∨ p.markPending ∨ p.engine.evictsSome = false)
    (moved : p.execClient label = some pAfter) : Marked file pAfter := by
  cases label with
  | put key blob opts io =>
      have running := begins key blob opts io rfl
      simp only [Process.execClient] at moved
      split at moved
      · contradiction
      · rename_i status engine ran
        cases moved
        by_cases ok : status = .kOk
        · rw [if_pos ok]
          exact marked.entered running (.inl rfl)
        · rw [if_neg ok]
          refine marked.entered running (.inr fun key => ?_)
          rw [Engine.put_upsert_index ran ok]
  | get key bufLen io =>
      have running := looks key bufLen io rfl
      simp only [Process.execClient] at moved
      split at moved
      · contradiction
      · rename_i reply engine ran
        cases moved
        exact marked.entered running (.inr (Engine.get_placed ran))
  | del key =>
      have running := deletes key rfl
      simp only [Process.execClient, Option.some.injEq] at moved
      subst moved
      by_cases ok : (p.engine.del key).1 = .kOk
      · rw [if_pos ok]
        exact marked.entered running (.inl rfl)
      · rw [if_neg ok]
        refine marked.entered running (.inr fun other => ?_)
        rw [Engine.del_missed (Engine.del_cases p.engine key) ok]
  | mark call =>
      simp only [Process.execClient] at moved
      split at moved
      · rename_i evicts here
        cases moved
        exact marked.advanced here (by simp) (fun _ => rfl) (fun _ => rfl) fun _ _ _ => rfl
      · contradiction
  | evict call io =>
      have spared := allowed call io rfl
      simp only [Process.execClient] at moved
      split at moved
      · rename_i here
        rw [Option.map_eq_some_iff] at moved
        rcases moved with ⟨engine, ran, rfl⟩
        refine marked.advanced here (by simp) id (fun marks => by cases marks) ?_
        intro notDirty noMark key
        rcases spared with dirty | pending | spared
        · rw [dirty] at notDirty
          cases notDirty
        · exact absurd pending noMark
        · rw [Engine.evict_if_needed_index spared ran]
      · contradiction
  | flush step =>
      simp only [Process.execClient] at moved
      split at moved
      · contradiction
      · rw [Option.map_eq_some_iff] at moved
        rcases moved with ⟨t2, _, rfl⟩
        exact marked.same_index rfl
  | openEngine | wake | check | snapshot | write | clear | stop => cases moved

/-- A step of the saving thread that does not touch the file. -/
theorem saver_marked (marked : Marked file p)
    (allowed : label = .clear → ∀ final entries, p.saver = .clearing final entries →
      p.markPending ∨ ∀ key, placedAt (ConcurrentHashMap.bulkLoad ∅ entries) key =
        placedAt p.engine.index key)
    (moved : p.execSaver label = some pAfter) : Marked file pAfter := by
  cases label with
  | wake =>
      simp only [Process.execSaver] at moved
      split_ifs at moved with waiting running dirty
      · cases moved
        exact marked.saver_moved (fun _ => dirty) Marked.no_snapshot (by simp)
          (fun ending => by cases ending) (by simp)
      · cases moved
        exact marked.saver_moved (fun busy => by cases busy) Marked.no_snapshot (by simp)
          (fun ending => by cases ending) (by simp)
      · cases moved
        exact marked.saver_moved (fun busy => by cases busy) Marked.no_snapshot (by simp)
          (fun _ => by simpa using running) (by simp)
  | check =>
      simp only [Process.execSaver] at moved
      split_ifs at moved with checking dirty
      · cases moved
        have stopped := marked.ending (by rw [checking]; rfl)
        exact marked.saver_moved (fun _ => dirty) Marked.no_snapshot (by simp) (fun _ => stopped)
          (by simp)
      · cases moved
        have stopped := marked.ending (by rw [checking]; rfl)
        exact marked.saver_moved (fun busy => by cases busy) Marked.no_snapshot (by simp)
          (fun _ => stopped) (fun _ => by simpa using dirty)
  | snapshot =>
      simp only [Process.execSaver] at moved
      split at moved
      · rename_i final saving
        have dirty := marked.busy (by rw [saving]; rfl)
        have ending := marked.ending
        rw [saving] at ending
        cases moved
        have wanted : ¬ (p.engine.index.snapshot = [] ∧ p.dirty = false) := by
          rw [dirty]
          simp
        rw [if_neg wanted]
        exact marked.saver_moved (fun _ => dirty) ⟨p.engine.index, rfl⟩ (by simp) ending (by simp)
      · contradiction
  | clear =>
      simp only [Process.execSaver] at moved
      split at moved
      · rename_i final entries clearing
        cases moved
        have ending := marked.ending
        rw [clearing] at ending
        rcases Marked.after_save_moved final with ⟨idle, empty, ends, notClearing⟩
        refine
          { clean := ?_
            busy := ?_
            snapshot := ?_
            written := fun other list here => absurd here (notClearing other list)
            ending := fun here => ending (by rw [ends] at here; exact here)
            exited := fun _ => rfl
            stopped := marked.stopped }
        · intro _ noMark key
          rcases allowed rfl final entries clearing with pending | same
          · exact absurd pending noMark
          · rw [marked.written final entries clearing key]
            exact same key
        · intro busy
          rw [idle] at busy
          cases busy
        · dsimp only
          rw [empty]
          exact Marked.no_snapshot
      · contradiction
  | openEngine | put | get | del | mark | evict | flush | write | stop => cases moved

/-- The write puts an image of the snapshot into the file. -/
theorem write_marked {final : Bool} {entries : List Record} {run : SaveRun} {calls : List SaveCall}
    (marked : Marked file p) (writing : p.saver = .writing final entries)
    (ran : SaveRun.steps xxh32 { entries, file, dirty := p.dirty, pc := .opening } calls = some run)
    (renamed : run.pc = .clearing) : Marked run.file { p with saver := .clearing final entries } := by
  have dirty := marked.busy (by rw [writing]; rfl)
  have ending := marked.ending
  rw [writing] at ending
  rcases marked.snapshot with ⟨index, snapshot⟩
  rw [writing] at snapshot
  have early : Early xxh32 { entries, file, dirty := p.dirty, pc := .opening }
      { entries, file, dirty := p.dirty, pc := .opening } := ⟨⟨rfl, rfl, rfl⟩, rfl⟩
  rcases early_run xxh32 early ran with ⟨_, ⟨_, here⟩, _⟩ | ⟨_, _, _, replaced⟩
  · rw [renamed] at here
    exact here.elim
  · rcases replaced.file with ⟨now, image⟩
    have isSnapshot : entries = index.snapshot := snapshot
    refine
      { clean := ?_
        busy := fun _ => dirty
        snapshot := ⟨index, snapshot⟩
        written := ?_
        ending := ending
        exited := fun exited => by cases exited
        stopped := marked.stopped }
    · intro notDirty
      rw [show p.dirty = false from notDirty] at dirty
      cases dirty
    · rintro _ _ ⟨⟩ key
      rw [image, isSnapshot, stored_at_snapshot, placedAt, placedAt,
        index.find_bulk_load_snapshot key (List.Perm.refl _)]

/-- Opening loads what the file says. -/
theorem open_marked {config : Config} {io : Engine.OpenIo} (fresh : FreshCheckpoint xxh32 s.file)
    (opened : s.openProcess xxh32 config io = some p) : Marked s.file p := by
  unfold CheckpointSystem.openProcess at opened
  dsimp only at opened
  rw [Option.map_eq_some_iff] at opened
  rcases opened with ⟨engine, opening, rfl⟩
  have index := (Engine.open_engine_opened opening).index
  refine
    { clean := ?_
      busy := fun busy => by cases busy
      snapshot := Marked.no_snapshot
      written := by simp
      ending := fun ending => by cases ending
      exited := fun _ => rfl
      stopped := fun stopped => by cases stopped }
  intro _ _ key
  dsimp only at index ⊢
  rw [index]
  rcases fresh with missing | ⟨now, entries, image, capped, notT1⟩
  · rw [missing]
    rfl
  · rw [image]
    have loaded := loaded_index_image xxh32 now entries capped notT1 key
    rw [if_pos (by rw [load_image xxh32 now entries ∅ capped])]
    exact loaded.symm

def MarkedSystem (s : CheckpointSystem) : Prop := ∀ p, s.process = some p → Marked s.file p

theorem marked_step (inv : MarkedSystem s) (allowed : marksKept xxh32 s label)
    (moved : s.exec xxh32 label = some after) : MarkedSystem after := by
  intro pAfter isAfter
  cases isProcess : s.process with
  | none =>
      cases label with
      | openEngine config io =>
          simp only [CheckpointSystem.exec, isProcess, Option.map_eq_some_iff] at moved
          rcases moved with ⟨p, opened, rfl⟩
          cases isAfter
          exact open_marked allowed opened
      | put | get | del | mark | evict | flush | wake | check | snapshot | write | clear | stop =>
          simp [CheckpointSystem.exec, isProcess] at moved
  | some p =>
      have marked := inv p isProcess
      cases label with
      | openEngine config io => simp [CheckpointSystem.exec, isProcess] at moved
      | put | get | del =>
          simp only [CheckpointSystem.exec, isProcess] at moved
          split_ifs at moved with running
          rw [Option.map_eq_some_iff] at moved
          rcases moved with ⟨changed, ran, rfl⟩
          cases isAfter
          exact client_marked marked (fun _ _ _ _ _ => running) (fun _ _ _ _ => running)
            (fun _ _ => running) (by simp) ran
      | mark | flush =>
          simp only [CheckpointSystem.exec, isProcess, Option.map_eq_some_iff] at moved
          rcases moved with ⟨changed, ran, rfl⟩
          cases isAfter
          exact client_marked marked (by simp) (by simp) (by simp) (by simp) ran
      | evict call io =>
          simp only [CheckpointSystem.exec, isProcess, Option.map_eq_some_iff] at moved
          rcases moved with ⟨changed, ran, rfl⟩
          cases isAfter
          exact client_marked marked (by simp) (by simp) (by simp)
            (fun _ _ _ => allowed p isProcess) ran
      | wake | check | snapshot =>
          simp only [CheckpointSystem.exec, isProcess, Option.map_eq_some_iff] at moved
          rcases moved with ⟨changed, ran, rfl⟩
          cases isAfter
          exact saver_marked marked (by simp) ran
      | clear =>
          simp only [CheckpointSystem.exec, isProcess, Option.map_eq_some_iff] at moved
          rcases moved with ⟨changed, ran, rfl⟩
          cases isAfter
          exact saver_marked marked (fun _ final entries => allowed p final entries isProcess) ran
      | write calls =>
          simp only [CheckpointSystem.exec, isProcess] at moved
          split at moved
          · rename_i final entries writing
            split at moved
            · contradiction
            · rename_i run ran
              split_ifs at moved with renamed
              cases moved
              cases isAfter
              exact write_marked marked writing ran renamed
          · contradiction
      | stop =>
          simp only [CheckpointSystem.exec, isProcess] at moved
          split_ifs at moved with ended
          cases moved
          cases isAfter
          refine
            { clean := marked.clean
              busy := marked.busy
              snapshot := marked.snapshot
              written := marked.written
              ending := fun _ => rfl
              exited := marked.exited
              stopped := fun _ call member => ?_ }
          have returned := List.all_eq_true.1 ended.2 call member
          simpa using returned

end Steps

/-- In every run whose steps keep every mark, the file says at the end what the
index says. -/
theorem stop_saves_index (xxh32 : List UInt8 → UInt32) {s : CheckpointSystem}
    (reached : ReachWithin (checkpointMachine xxh32) (marksKept xxh32) s) (p : Process)
    (isProcess : s.process = some p) (exited : p.saver = .exited) (key : StorageKey) :
    storedAt s.file key = placedAt p.engine.index key := by
  have inv := reached.invariant MarkedSystem
    (fun start initial p isProcess => by
      rw [show start.process = none from initial] at isProcess
      cases isProcess)
    fun _ _ _ inv allowed moved => marked_step inv allowed moved
  have marked := inv p isProcess
  have running := marked.ending (by rw [exited]; rfl)
  refine marked.clean (marked.exited exited) ?_ key
  rintro ⟨call, member, marks⟩
  rw [marked.stopped running call member] at marks
  cases marks

/-! ## Two runs -/

def noCheckpoint : CheckpointSystem := { file := none }

def lateKey : StorageKey := { probeKey with chunkIndex := 1 }

def imageCalls (count : Nat) : List SaveCall :=
  [.openStream true, .writePlaceholder 7 true, .createState true] ++
    List.replicate (2 * count) (.write true) ++
    [.seekp true, .write true, .flush true, .rename true]

def slabPutUpsert (key : StorageKey) : CheckpointLabel :=
  .put key [7] { entryType := .kSystemPrompt } {}

/-- The hashes of the images with no record, with one and with two records of
the runs below. -/
def slabHash (bytes : List UInt8) : UInt32 :=
  if bytes.length = 0 then 0x02cc5d05 else if bytes.length = 94 then 0xacbf1ad7 else 0xc702994b

def savedLabels : List CheckpointLabel :=
  [.openEngine slabConfig slabOpenIo, slabPutUpsert probeKey, .mark 0, .evict 0 fun _ => {}, .wake,
    .snapshot, slabPutUpsert lateKey, .write (imageCalls 1), .clear, .mark 1, .evict 1 fun _ => {},
    .stop, .wake, .check, .snapshot, .write (imageCalls 2), .clear]

def lostLabels : List CheckpointLabel :=
  [.openEngine slabConfig slabOpenIo, slabPutUpsert probeKey, .mark 0, .evict 0 fun _ => {},
    .del probeKey, .mark 1, .wake, .snapshot, slabPutUpsert lateKey, .mark 2, .write (imageCalls 0),
    .clear, .evict 2 fun _ => {}, .stop, .wake, .check]

def savedRun : CheckpointSystem := last (checkpointMachine slabHash) noCheckpoint savedLabels

def lostRun : CheckpointSystem := last (checkpointMachine slabHash) noCheckpoint lostLabels

def keptCheck (s : CheckpointSystem) : CheckpointLabel → Bool
  | .openEngine _ _ => s.file.isNone
  | .clear =>
      match s.process with
      | none => true
      | some p => p.calls.any CallPc.marks || p.saver.entries = p.engine.index.snapshot
  | .evict _ _ =>
      match s.process with
      | none => true
      | some p => p.dirty
  | _ => true

theorem kept_check_sound (s : CheckpointSystem) (label : CheckpointLabel)
    (checked : keptCheck s label = true) : marksKept slabHash s label := by
  cases label with
  | openEngine config io => exact .inl (Option.isNone_iff_eq_none.1 checked)
  | clear =>
      intro p final entries isProcess clearing
      simp only [keptCheck, isProcess, Bool.or_eq_true, List.any_eq_true, decide_eq_true_eq] at checked
      refine checked.imp id fun same key => ?_
      rw [clearing] at same
      have snapshot : entries = p.engine.index.snapshot := same
      rw [snapshot, placedAt, placedAt,
        ConcurrentHashMap.find_bulk_load_snapshot _ key (List.Perm.refl _)]
  | evict call io =>
      intro p isProcess
      simp only [keptCheck, isProcess] at checked
      exact .inl checked
  | put | get | del | mark | flush | wake | check | snapshot | write | stop => trivial

/-- Both keys of the run are in the file at the end. -/
theorem stop_saves_index_late_put :
    ∃ p, savedRun.process = some p ∧ p.saver = .exited ∧
      storedAt savedRun.file lateKey = placedAt p.engine.index lateKey := by
  have reached : ReachWithin (checkpointMachine slabHash) (marksKept slabHash) savedRun :=
    ReachWithin.to_last (fun _ => True) keptCheck (fun s label _ => kept_check_sound s label)
      (fun _ _ _ _ _ _ => trivial) (.start rfl) trivial savedLabels (by decide +kernel)
  have ended : savedRun.process.map Process.saver = some .exited := by decide +kernel
  rcases Option.map_eq_some_iff.1 ended with ⟨p, isProcess, exited⟩
  exact ⟨p, isProcess, exited, stop_saves_index slabHash reached p isProcess exited lateKey⟩

/-- The file has no record at the end, and the index has one. -/
theorem late_put_lost :
    Reach (checkpointMachine slabHash) lostRun ∧
      ∃ p, lostRun.process = some p ∧ p.saver = .exited ∧
        ∃ key, storedAt lostRun.file key ≠ placedAt p.engine.index key := by
  have reached : Reach (checkpointMachine slabHash) lostRun :=
    Reach.to_last (.start rfl) lostLabels (by decide +kernel)
  have ended : lostRun.process.map (fun p =>
      (p.saver, decide (storedAt lostRun.file lateKey = placedAt p.engine.index lateKey))) =
        some (.exited, false) := by
    decide +kernel
  rcases Option.map_eq_some_iff.1 ended with ⟨p, isProcess, facts⟩
  rw [Prod.mk.injEq, decide_eq_false_iff_not] at facts
  exact ⟨reached, p, isProcess, facts.1, lateKey, facts.2⟩

end AttentionDB
