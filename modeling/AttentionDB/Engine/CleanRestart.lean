import AttentionDB.Engine.ContainsGet
import AttentionDB.Engine.CrashSafety

/-!
# Clean restarts

With reliable files, and saves between the calls only, a clear flag means that
the checkpoint file holds the T2 entries of the index. `close` saves what the
flag asks for and leaves every blob of the ledger in its file, so the next
process has exactly the T2 entries and reads the same blobs.
-/

namespace AttentionDB

open GuardedRuns ByteMap BlobStore Checkpoint

set_option autoImplicit false

/-! ## Runs without a crash -/

/-- Saves run between the calls of the client and the last one succeeds; every
process has the same configuration and none crashes. -/
def Generations.savesBetween (config : Config) (s : Generations) : GenerationLabel → Prop
  | .openEngine other _ => other = config
  | .put _ _ _ _ | .get _ _ _ | .del _ | .evict _ => ∀ p, s.running = some p → p.saver = none
  | .beginSave => ∀ p, s.running = some p → p.evicting = false
  | .close calls _ => ∀ call ∈ calls, call.fails = false
  | .crash _ => False
  | .flush _ | .saveCall _ => True

structure Cleanly (xxh32 : List UInt8 → UInt32) (config : Config) (s : Generations)
    (label : GenerationLabel) : Prop where
  reliable : Reliable xxh32 s label
  between : s.savesBetween config label
  capped : ∀ after p, (generationMachine xxh32).exec s label = some after →
    after.running = some p → p.engine.index.size ≤ 100000000

inductive Restart (xxh32 : List UInt8 → UInt32) (config : Config) (s reopened : Generations) : Prop where
  | cycle (calls : List SaveCall) (closeIo : CloseIo) (closed : Generations) (openIo : Engine.OpenIo)
      (closing : Cleanly xxh32 config s (.close calls closeIo))
      (closes : (generationMachine xxh32).exec s (.close calls closeIo) = some closed)
      (opening : Cleanly xxh32 config closed (.openEngine config openIo))
      (opens : (generationMachine xxh32).exec closed (.openEngine config openIo) = some reopened)

/-! ## What a checkpoint file and an index agree on -/

/-- What `open` takes from the file is the index without its T1 entries. -/
def Agrees (xxh32 : List UInt8 → UInt32) (file : Option (List UInt8)) (index : ConcurrentHashMap) :
    Prop :=
  ∀ key, (Engine.loadedIndex (Generations.acceptedCheckpoint xxh32 file)).find key =
    (index.find key).filter (·.tier ≠ kT1Dram)

section Files

variable {xxh32 : List UInt8 → UInt32}

theorem agrees_loaded (file : Option (List UInt8)) :
    Agrees xxh32 file (Engine.loadedIndex (Generations.acceptedCheckpoint xxh32 file)) := by
  intro key
  cases found : (Engine.loadedIndex (Generations.acceptedCheckpoint xxh32 file)).find key with
  | none => rfl
  | some entry =>
      have notInT1 := Engine.loaded_index_not_t1 found
      simp [Option.filter, notInT1]

theorem agrees_image (now : UInt64) (index : ConcurrentHashMap) (capped : index.size ≤ 100000000) :
    Agrees xxh32 (some (checkpointImage xxh32 now index.snapshot)) index := by
  intro key
  have length : index.snapshot.length ≤ 100000000 := by
    rw [ConcurrentHashMap.snapshot, List.length_map]
    exact capped
  rw [Generations.acceptedCheckpoint, load_image xxh32 now index.snapshot ∅ length]
  dsimp only
  rw [if_pos rfl, Engine.loadedIndex, Engine.scrub_t1_find,
    ConcurrentHashMap.find_bulk_load_snapshot _ key (List.Perm.refl _),
    index.find_bulk_load_snapshot key (sort_entries_perm index.snapshot)]

end Files

/-! ## The calls -/

namespace Engine

variable {e after : Engine}

/-- A get that does not reach the touch leaves the engine as it is. -/
theorem get_untouched {key : StorageKey} {bufLen : Nat} {io : GetIo} {reply : ReadReply}
    (untouched : e.getTouches key bufLen = false) (ran : e.get key bufLen io = some (reply, after)) :
    after = e := by
  unfold get at ran
  unfold getTouches at untouched
  cases found : e.index.find key with
  | none =>
      rw [found] at ran
      cases ran
      rfl
  | some entry =>
      rw [found] at ran untouched
      simp only [Bool.not_eq_false', decide_eq_true_eq] at untouched
      rcases untouched with ⟨inT1, enabled, short⟩
      dsimp only at ran
      rw [if_pos ⟨inT1, enabled⟩, if_pos short] at ran
      cases ran
      rfl

/-- Gets with room for the blob return it, and a get that the flush thread does
not interrupt does return. -/
structure Answers (e : Engine) (key : StorageKey) (blob : List UInt8) : Prop where
  returns : ∀ bufLen, blob.length ≤ bufLen →
    ∃ after, e.get key bufLen {} = some ({ status := .kOk, bytes := blob }, after)
  always : ∀ bufLen io reply after, blob.length ≤ bufLen →
    (io.first.Succeeds ∧ io.second.Succeeds) → (io.first.readOk = true ∧ io.second.readOk = true) →
    e.get key bufLen io = some (reply, after) → reply = { status := .kOk, bytes := blob }

theorem get_answers {old : List Ack} {issued : StorageKey → List UInt8 → Prop}
    (inv : SafeInv BlobStore.Written old issued e) {key : StorageKey} {entry : IndexEntry}
    (found : e.index.find key = some entry) (inT2 : entry.tier = kT2Nvme) {ack : Ack}
    (member : ack ∈ e.acked ++ old) (location : ack.loc = entryLocation entry)
    (nonempty : ack.data ≠ []) {t2 : T2} (isStore : e.t2Store = some t2) : e.Answers key ack.data := by
  have always : ∀ bufLen io reply after, ack.data.length ≤ bufLen →
      (io.first.Succeeds ∧ io.second.Succeeds) →
      (io.first.readOk = true ∧ io.second.readOk = true) →
      e.get key bufLen io = some (reply, after) → reply = { status := .kOk, bytes := ack.data } := by
    intro bufLen io reply after room succeeds readOk got
    have whole : replyFor ack.data bufLen = { status := .kOk, bytes := ack.data } := by
      rw [replyFor, if_neg (Nat.not_lt.2 room)]
    rcases get_t2 found inT2 isStore got with ⟨t2After, ran⟩
    rw [← location] at ran
    have alive := inv.t2 t2 isStore
    rw [acked_of_store isStore] at member
    rcases List.mem_append.1 member with present | earlier
    · have answered := T2.read_answers alive.valid succeeds.1 succeeds.2 readOk.1 readOk.2 present
        ran
      rw [if_pos (.inl nonempty)] at answered
      exact answered.trans whole
    · exact (T2.read_old_answers alive earlier nonempty succeeds.1 readOk.1 ran).trans whole
  refine ⟨fun bufLen room => ?_, always⟩
  rcases e.get_returns key bufLen with ⟨reply, after, got⟩
  have quiet := always bufLen {} reply after room ⟨quiet_read_succeeds, quiet_read_succeeds⟩ ⟨rfl, rfl⟩ got
  rw [quiet] at got
  exact ⟨after, got⟩

theorem open_engine_enabled {config : Config} {io : OpenIo} (opened : openEngine config io = some e)
    (enabled : config.nvmeStore.enabled = true) : ∃ t2, e.t2Store = some t2 := by
  unfold openEngine at opened
  dsimp only at opened
  rw [if_pos enabled] at opened
  split at opened
  · rename_i isT1 isT2
    cases opened
    split at isT2
    · cases isT2
      exact ⟨_, rfl⟩
    · cases isT2
  · contradiction

end Engine

/-! ## The invariant -/

structure CleanInv (xxh32 : List UInt8 → UInt32) (s : Generations) : Prop where
  base : GenerationInv xxh32 BlobStore.Written s
  clean : ∀ p, s.running = some p → p.dirty = false → Agrees xxh32 s.checkpoint p.engine.index
  evicting : ∀ p, s.running = some p → p.evicting = true → p.dirty = true ∧ p.saver = none
  saving : ∀ p run, s.running = some p → p.saver = some run →
    p.dirty = true ∧ run.entries = p.engine.index.snapshot
  capped : ∀ p, s.running = some p → p.engine.index.size ≤ 100000000
  enabled : ∀ p, s.running = some p → ∃ t2, p.engine.t2Store = some t2

section Steps

variable {xxh32 : List UInt8 → UInt32} {config : Config} {s after : Generations} {p q : Running}
  {label : GenerationLabel}

theorem CleanInv.settled (inv : CleanInv xxh32 s) (isRunning : s.running = some p)
    (notDirty : p.dirty = false) : p.evicting = false := by
  cases busy : p.evicting with
  | false => rfl
  | true =>
      have dirty := (inv.evicting p isRunning busy).1
      rw [notDirty] at dirty
      cases dirty

/-- The flag is set or the index is as it was. -/
theorem CleanInv.called (inv : CleanInv xxh32 s) (isRunning : s.running = some p) {engine : Engine}
    {evicting dirty : Bool} {log : List Call}
    (base : GenerationInv xxh32 BlobStore.Written
      { s with running := some { p with engine, evicting, dirty }, log })
    (idle : p.saver = none)
    (marked : dirty = true ∨ p.dirty = false ∧ engine.index = p.engine.index ∧ evicting = false)
    (capped : engine.index.size ≤ 100000000) (later : Engine.Later p.engine engine) :
    CleanInv xxh32 { s with running := some { p with engine, evicting, dirty }, log } := by
  refine { base, clean := ?_, evicting := ?_, saving := ?_, capped := ?_, enabled := ?_ }
  · intro q isQ notDirty
    cases isQ
    rcases marked with isDirty | ⟨wasClean, sameIndex, _⟩
    · rw [show dirty = false from notDirty] at isDirty
      cases isDirty
    · dsimp only
      rw [sameIndex]
      exact inv.clean p isRunning wasClean
  · intro q isQ busy
    cases isQ
    refine ⟨?_, idle⟩
    rcases marked with isDirty | ⟨_, _, notBusy⟩
    · exact isDirty
    · rw [show evicting = true from busy] at notBusy
      cases notBusy
  · intro q run isQ isSaver
    cases isQ
    rw [show p.saver = some run from isSaver] at idle
    cases idle
  · intro q isQ
    cases isQ
    exact capped
  · intro q isQ
    cases isQ
    have still := later.t2Enabled
    rcases inv.enabled p isRunning with ⟨t2, isStore⟩
    rw [isStore] at still
    exact Option.isSome_iff_exists.1 still

/-- A call of `save`: the flag stays set until the snapshot is on file, and nothing
has entered the index since the snapshot was taken. -/
theorem CleanInv.saved_call (inv : CleanInv xxh32 s) {call : SaveCall} {run next : SaveRun}
    {saver : Option SaveRun}
    (base : GenerationInv xxh32 BlobStore.Written
      { s with checkpoint := next.file, running := some { p with dirty := next.dirty, saver } })
    (isRunning : s.running = some p) (isSaver : p.saver = some run)
    (ran : { run with file := s.checkpoint, dirty := p.dirty }.step xxh32 call = some next)
    (finished : saver = none ∧ (∃ status, next.pc = .returned status) ∨
      saver = some next ∧ ∀ status, next.pc ≠ .returned status) :
    CleanInv xxh32
      { s with checkpoint := next.file, running := some { p with dirty := next.dirty, saver } } := by
  rcases inv.saving p run isRunning isSaver with ⟨dirty, snapshot⟩
  rcases in_save_step xxh32 (inv.base.saver p run isRunning isSaver).1 ran with ⟨entries, step⟩
  have stillDirty : ∀ other, saver = some other → next.dirty = true := by
    intro other isOther
    cases step with
    | kept file same | renamed now file same => exact same.trans dirty
    | cleared now file clear returned =>
        rcases finished with ⟨ended, _⟩ | ⟨_, notReturned⟩
        · rw [isOther] at ended
          cases ended
        · exact absurd returned (notReturned _)
  refine { base, clean := ?_, evicting := ?_, saving := ?_, capped := ?_, enabled := ?_ }
  · intro q isQ notDirty
    cases isQ
    cases step with
    | kept file same | renamed now file same =>
        rw [show next.dirty = false from notDirty] at same
        rw [dirty] at same
        cases same
    | cleared now file =>
        dsimp only
        rw [file, snapshot]
        exact agrees_image now p.engine.index (inv.capped p isRunning)
  · intro q isQ busy
    cases isQ
    have idle := (inv.evicting p isRunning busy).2
    rw [isSaver] at idle
    cases idle
  · intro q other isQ isOther
    cases isQ
    refine ⟨stillDirty other isOther, ?_⟩
    rcases finished with ⟨ended, _⟩ | ⟨goesOn, _⟩
    · rw [show saver = some other from isOther] at ended
      cases ended
    · rw [show saver = some other from isOther] at goesOn
      cases goesOn
      exact entries.trans snapshot
  · intro q isQ
    cases isQ
    exact inv.capped p isRunning
  · intro q isQ
    cases isQ
    exact inv.enabled p isRunning

theorem clean_step (enabled : config.nvmeStore.enabled = true) (inv : CleanInv xxh32 s)
    (allowed : Cleanly xxh32 config s label)
    (moved : (generationMachine xxh32).exec s label = some after) : CleanInv xxh32 after := by
  rcases allowed with ⟨reliable, between, limit⟩
  have noCrash : ∀ point, label = .crash point → BlobStore.Written = WrittenOrBlank := by
    rintro point rfl
    exact between.elim
  have base := generation_step written_behind_header (fun _ _ => id) noCrash inv.base reliable moved
  have capped : ∀ p, after.running = some p → p.engine.index.size ≤ 100000000 :=
    fun p => limit after p moved
  have bounded : ∀ p, after.running = some p → p.engine.AllBuffered :=
    fun p => reliable.buffered after p moved
  cases generation_cases moved with
  | opened other io p down ran =>
      cases between
      rcases recovered_safe inv.base down reliable.io ran (bounded p rfl) with ⟨_, fresh, index⟩
      refine { base, clean := ?_, evicting := ?_, saving := ?_, capped, enabled := ?_ }
      · intro q isQ _
        cases isQ
        rw [index]
        exact agrees_loaded s.checkpoint
      · intro q isQ busy
        cases isQ
        rw [fresh] at busy
        cases busy
      · intro q run isQ isSaver
        cases isQ
        rw [fresh] at isSaver
        cases isSaver
      · intro q isQ
        cases isQ
        unfold Generations.recovered at ran
        rw [Option.map_eq_some_iff] at ran
        rcases ran with ⟨engine, opening, rfl⟩
        exact Engine.open_engine_enabled opening enabled
  | put key blob opts io p status engine isRunning ran =>
      apply inv.called isRunning base (between p isRunning) _ (capped _ rfl)
        (Engine.put_later (Engine.put_upsert_cases ran))
      by_cases ok : status = .kOk
      · left
        simp [ok]
      · cases wasDirty : p.dirty with
        | true =>
            left
            simp
        | false => exact .inr ⟨rfl, Engine.put_upsert_index ran ok, by simp [ok]⟩
  | evicted io p more engine isRunning busy ran =>
      have dirty := (inv.evicting p isRunning busy).1
      have later : Engine.Later p.engine engine := by
        rcases Engine.evict_round_cases ran with ⟨rfl, _⟩ | round
        · exact Engine.Later.refl _
        · exact Engine.evict_round_later round
      exact inv.called isRunning base (between p isRunning) (.inl dirty) (capped _ rfl) later
  | get key bufLen io p reply engine isRunning ran =>
      have idle := between p isRunning
      apply inv.called isRunning base idle _ (capped _ rfl) (Engine.get_later (Engine.get_cases ran))
      cases wasDirty : p.dirty with
      | true =>
          left
          simp
      | false =>
          have settled := inv.settled isRunning wasDirty
          cases touches : p.engine.getTouches key bufLen with
          | true =>
              left
              simp
          | false => exact .inr ⟨rfl, by rw [Engine.get_untouched touches ran], settled⟩
  | del key p isRunning =>
      have idle := between p isRunning
      have cases := Engine.del_cases p.engine key
      apply inv.called isRunning base idle _ (capped _ rfl) (Engine.del_later cases)
      by_cases ok : (p.engine.del key).1 = .kOk
      · left
        simp [ok]
      · cases wasDirty : p.dirty with
        | true =>
            left
            simp
        | false =>
            have settled := inv.settled isRunning wasDirty
            exact .inr ⟨rfl, by rw [Engine.del_missed cases ok], settled⟩
  | flushed step p t2 t2After isRunning isStore ran =>
      refine { base, clean := ?_, evicting := ?_, saving := ?_, capped, enabled := ?_ }
      · intro q isQ notDirty
        cases isQ
        exact inv.clean p isRunning notDirty
      · intro q isQ busy
        cases isQ
        exact inv.evicting p isRunning busy
      · intro q run isQ isSaver
        cases isQ
        exact inv.saving p run isRunning isSaver
      · intro q isQ
        cases isQ
        exact ⟨t2After, rfl⟩
  | beganSave p isRunning dirty idle =>
      refine { base, clean := ?_, evicting := ?_, saving := ?_, capped, enabled := ?_ }
      · intro q isQ notDirty
        cases isQ
        rw [show p.dirty = false from notDirty] at dirty
        cases dirty
      · intro q isQ busy
        cases isQ
        have settled := between p isRunning
        rw [show p.evicting = true from busy] at settled
        cases settled
      · intro q run isQ isSaver
        cases isQ
        cases isSaver
        exact ⟨dirty, rfl⟩
      · intro q isQ
        cases isQ
        exact inv.enabled p isRunning
  | saved call p run next isRunning isSaver ran saver finished =>
      exact inv.saved_call base isRunning isSaver ran finished
  | closed calls io p checkpoint found isRunning settled idle saved store =>
      have down : ({ s with checkpoint }.ended found).running = none := by cases found <;> rfl
      refine { base, clean := ?_, evicting := ?_, saving := ?_, capped, enabled := ?_ }
      all_goals
        intro q
        rw [down]
      · intro isQ
        cases isQ
      · intro isQ
        cases isQ
      · intro run isQ
        cases isQ
      · intro isQ
        cases isQ
  | crashed point => exact between.elim

end Steps

/-! ## A restart -/

/-- What a process has of an earlier one: the entries that were in T2 there, and
their blobs. -/
structure SameT2 (e restarted : Engine) : Prop where
  kept : ∀ key entry, restarted.index.find key = some entry ↔
    e.index.find key = some entry ∧ entry.tier = kT2Nvme
  gone : ∀ key entry, e.index.find key = some entry → entry.tier = kT1Dram →
    restarted.index.find key = none
  read : ∀ key entry, e.index.find key = some entry → entry.tier = kT2Nvme → entry.length ≠ 0 →
    ∃ blob, blob.length = entry.length.toNat ∧ e.Answers key blob ∧ restarted.Answers key blob

/-- Two blobs that the same gets return are one. -/
theorem Engine.Answers.unique {e : Engine} {key : StorageKey} {first second : List UInt8}
    (answers : e.Answers key first) (again : e.Answers key second)
    (length : first.length = second.length) : first = second := by
  rcases answers.returns first.length (Nat.le_refl _) with ⟨after, got⟩
  rcases again.returns first.length (Nat.le_of_eq length.symm) with ⟨afterAgain, gotAgain⟩
  rw [got] at gotAgain
  cases gotAgain
  rfl

theorem SameT2.trans {e middle last : Engine} (first : SameT2 e middle) (second : SameT2 middle last) :
    SameT2 e last where
  kept key entry := by
    rw [second.kept, first.kept]
    exact ⟨fun ⟨found, inT2⟩ => ⟨found.1, inT2⟩, fun ⟨found, inT2⟩ => ⟨⟨found, inT2⟩, inT2⟩⟩
  gone key entry found inT1 := by
    cases look : last.index.find key with
    | none => rfl
    | some left =>
        have before := ((second.kept key left).1 look).1
        rw [first.gone key entry found inT1] at before
        cases before
  read key entry found inT2 nonempty := by
    have foundMiddle := (first.kept key entry).2 ⟨found, inT2⟩
    rcases first.read key entry found inT2 nonempty with ⟨blob, length, answers, middleAnswers⟩
    rcases second.read key entry foundMiddle inT2 nonempty with ⟨again, lengthAgain, same, lastAnswers⟩
    have one := middleAnswers.unique same (length.trans lengthAgain.symm)
    subst one
    exact ⟨blob, length, answers, lastAnswers⟩

section Restarts

variable {xxh32 : List UInt8 → UInt32} {config : Config} {s reopened : Generations} {p : Running}

/-- After the last save the file has what the flag stood for. -/
theorem CleanInv.final_save (inv : CleanInv xxh32 s) (isRunning : s.running = some p)
    {calls : List SaveCall} (fine : ∀ call ∈ calls, call.fails = false)
    {checkpoint : Option (List UInt8)}
    (saved : p.finalSave xxh32 s.checkpoint calls = some checkpoint) :
    Agrees xxh32 checkpoint p.engine.index := by
  unfold Running.finalSave at saved
  split_ifs at saved with dirty nothing
  · split at saved
    · contradiction
    · rename_i run ran
      split at saved
      · rename_i status finished
        cases saved
        rcases fine_saved xxh32 fine ran finished with ⟨now, file⟩
        rw [file]
        exact agrees_image now p.engine.index (inv.capped p isRunning)
      · cases saved
  · cases saved
    exact inv.clean p isRunning (by simpa using dirty)

theorem restart_same (enabled : config.nvmeStore.enabled = true) (inv : CleanInv xxh32 s)
    (isRunning : s.running = some p) (restart : Restart xxh32 config s reopened) :
    CleanInv xxh32 reopened ∧ ∃ q, reopened.running = some q ∧ SameT2 p.engine q.engine := by
  rcases restart with ⟨calls, closeIo, closed, openIo, closing, closes, opening, opens⟩
  have closedInv := clean_step enabled inv closing closes
  have reopenedInv := clean_step enabled closedInv opening opens
  refine ⟨reopenedInv, ?_⟩
  rcases inv.enabled p isRunning with ⟨t2, isStore⟩
  have fine : ∀ call ∈ calls, call.fails = false := closing.between
  have safe := inv.base.safe p isRunning
  cases generation_cases closes with
  | closed _ _ other checkpoint found isOther settled idle saved store =>
      rw [isRunning] at isOther
      cases isOther
      have agrees := inv.final_save isRunning fine saved
      rcases store with ⟨noStore, _⟩ | ⟨same, store, isSame, _, rfl⟩
      · rw [isStore] at noStore
        cases noStore
      · rw [isStore] at isSame
        cases isSame
        cases generation_cases opens with
        | opened _ _ q down ran =>
            refine ⟨q, rfl, ?_⟩
            rcases recovered_safe closedInv.base down opening.reliable.io ran
              (opening.reliable.buffered _ q opens rfl) with ⟨safeAfter, _, index⟩
            rcases reopenedInv.enabled q rfl with ⟨t2After, isStoreAfter⟩
            have looked : ∀ key, q.engine.index.find key =
                (p.engine.index.find key).filter (·.tier ≠ kT1Dram) := by
              intro key
              rw [index]
              exact agrees key
            have kept : ∀ key entry, q.engine.index.find key = some entry ↔
                p.engine.index.find key = some entry ∧ entry.tier = kT2Nvme := by
              intro key entry
              rw [looked, Option.filter_eq_some_iff]
              constructor
              · rintro ⟨found, notInT1⟩
                rcases safe.held key entry found with ⟨blob, _, stands⟩
                exact ⟨found, (stands.recorded (by simpa using notInT1)).inT2⟩
              · rintro ⟨found, inT2⟩
                refine ⟨found, ?_⟩
                rw [inT2]
                decide
            refine { kept, gone := ?_, read := ?_ }
            · intro key entry found inT1
              rw [looked, found]
              simp [Option.filter, inT1]
            · intro key entry found inT2 nonempty
              have notInT1 : entry.tier ≠ kT1Dram := by
                rw [inT2]
                decide
              rcases safe.held key entry found with ⟨blob, _, stands⟩
              have recorded := stands.recorded notInT1
              rcases recorded.acked with ⟨ack, member, location, data⟩
              have length : ack.data.length = entry.length.toNat := by
                rw [data, recorded.length]
              have notEmpty : ack.data ≠ [] := by
                intro empty
                rw [empty, List.length_nil] at length
                exact nonempty (UInt32.toNat_inj.1 length.symm)
              refine ⟨ack.data, length,
                Engine.get_answers safe found inT2 member location notEmpty isStore, ?_⟩
              apply Engine.get_answers safeAfter ((kept key entry).2 ⟨found, inT2⟩) inT2 _ location
                notEmpty isStoreAfter
              rw [Engine.acked_of_store isStore] at member
              exact List.mem_append_right _ member

/-- In every run of processes with T2 that do not crash: after any number of
restarts the index has exactly the entries that were in T2, and gets return
their blobs as before. -/
theorem clean_restart (enabled : config.nvmeStore.enabled = true)
    (reached : ReachWithin (generationMachine xxh32) (Cleanly xxh32 config) s)
    (isRunning : s.running = some p) (restarts : Relation.TransGen (Restart xxh32 config) s reopened) :
    ∃ q, reopened.running = some q ∧ SameT2 p.engine q.engine := by
  have start : CleanInv xxh32 s := by
    apply reached.invariant (CleanInv xxh32)
    · rintro state rfl
      exact
        { base := generation_start rfl
          clean := fun p isRunning => by cases isRunning
          evicting := fun p isRunning => by cases isRunning
          saving := fun p run isRunning => by cases isRunning
          capped := fun p isRunning => by cases isRunning
          enabled := fun p isRunning => by cases isRunning }
    · exact fun _ _ _ inv allowed moved => clean_step enabled inv allowed moved
  -- by induction on the restarts, with the invariant of the last state
  have restarted : CleanInv xxh32 reopened ∧
      ∃ q, reopened.running = some q ∧ SameT2 p.engine q.engine := by
    induction restarts with
    | single first => exact restart_same enabled start isRunning first
    | tail _ next ih =>
        rcases ih with ⟨inv, q, isQ, same⟩
        rcases restart_same enabled inv isQ next with ⟨invAfter, r, isR, sameAfter⟩
        exact ⟨invAfter, r, isR, same.trans sameAfter⟩
  exact restarted.2

end Restarts

/-! ## Two restarts with a key in each tier -/

def roomyConfig : Config :=
  { tieredConfig with dramCache := { sizeBytes := 128, sizeClasses := [64] } }

def roomyOpen (ids : List Nat) : GenerationLabel :=
  .openEngine roomyConfig
    { allocBacking := fun _ => 4096, store := { listing := some (ids.map foundSegment) } }

def neighbourKey : StorageKey := { probeKey with chunkIndex := 1 }

def cleanLabels : List GenerationLabel :=
  [roomyOpen [], .put probeKey [7] { entryType := .kSystemPrompt, recomputeCost := 100 } {},
    .evict {}, .put neighbourKey [8] { entryType := .kSystemPrompt, recomputeCost := 100 } {},
    .evict {}, .evict {}, .get neighbourKey 1 {}]

/-- The hash of the 188 bytes of the two records in the checkpoint. -/
def roomyHash : List UInt8 → UInt32 := fun _ => 0x3f8e029b

def cleanRun : Generations := last (generationMachine roomyHash) {} cleanLabels

def closeLabel : GenerationLabel :=
  .close (saveCalls 2) { steps := [.pop, .write .complete, .release] }

def closedRun : Generations := next (generationMachine roomyHash) cleanRun closeLabel

def reopenedRun : Generations := next (generationMachine roomyHash) closedRun (roomyOpen [0])

def idleClose : GenerationLabel := .close [] {}

def idleClosedRun : Generations := next (generationMachine roomyHash) reopenedRun idleClose

def twiceReopenedRun : Generations :=
  next (generationMachine roomyHash) idleClosedRun (roomyOpen [0, 1])

section Checks

variable (xxh32 : List UInt8 → UInt32) (config : Config)

def betweenCheck (s : Generations) : GenerationLabel → Bool
  | .openEngine other _ => other = config
  | .put _ _ _ _ | .get _ _ _ | .del _ | .evict _ => s.running.all fun p => p.saver = none
  | .beginSave => s.running.all fun p => !p.evicting
  | .close calls _ => calls.all fun call => !call.fails
  | .crash _ => false
  | .flush _ | .saveCall _ => true

def cleanCheck (s : Generations) (label : GenerationLabel) : Bool :=
  reliableCheck xxh32 s label && betweenCheck config s label &&
    ((generationMachine xxh32).exec s label).all fun after =>
      after.running.all fun p => decide (p.engine.index.size ≤ 100000000)

theorem clean_check_sound (s : Generations) (label : GenerationLabel)
    (checked : cleanCheck xxh32 config s label = true) : Cleanly xxh32 config s label := by
  simp only [cleanCheck, Bool.and_eq_true] at checked
  rcases checked with ⟨⟨reliable, between⟩, capped⟩
  refine ⟨reliable_check_sound xxh32 s label reliable, ?_, ?_⟩
  · have everyone : ∀ holds : Running → Bool, s.running.all holds = true →
        ∀ p, s.running = some p → holds p = true := by
      intro holds all p isRunning
      rw [isRunning] at all
      exact all
    cases label with
    | openEngine other io =>
        have same : other = config := of_decide_eq_true between
        exact same
    | put | get | del | evict =>
        intro p isRunning
        exact of_decide_eq_true (everyone _ between p isRunning)
    | beginSave =>
        intro p isRunning
        have settled := everyone _ between p isRunning
        simpa using settled
    | close calls io =>
        intro call member
        have fine := List.all_eq_true.1 between call member
        simpa using fine
    | crash point => cases between
    | flush | saveCall => trivial
  · intro after p moved isRunning
    rw [moved, Option.all_some, isRunning, Option.all_some, decide_eq_true_eq] at capped
    exact capped

end Checks

/-- The demoted blob is read by the next processes. The key that was in T1 is
gone. -/
theorem clean_restart_demoted :
    ∃ p q, cleanRun.running = some p ∧ twiceReopenedRun.running = some q ∧
      SameT2 p.engine q.engine ∧
      (p.engine.index.find probeKey).map (·.tier) = some kT1Dram ∧
        q.engine.index.find probeKey = none ∧
          (q.engine.get neighbourKey 1 {}).map Prod.fst = some { status := .kOk, bytes := [8] } := by
  have sound := clean_check_sound roomyHash roomyConfig
  have reached : ReachWithin (generationMachine roomyHash) (Cleanly roomyHash roomyConfig)
      cleanRun :=
    ReachWithin.to_last (fun _ => True) (cleanCheck roomyHash roomyConfig)
      (fun s label _ => sound s label) (fun _ _ _ _ _ _ => trivial) (.start rfl) trivial cleanLabels
      (by decide +kernel)
  have first : Restart roomyHash roomyConfig cleanRun reopenedRun :=
    .cycle _ _ closedRun _ (sound cleanRun closeLabel (by decide +kernel)) (exec_next (by decide +kernel))
      (sound closedRun (roomyOpen [0]) (by decide +kernel)) (exec_next (by decide +kernel))
  have second : Restart roomyHash roomyConfig reopenedRun twiceReopenedRun :=
    .cycle _ _ idleClosedRun _ (sound reopenedRun idleClose (by decide +kernel))
      (exec_next (by decide +kernel)) (sound idleClosedRun (roomyOpen [0, 1]) (by decide +kernel))
      (exec_next (by decide +kernel))
  have hot : cleanRun.running.map (fun p => (p.engine.index.find probeKey).map (·.tier)) =
      some (some kT1Dram) := by decide +kernel
  have answered : twiceReopenedRun.running.map (fun q => (q.engine.get neighbourKey 1 {}).map Prod.fst) =
      some (some { status := .kOk, bytes := [8] }) := by decide +kernel
  rcases Option.map_eq_some_iff.1 hot with ⟨p, isRunning, inT1⟩
  rcases clean_restart (by decide) reached isRunning ((Relation.TransGen.single first).tail second) with
    ⟨q, isQ, same⟩
  rw [isQ, Option.map_some, Option.some.injEq] at answered
  rcases Option.map_eq_some_iff.1 inT1 with ⟨entry, found, tier⟩
  exact ⟨p, q, isRunning, isQ, same, inT1, same.gone probeKey entry found tier, answered⟩

end AttentionDB
