import AttentionDB.Engine.CleanRestart
import AttentionDB.Engine.LiveCounts
import AttentionDB.Storage.CountHeaders

/-!
# The live counts after a restart

`close` writes the counts of every segment to the header of its file and `open`
takes them back, while the index comes back from the checkpoint. Both were
saved, so the counts of a recovered segment are those of the recovered index,
and the calls of the new process keep them so.
-/

namespace AttentionDB

open GuardedRuns BlobStore ListSums

set_option autoImplicit false

/-! ## A history with an earlier one behind it

No call looks at the history of its blob store, so a call does the same when
the entries of earlier processes stand behind it. -/

namespace T2

variable {t2 after : T2} {old : List Ack} {request : WriteRequest} {status : Status}
  {loc : BlobLocation}

def prolonged (t2 : T2) (old : List Ack) : T2 := { t2 with acked := t2.acked ++ old }

theorem prolonged_flush_run {steps : List FlushStep} (ran : t2.flushRun steps = some after) :
    (t2.prolonged old).flushRun steps = some (after.prolonged old) := by
  induction steps generalizing t2 with
  | nil =>
      cases ran
      rfl
  | cons step steps ih =>
      simp only [flushRun] at ran ⊢
      have same : (t2.prolonged old).store.flushStep (t2.prolonged old).flush step =
          t2.store.flushStep t2.flush step := rfl
      rw [same]
      split at ran
      · contradiction
      · exact ih ran

theorem prolonged_sleep {naps : List (List FlushStep × SegmentIo)}
    (ran : sleep request naps t2 = some ((status, loc), after)) :
    sleep request naps (t2.prolonged old) = some ((status, loc), after.prolonged old) := by
  induction naps generalizing t2 with
  | nil => contradiction
  | cons nap naps ih =>
      simp only [sleep] at ran ⊢
      split at ran
      · contradiction
      · rename_i middle flushed
        have same : (middle.prolonged old).store = middle.store := rfl
        rw [prolonged_flush_run flushed]
        dsimp only
        rw [same]
        split at ran
        · contradiction
        · contradiction
        · exact ih ran
        · cases ran
          rfl
        · cases ran
          rfl

theorem prolonged_write {io : T2WriteIo}
    (ran : t2.write request io = some ((status, loc), after)) :
    (t2.prolonged old).write request io = some ((status, loc), after.prolonged old) := by
  simp only [write] at ran ⊢
  split at ran
  · contradiction
  · rename_i middle flushed
    have handed : ({ t2.prolonged old with handed := request.data.length :: t2.handed } : T2).flushRun
        io.before = some (middle.prolonged old) := prolonged_flush_run flushed
    have same : (middle.prolonged old).store = middle.store := rfl
    have sameHanded : (t2.prolonged old).handed = t2.handed := rfl
    rw [sameHanded, handed]
    dsimp only
    rw [same]
    split at ran
    · contradiction
    · exact prolonged_sleep ran
    · cases ran
      rfl
    · cases ran
      rfl
    · rename_i store entered
      split at ran
      · contradiction
      · rename_i awake flushedAgain
        have woken : ({ middle.prolonged old with store } : T2).flushRun io.directBefore =
            some (awake.prolonged old) := prolonged_flush_run flushedAgain
        have sameAwake : (awake.prolonged old).store = awake.store := rfl
        rw [woken]
        dsimp only
        rw [sameAwake]
        split at ran
        · cases ran
          rfl
        · cases ran
          rfl
        · contradiction

theorem prolonged_attempt {bufLen attempt : Nat} {io : T2ReadIo} {reply : Option ReadReply}
    (ran : t2.readAttempt loc bufLen attempt io = some (reply, after)) :
    (t2.prolonged old).readAttempt loc bufLen attempt io = some (reply, after.prolonged old) := by
  simp only [readAttempt] at ran ⊢
  split at ran
  · contradiction
  · rename_i looking flushed
    have same : (looking.prolonged old).store = looking.store := rfl
    rw [prolonged_flush_run flushed]
    dsimp only
    rw [same]
    split at ran
    · cases ran
      rfl
    · split at ran
      · contradiction
      · rename_i seeking flushedAgain
        have sameSeeking : (seeking.prolonged old).store = seeking.store := rfl
        rw [prolonged_flush_run flushedAgain]
        dsimp only
        rw [sameSeeking]
        split at ran
        · cases ran
          rfl
        · split at ran
          · contradiction
          · rename_i reading flushedLast
            rw [prolonged_flush_run flushedLast]
            cases ran
            rfl

theorem prolonged_read {bufLen : Nat} {first second : T2ReadIo} {reply : ReadReply}
    (ran : t2.read loc bufLen first second = some (reply, after)) :
    (t2.prolonged old).read loc bufLen first second = some (reply, after.prolonged old) := by
  simp only [read] at ran ⊢
  split at ran
  · contradiction
  · rename_i tried
    cases ran
    rw [prolonged_attempt tried]
  · rename_i middle tried
    rw [prolonged_attempt tried]
    dsimp only
    split at ran
    · contradiction
    · rename_i again
      cases ran
      rw [prolonged_attempt again]
    · rename_i again
      cases ran
      rw [prolonged_attempt again]

end T2

namespace Engine

variable {e after : Engine} {old : List Ack}

def prolonged (e : Engine) (old : List Ack) : Engine :=
  { e with t2Store := e.t2Store.map (·.prolonged old) }

theorem prolonged_store {t2 : T2} (isStore : e.t2Store = some t2) :
    (e.prolonged old).t2Store = some (t2.prolonged old) := by
  rw [prolonged, isStore]
  rfl

theorem prolonged_round {io : EvictIo} (round : EvictRound e io after) :
    EvictRound (e.prolonged old) io (after.prolonged old) := by
  cases round with
  | skipped t1Eviction => exact EvictRound.skipped (e := e.prolonged old) t1Eviction
  | dropped t1Eviction victim entry found inT1 cold =>
      have stillCold : (e.prolonged old).t2Store = none ∨
          entry.recomputeCost < (e.prolonged old).config.admission.minRecomputeCost := by
        rcases cold with noStore | cheap
        · left
          rw [prolonged, noStore]
          rfl
        · exact .inr cheap
      exact EvictRound.dropped (e := e.prolonged old) t1Eviction victim entry found inT1 stillCold
  | refused t1Eviction victim entry found inT1 t2 t2After status loc isStore ran bad =>
      exact EvictRound.refused (e := e.prolonged old) t1Eviction victim entry found inT1 _ _ status
        loc (prolonged_store isStore) (T2.prolonged_write ran) bad
  | demoted t1Eviction t2Eviction victim entry found inT1 t2 t2After loc isStore ran =>
      exact EvictRound.demoted (e := e.prolonged old) t1Eviction t2Eviction victim entry found inT1 _
        _ loc (prolonged_store isStore) (T2.prolonged_write ran)

theorem prolonged_run {io : Nat → EvictIo} (run : EvictRun io e after) :
    EvictRun io (e.prolonged old) (after.prolonged old) := by
  induction run with
  | done e => exact .done _
  | round i first _ ih => exact .round i (prolonged_round first) ih

theorem prolonged_put {key : StorageKey} {blob : List UInt8} {opts : PutOpts} {io : PutIo}
    {status : Status} (cases : PutCases e key blob opts io status after) :
    PutCases (e.prolonged old) key blob opts io status (after.prolonged old) := by
  cases cases with
  | rejected status admission bad =>
      exact PutCases.rejected (e := e.prolonged old) status admission bad
  | refused status admission t2 t2After loc isStore ran bad =>
      exact PutCases.refused (e := e.prolonged old) status admission _ _ loc
        (prolonged_store isStore) (T2.prolonged_write ran) bad
  | storedT1 admission t1Eviction a allocator handle ptr accepted isAllocator allocated run =>
      exact PutCases.storedT1 (e := e.prolonged old) admission t1Eviction a allocator handle ptr
        accepted isAllocator allocated (prolonged_run run)
  | storedT2 admission t2Eviction t2 t2After loc accepted full isStore ran run =>
      exact PutCases.storedT2 (e := e.prolonged old) admission t2Eviction _ _ loc accepted full
        (prolonged_store isStore) (T2.prolonged_write ran) (prolonged_run run)

theorem prolonged_get {key : StorageKey} {bufLen : Nat} {io : GetIo} {reply : ReadReply}
    (cases : GetCases e key bufLen io reply after) :
    GetCases (e.prolonged old) key bufLen io reply (after.prolonged old) := by
  cases cases with
  | missed reply bad => exact .missed reply bad
  | fromT1 entry t1Eviction found inT1 =>
      exact GetCases.fromT1 (e := e.prolonged old) entry t1Eviction found inT1
  | fromT2 reply entry t2Eviction t2 t2After found inT2 isStore ran =>
      exact GetCases.fromT2 (e := e.prolonged old) reply entry t2Eviction _ _ found inT2
        (prolonged_store isStore) (T2.prolonged_read ran)
  | nowhere reply bad => exact GetCases.nowhere (e := e.prolonged old) reply bad

theorem prolonged_del (e : Engine) (key : StorageKey) :
    (e.del key).2.prolonged old = ((e.prolonged old).del key).2 := by
  have same : (e.prolonged old).index = e.index := rfl
  unfold del
  rw [same]
  cases e.index.find key with
  | none => rfl
  | some entry =>
      by_cases inT2 : entry.tier = kT2Nvme
      · have notInT1 : entry.tier ≠ kT1Dram := by
          rw [inT2]
          decide
        have swap : (e.t2Store.map (·.markDead (entryLocation entry))).map (·.prolonged old) =
            (e.t2Store.map (·.prolonged old)).map (·.markDead (entryLocation entry)) := by
          cases e.t2Store <;> rfl
        simp only [if_neg notInT1, if_pos inT2, prolonged, swap]
      · simp only [if_neg inT2]
        split_ifs <;> rfl

end Engine

/-! ## Runs of several processes -/

/-- No put that passes admission has a key with an entry in T2, the headers that
`close` writes reach their files, and `open` reads them. -/
def Generations.keepsCounts (s : Generations) : GenerationLabel → Prop
  | .openEngine _ io => ∀ listing, io.store.listing = some listing →
      ∀ entry ∈ listing, entry.headerRead = true
  | .put key blob opts _ => ∀ p, s.running = some p → p.engine.Accepted blob opts →
      ∀ entry, p.engine.index.find key = some entry → entry.tier ≠ kT2Nvme
  | .close _ io => ∀ i, (io.headers i).header = .complete
  | _ => True

/-- The numbers of segments and of entries in each of them fit their counters,
those of earlier processes included. -/
structure Counting (xxh32 : List UInt8 → UInt32) (config : Config) (s : Generations)
    (label : GenerationLabel) : Prop where
  clean : Cleanly xxh32 config s label
  keeps : s.keepsCounts label
  range : ∀ after p, (generationMachine xxh32).exec s label = some after →
    after.running = some p → (p.engine.prolonged after.old).InRange

def Generations.oldIn (s : Generations) (segmentId : Nat) : Nat :=
  s.old.countP (·.loc.segmentId = segmentId)

def Generations.savedIndex (xxh32 : List UInt8 → UInt32) (s : Generations) : ConcurrentHashMap :=
  Engine.loadedIndex (Generations.acceptedCheckpoint xxh32 s.checkpoint)

structure HeadersRight (xxh32 : List UInt8 → UInt32) (s : Generations) : Prop where
  distinct : s.ids.Nodup
  small : ∀ id ∈ s.ids, id + 1 < 2 ^ 32
  counts : ∀ id ∈ s.ids, CountsOnFile (s.files (.canonical id)) (s.oldIn id)
    (t2Entries (s.savedIndex xxh32) id)
  known : ∀ id, 0 < s.oldIn id → id ∈ s.ids
  bounded : ∀ id, t2Entries (s.savedIndex xxh32) id ≤ s.oldIn id

/-- A process counts its entries and those before it; between two processes the
files do. -/
structure CountInv (xxh32 : List UInt8 → UInt32) (s : Generations) : Prop where
  clean : CleanInv xxh32 s
  counted : ∀ p, s.running = some p → (p.engine.prolonged s.old).Counted fun _ => 0
  range : ∀ p, s.running = some p → (p.engine.prolonged s.old).InRange
  headers : s.running = none → HeadersRight xxh32 s

section Restarts

variable {xxh32 : List UInt8 → UInt32} {config : Config} {s after : Generations} {p : Running}
  {label : GenerationLabel}

/-- A T1 entry weighs nothing, so an index without them weighs the same. -/
theorem t2_entries_agree {file : Option (List UInt8)} {index : ConcurrentHashMap}
    (agrees : Agrees xxh32 file index) (segmentId : Nat) :
    t2Entries (Engine.loadedIndex (Generations.acceptedCheckpoint xxh32 file)) segmentId =
      t2Entries index segmentId := by
  apply table_sum_same
  intro key
  have looked := agrees key
  unfold ConcurrentHashMap.find at looked
  rw [looked]
  cases index.lookup key with
  | none => rfl
  | some entry =>
      by_cases inT1 : entry.tier = kT1Dram
      · have weightless : t2Weight segmentId entry = 0 := t2_weight_elsewhere (by rw [inT1]; decide)
        simp [Option.filter, inT1, weightless]
      · simp [Option.filter, inT1]

theorem opened_counted (headers : HeadersRight xxh32 s) {io : Engine.OpenIo}
    (reliable : OpensReliably xxh32 s config io)
    (headersRead : ∀ listing, io.store.listing = some listing →
      ∀ entry ∈ listing, entry.headerRead = true)
    (ran : s.recovered xxh32 config io = some p)
    (range : (p.engine.prolonged s.old).InRange) : (p.engine.prolonged s.old).Counted fun _ => 0 := by
  unfold Generations.recovered at ran
  rw [Option.map_eq_some_iff] at ran
  obtain ⟨engine, opening, rfl⟩ := ran
  have opened := Engine.open_engine_opened opening
  obtain ⟨listing, ids, listed, finds, perm⟩ := reliable.listing
  intro prolonged isStore
  obtain ⟨t2, isHere, rfl⟩ := Option.map_eq_some_iff.1 isStore
  have room := (range _ isStore).segments
  obtain ⟨store, rfl, ok⟩ := opened.t2 t2 isHere
  have isOk : (openStore config.nvmeStore s.files io.store).1 = .kOk := by rw [ok]
  have same : (openStore config.nvmeStore s.files io.store).2 = store := by rw [ok]
  have index : (engine.prolonged s.old).index = s.savedIndex xxh32 := opened.index
  have counts : Counts (openStore config.nvmeStore s.files io.store).2 false
      (t2Entries (s.savedIndex xxh32)) s.oldIn := by
    apply Counts.reopened isOk listed finds (headersRead listing listed)
      (perm.nodup_iff.2 headers.distinct)
    · intro id member
      exact headers.small id (perm.mem_iff.1 member)
    · rw [same]
      exact room
    · intro id member
      exact headers.counts id (perm.mem_iff.1 member)
    · intro id used
      exact perm.mem_iff.2 (headers.known id used)
    · exact headers.bounded
  rw [same] at counts
  rw [index]
  exact counts

theorem closed_headers (inv : CleanInv xxh32 s) (isRunning : s.running = some p)
    (counted : (p.engine.prolonged s.old).Counted fun _ => 0)
    (range : (p.engine.prolonged s.old).InRange) {checkpoint : Option (List UInt8)} {io : CloseIo}
    {t2 : T2} {store : BlobStore} (agrees : Agrees xxh32 checkpoint p.engine.index)
    (isStore : p.engine.t2Store = some t2) (complete : ∀ i, (io.headers i).header = .complete)
    (closes : t2.store.close t2.flush io = some store) :
    HeadersRight xxh32 ({ s with checkpoint }.ended (some { t2 with store })) := by
  have counts := counted _ (Engine.prolonged_store isStore)
  have fits := range _ (Engine.prolonged_store isStore)
  have alive := (inv.base.safe p isRunning).t2 t2 isStore
  have buffered := (inv.base.buffered p isRunning) t2 isStore
  have entries : ∀ seg ∈ t2.store.segments,
      seg.entryCount = (t2.acked ++ s.old).countP (·.loc.segmentId = seg.id) := counts.entryCounts
  have live : ∀ seg ∈ t2.store.segments, seg.liveCount = t2Entries p.engine.index seg.id :=
    counts.liveCounts
  have saved := t2_entries_agree agrees
  obtain ⟨ids, onFile⟩ := closed_counts closes complete alive.named counts.distinct (by
    intro seg member
    have few := fits.entries seg.id
    have bounded := counts.bounded seg.id
    have same := counts.entryCounts seg member
    have sameLive := counts.liveCounts seg member
    omega)
  have known : ∀ id, id ∈ store.segmentIds ↔ ∃ seg ∈ t2.store.segments, seg.id = id := by
    intro id
    rw [ids, segmentIds, List.mem_map]
  constructor
  · change store.segmentIds.Nodup
    rw [ids]
    exact counts.distinct
  · intro id member
    obtain ⟨seg, inside, rfl⟩ := (known id).1 member
    have below := counts.below seg inside
    have few := buffered.segments
    have sameStore : (t2.prolonged s.old).store = t2.store := rfl
    rw [sameStore] at below
    omega
  · intro id member
    obtain ⟨seg, inside, rfl⟩ := (known id).1 member
    have here := onFile seg inside
    rw [entries seg inside, live seg inside, ← saved] at here
    exact here
  · intro id used
    exact (known id).2 (counts.known id used)
  · intro id
    have bounded := counts.bounded id
    dsimp only at bounded
    rw [Generations.savedIndex, Generations.ended, saved]
    exact bounded

theorem CountInv.moved {engine : Engine} {evicting dirty : Bool} {log : List Call}
    (clean : CleanInv xxh32 { s with running := some { p with engine, evicting, dirty }, log })
    (range : (engine.prolonged s.old).InRange)
    (counted : (engine.prolonged s.old).Counted fun _ => 0) :
    CountInv xxh32 { s with running := some { p with engine, evicting, dirty }, log } := by
  refine { clean, counted := ?_, range := ?_, headers := ?_ }
  · intro q isQ
    cases isQ
    exact counted
  · intro q isQ
    cases isQ
    exact range
  · intro down
    cases down

theorem count_step (enabled : config.nvmeStore.enabled = true) (inv : CountInv xxh32 s)
    (allowed : Counting xxh32 config s label)
    (moved : (generationMachine xxh32).exec s label = some after) : CountInv xxh32 after := by
  have clean := clean_step enabled inv.clean allowed.clean moved
  have range : ∀ p, after.running = some p → (p.engine.prolonged after.old).InRange :=
    fun p => allowed.range after p moved
  have keeps := allowed.keeps
  cases generation_cases moved with
  | opened other io p down ran =>
      have same : other = config := allowed.clean.between
      subst same
      refine { clean, counted := ?_, range, headers := ?_ }
      · intro q isQ
        cases isQ
        exact opened_counted (s := s) (inv.headers down) allowed.clean.reliable.io keeps ran
          (range p rfl)
      · intro down
        cases down
  | put key blob opts io p status engine isRunning ran =>
      apply CountInv.moved clean (range _ rfl)
      have cases : Engine.PutCases (p.engine.prolonged s.old) key blob opts io status
          (engine.prolonged s.old) := Engine.prolonged_put (Engine.put_upsert_cases ran)
      rcases Engine.put_counted (inv.counted p isRunning) (range _ rfl) cases with
        ⟨_, accepted, more⟩ | kept
      · have none : ∀ id, heldBy (p.engine.prolonged s.old).index key id = 0 := fun id =>
          held_by_none (keeps p isRunning accepted)
        simp only [none, Nat.add_zero] at more
        exact more
      · exact kept.2
  | evicted io p more engine isRunning busy ran =>
      apply CountInv.moved clean (range _ rfl)
      rcases Engine.evict_round_cases ran with ⟨rfl, _⟩ | round
      · exact inv.counted p isRunning
      · exact Engine.evict_round_counted (inv.counted p isRunning) (range _ rfl)
          (Engine.prolonged_round round)
  | get key bufLen io p reply engine isRunning ran =>
      apply CountInv.moved clean (range _ rfl)
      exact Engine.get_counted (inv.counted p isRunning)
        (Engine.prolonged_get (Engine.get_cases ran))
  | del key p isRunning =>
      apply CountInv.moved clean (range _ rfl)
      rw [Engine.prolonged_del]
      exact Engine.del_counted (inv.counted p isRunning) key
  | flushed step p t2 t2After isRunning isStore ran =>
      apply CountInv.moved clean (range _ rfl)
      intro prolonged isAfter
      cases isAfter
      exact T2.flush_run_counted (inv.counted p isRunning _ (Engine.prolonged_store isStore))
        (T2.prolonged_flush_run ran)
  | beganSave p isRunning | saved call p run next isRunning =>
      refine { clean, counted := ?_, range, headers := ?_ }
      · intro q isQ
        cases isQ
        exact inv.counted p isRunning
      · intro down
        cases down
  | closed calls io p checkpoint found isRunning settled idle saved store =>
      have fine : ∀ call ∈ calls, call.fails = false := allowed.clean.between
      have agrees := inv.clean.final_save isRunning fine saved
      rcases store with ⟨noStore, _⟩ | ⟨t2, store, isStore, closes, rfl⟩
      · obtain ⟨t2, isStore⟩ := inv.clean.enabled p isRunning
        rw [isStore] at noStore
        cases noStore
      · refine { clean, counted := ?_, range, headers := fun _ => ?_ }
        · intro q isQ
          cases isQ
        · exact closed_headers inv.clean isRunning (inv.counted p isRunning) (inv.range p isRunning)
            agrees isStore keeps closes
  | crashed point => exact allowed.clean.between.elim

theorem count_start : CountInv xxh32 {} where
  clean :=
    { base := generation_start rfl
      clean := fun p isRunning => by cases isRunning
      evicting := fun p isRunning => by cases isRunning
      saving := fun p run isRunning => by cases isRunning
      capped := fun p isRunning => by cases isRunning
      enabled := fun p isRunning => by cases isRunning }
  counted p isRunning := by cases isRunning
  range p isRunning := by cases isRunning
  headers _ :=
    { distinct := List.nodup_nil
      small := fun id member => by cases member
      counts := fun id member => by cases member
      known := fun id used => absurd used (Nat.lt_irrefl 0)
      bounded := fun id => Nat.le_refl 0 }

/-- In every run of processes that are closed before the next one is opened, and
in which no put overwrites a T2 entry: each segment, recovered or new, counts
as live exactly the T2 entries of the index in it, and as entries all that any
process has placed in it. -/
theorem live_counts_survive (enabled : config.nvmeStore.enabled = true)
    (reached : ReachWithin (generationMachine xxh32) (Counting xxh32 config) s)
    (isRunning : s.running = some p) :
    p.engine.LiveCountsRight ∧ ∀ t2, p.engine.t2Store = some t2 → ∀ seg ∈ t2.store.segments,
      seg.entryCount = s.ledger.countP (·.loc.segmentId = seg.id) := by
  have inv : CountInv xxh32 s := by
    apply reached.invariant (CountInv xxh32)
    · rintro state rfl
      exact count_start
    · exact fun _ _ _ inv allowed moved => count_step enabled inv allowed moved
  constructor
  · intro t2 isStore seg member
    have counts := inv.counted p isRunning _ (Engine.prolonged_store isStore)
    have live := counts.liveCounts seg member
    have entries := counts.entryCounts seg member
    have bounded := counts.bounded seg.id
    refine ⟨live, ?_⟩
    rw [live, entries]
    exact bounded
  · intro t2 isStore seg member
    have counts := inv.counted p isRunning _ (Engine.prolonged_store isStore)
    rw [ledger_running isRunning, Engine.acked_of_store isStore]
    exact counts.entryCounts seg member

end Restarts

/-! ## A count that outlives a restart -/

def countRangeCheck (s : Generations) (label : GenerationLabel) : Bool :=
  ((generationMachine roomyHash).exec s label).all fun after => after.running.all fun p =>
    (p.engine.prolonged after.old).t2Store.all fun t2 =>
      decide (t2.refused = 0) && decide (t2.store.nextSegmentId ≤ 2 ^ 32) &&
        decide (t2.acked.length < 2 ^ 32)

def keepsCountsCheck (s : Generations) : GenerationLabel → Bool
  | .openEngine _ io => io.store.listing.all fun listing => listing.all (·.headerRead)
  | .put key _ _ _ => s.running.all fun p => (p.engine.index.find key).all fun entry =>
      decide (entry.tier ≠ kT2Nvme)
  | .close _ _ => false
  | _ => true

theorem count_range_sound {s : Generations} {label : GenerationLabel}
    (clean : Cleanly roomyHash roomyConfig s label) (checked : countRangeCheck s label = true) :
    ∀ after p, (generationMachine roomyHash).exec s label = some after →
      after.running = some p → (p.engine.prolonged after.old).InRange := by
  intro after p moved isRunning t2 isStore
  have numbers := checked
  rw [countRangeCheck, moved, Option.all_some, isRunning, Option.all_some, isStore,
    Option.all_some] at numbers
  simp only [Bool.and_eq_true, decide_eq_true_eq] at numbers
  obtain ⟨⟨accepted, segments⟩, short⟩ := numbers
  obtain ⟨here, isHere, rfl⟩ := Option.map_eq_some_iff.1 isStore
  have buffered := clean.reliable.buffered after p moved isRunning here isHere
  refine { accepted, segments, fits := buffered.fits, entries := ?_ }
  intro segmentId
  have fewer : (here.prolonged after.old).entriesIn segmentId ≤
      (here.prolonged after.old).acked.length := List.countP_le_length
  omega

theorem counting_check_sound (s : Generations) (label : GenerationLabel)
    (checked : (cleanCheck roomyHash roomyConfig s label && keepsCountsCheck s label && countRangeCheck s label) = true) :
    Counting roomyHash roomyConfig s label := by
  simp only [Bool.and_eq_true] at checked
  obtain ⟨⟨clean, kept⟩, range⟩ := checked
  have cleanly := clean_check_sound roomyHash roomyConfig s label clean
  refine { clean := cleanly, keeps := ?_, range := count_range_sound cleanly range }
  cases label with
  | put key blob opts io =>
      intro p isRunning _ entry found inT2
      simp [keepsCountsCheck, isRunning, found, inT2] at kept
  | openEngine config io =>
      intro listing listed
      simpa [keepsCountsCheck, listed] using kept
  | close => cases kept
  | _ => trivial

/-- The one entry was demoted by the first process, and the second one counts
it in the segment that it recovered. -/
theorem live_counts_survive_demoted :
    ∃ p, reopenedRun.running = some p ∧ p.engine.LiveCountsRight ∧
      p.engine.t2Store.map (fun t2 => t2.store.segments.map fun seg => (seg.id, seg.liveCount)) =
        some [(0, 1), (1, 0)] := by
  have first : ReachWithin (generationMachine roomyHash) (Counting roomyHash roomyConfig)
      cleanRun :=
    ReachWithin.to_last (fun _ => True)
      (fun s label => cleanCheck roomyHash roomyConfig s label && keepsCountsCheck s label && countRangeCheck s label)
      (fun s label _ => counting_check_sound s label) (fun _ _ _ _ _ _ => trivial) (.start rfl)
      trivial cleanLabels (by decide +kernel)
  have cleanClose := clean_check_sound roomyHash roomyConfig cleanRun closeLabel (by decide +kernel)
  have closing : Counting roomyHash roomyConfig cleanRun closeLabel :=
    { clean := cleanClose
      keeps := fun _ => rfl
      range := count_range_sound cleanClose (by decide +kernel) }
  have closed := first.to_next closeLabel closing (by decide +kernel)
  have opening : Counting roomyHash roomyConfig closedRun (roomyOpen [0]) :=
    counting_check_sound closedRun (roomyOpen [0]) (by decide +kernel)
  have reached := closed.to_next (roomyOpen [0]) opening (by decide +kernel)
  have counted : reopenedRun.running.map (fun p => p.engine.t2Store.map fun t2 =>
      t2.store.segments.map fun seg => (seg.id, seg.liveCount)) = some (some [(0, 1), (1, 0)]) := by
    decide +kernel
  obtain ⟨p, isRunning, counts⟩ := Option.map_eq_some_iff.1 counted
  exact ⟨p, isRunning, (live_counts_survive (by decide) reached isRunning).1, counts⟩

end AttentionDB
