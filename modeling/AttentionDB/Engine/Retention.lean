import AttentionDB.Engine.Session

/-!
# Expensive entries are never lost

While every write of the blob store succeeds, eviction erases only entries
below the admission cost. An index entry always describes the latest put of its
key, so a key whose latest put was expensive stays in the index whatever is
evicted, and its entry keeps the length, the checksum and the cost of that put.
-/

namespace AttentionDB

open GuardedRuns

set_option autoImplicit false

structure Describes (entry : IndexEntry) (record : PutRecord) : Prop where
  length : entry.length = UInt32.ofNat record.blob.length
  checksum : entry.checksum = computeCrc32 record.blob
  recomputeCost : entry.recomputeCost = record.opts.recomputeCost

/-- Every key whose latest put cost at least `minRecomputeCost` is in the
index, with the entry of that put. -/
def Retained (session : Session) : Prop :=
  ∀ key record, latest session.log key = some record →
    session.engine.config.admission.minRecomputeCost ≤ record.opts.recomputeCost →
    ∃ entry, session.engine.index.find key = some entry ∧ Describes entry record

/-- `view` is the latest put of each key. -/
structure RetentionInv (index : ConcurrentHashMap) (minRecomputeCost : UInt32)
    (view : StorageKey → Option PutRecord) : Prop where
  described : ∀ key entry, index.find key = some entry →
    ∃ record, view key = some record ∧ Describes entry record
  present : ∀ key record, view key = some record → minRecomputeCost ≤ record.opts.recomputeCost →
    index.find key ≠ none

section Index

variable {index : ConcurrentHashMap} {minRecomputeCost : UInt32}
  {view viewAfter : StorageKey → Option PutRecord} {key : StorageKey} {entry : IndexEntry}
  {record : PutRecord}

theorem RetentionInv.upsert (inv : RetentionInv index minRecomputeCost view)
    (isRecord : viewAfter key = some record) (describes : Describes entry record)
    (others : ∀ other, other ≠ key → viewAfter other = view other) :
    RetentionInv (index.upsert key entry) minRecomputeCost viewAfter := by
  constructor
  · intro other found look
    rw [ConcurrentHashMap.find_upsert] at look
    split at look
    · rename_i same
      cases look
      exact ⟨record, same ▸ isRecord, describes⟩
    · rename_i different
      rw [others other different]
      exact inv.described other found look
  · intro other wanted isWanted expensive
    rw [ConcurrentHashMap.find_upsert]
    split
    · simp
    · rename_i different
      rw [others other different] at isWanted
      exact inv.present other wanted isWanted expensive

/-- A key may go when its latest put was cheap, or when there is none. -/
theorem RetentionInv.erase (inv : RetentionInv index minRecomputeCost view)
    (cheap : ∀ record, viewAfter key = some record → record.opts.recomputeCost < minRecomputeCost)
    (others : ∀ other, other ≠ key → viewAfter other = view other) :
    RetentionInv (index.erase key) minRecomputeCost viewAfter := by
  constructor
  · intro other found look
    rw [ConcurrentHashMap.find_erase] at look
    split at look
    · contradiction
    · rename_i different
      rw [others other different]
      exact inv.described other found look
  · intro other wanted isWanted expensive
    rw [ConcurrentHashMap.find_erase]
    split
    · rename_i same
      subst same
      have tooCheap := cheap wanted isWanted
      rw [UInt32.le_iff_toNat_le] at expensive
      rw [UInt32.lt_iff_toNat_lt] at tooCheap
      omega
    · rename_i different
      rw [others other different] at isWanted
      exact inv.present other wanted isWanted expensive

theorem RetentionInv.touch (inv : RetentionInv index minRecomputeCost view) (key : StorageKey)
    (now : Nat) : RetentionInv (index.updateFn key (·.touch now)) minRecomputeCost view := by
  unfold ConcurrentHashMap.updateFn
  split
  · rename_i entry found
    rcases inv.described key entry found with ⟨record, isRecord, describes⟩
    have touched : Describes (entry.touch now) record :=
      { length := describes.length
        checksum := describes.checksum
        recomputeCost := describes.recomputeCost }
    exact inv.upsert isRecord touched fun _ _ => rfl
  · exact inv

end Index

/-! ## The calls -/

namespace Engine

variable {e after : Engine} {view : StorageKey → Option PutRecord}

def Retains (view : StorageKey → Option PutRecord) (e : Engine) : Prop :=
  RetentionInv e.index e.config.admission.minRecomputeCost view

def NoneRefused (e : Engine) : Prop := ∃ t2, e.t2Store = some t2 ∧ t2.refused = 0

theorem none_refused_earlier (later : Later e after) (bound : NoneRefused after) : NoneRefused e := by
  rcases bound with ⟨t2After, isAfter, none⟩
  rcases later.t2 t2After isAfter with ⟨t2, isStore, moved⟩
  have monotone := moved.refused
  exact ⟨t2, isStore, by omega⟩

/-- A refused write would be counted. -/
theorem not_refused {t2 t2After : T2} {request : WriteRequest} {io : T2WriteIo} {status : Status}
    {loc : BlobLocation} (ran : t2.write request io = some ((status, loc), t2After))
    (none : t2After.refused = 0) : status = .kOk := by
  by_contra bad
  have counted := (T2.write_written ran).1.refused bad
  omega

theorem evict_round_retains {io : EvictIo} (bound : NoneRefused after) (inv : Retains view e)
    (round : EvictRound e io after) : Retains view after := by
  have enabled := none_refused_earlier (evict_round_later round) bound
  cases round with
  | skipped => exact inv
  | dropped t1Eviction victim entry found inT1 cold =>
      apply inv.erase _ fun _ _ => rfl
      intro record isRecord
      rcases inv.described victim entry found with ⟨known, isKnown, describes⟩
      rw [isRecord] at isKnown
      cases isKnown
      rw [← describes.recomputeCost]
      rcases cold with disabled | cheap
      · rcases enabled with ⟨t2, isStore, _⟩
        rw [disabled] at isStore
        contradiction
      · exact cheap
  | refused t1Eviction victim entry found inT1 t2 t2After status loc isStore ran bad =>
      rcases bound with ⟨_, ⟨⟩, none⟩
      exact absurd (not_refused ran none) bad
  | demoted t1Eviction t2Eviction victim entry found inT1 t2 t2After loc isStore ran =>
      rcases inv.described victim entry found with ⟨record, isRecord, describes⟩
      have moved : Describes (demotedEntry entry loc) record :=
        { length := describes.length
          checksum := describes.checksum
          recomputeCost := describes.recomputeCost }
      exact inv.upsert isRecord moved fun _ _ => rfl

theorem evict_run_retains {io : Nat → EvictIo} (bound : NoneRefused after)
    (run : EvictRun io e after) (inv : Retains view e) : Retains view after :=
  run.keeps_under NoneRefused (Retains view) (fun _ _ later bound => none_refused_earlier later bound)
    (fun _ _ _ bound inv round => evict_round_retains bound inv round) bound inv

theorem t1_entry_describes (blob : List UInt8) (opts : PutOpts) (io : PutIo) (ptr : Nat) :
    Describes (t1Entry blob opts io ptr) { blob, opts } :=
  { length := rfl, checksum := rfl, recomputeCost := rfl }

theorem t2_entry_describes (blob : List UInt8) (opts : PutOpts) (io : PutIo) (loc : BlobLocation) :
    Describes (t2Entry blob opts io loc) { blob, opts } :=
  { length := rfl, checksum := rfl, recomputeCost := rfl }

end Engine

section Runs

variable {session after : Session} {label : SessionLabel}

theorem latest_put_self (log : List Call) (key : StorageKey) (blob : List UInt8) (opts : PutOpts) :
    latest (.put key blob opts .kOk :: log) key = some { blob, opts } := by
  simp [latest]

theorem latest_put_other {log : List Call} {key other : StorageKey} {blob : List UInt8}
    {opts : PutOpts} {status : Status} (different : other ≠ key) :
    latest (.put key blob opts status :: log) other = latest log other := by
  simp [latest, different.symm]

theorem latest_put_bad {log : List Call} {key other : StorageKey} {blob : List UInt8}
    {opts : PutOpts} {status : Status} (bad : status ≠ .kOk) :
    latest (.put key blob opts status :: log) other = latest log other := by
  simp [latest, bad]

theorem latest_del_self (log : List Call) (key : StorageKey) :
    latest (.del key .kOk :: log) key = none := by
  simp [latest]

theorem latest_del_other {log : List Call} {key other : StorageKey} {status : Status}
    (different : other ≠ key) : latest (.del key status :: log) other = latest log other := by
  simp [latest, different.symm]

theorem session_retains (bound : after.engine.NoneRefused)
    (inv : session.engine.Retains (latest session.log)) (cases : SessionCases session label after) :
    after.engine.Retains (latest after.log) := by
  cases cases with
  | put key blob opts io status engine cases =>
      cases cases with
      | rejected status admission bad =>
          have same : latest (.put key blob opts status :: session.log) = latest session.log :=
            funext fun _ => latest_put_bad bad
          simp only [same]
          exact inv
      | refused status admission t2 t2After loc isStore ran bad =>
          rcases bound with ⟨_, ⟨⟩, none⟩
          exact absurd (Engine.not_refused ran none) bad
      | storedT1 admission t1Eviction a allocator handle ptr accepted isAllocator allocated run =>
          apply Engine.evict_run_retains bound run
          exact inv.upsert (latest_put_self _ key blob opts) (Engine.t1_entry_describes blob opts io ptr)
            fun _ different => latest_put_other different
      | storedT2 admission t2Eviction t2 t2After loc accepted full isStore ran run =>
          apply Engine.evict_run_retains bound run
          exact inv.upsert (latest_put_self _ key blob opts) (Engine.t2_entry_describes blob opts io loc)
            fun _ different => latest_put_other different
  | get key bufLen io reply engine cases =>
      have touched := inv.touch key io.touchedAt
      cases cases with
      | missed => exact inv
      | fromT1 | fromT2 | nowhere => exact touched
  | del key status engine cases =>
      have erased : RetentionInv (session.engine.index.erase key)
          session.engine.config.admission.minRecomputeCost (latest (.del key .kOk :: session.log)) :=
        inv.erase (by simp [latest_del_self]) fun _ different => latest_del_other different
      cases cases with
      | missed absent =>
          have same : latest (.del key .kNotFound :: session.log) = latest session.log := by
            funext other
            simp [latest]
          simp only [same]
          exact inv
      | fromT1 | fromT2 | fromNowhere => exact erased
  | flush => exact inv

/-- In every run in which the blob store refuses nothing, no expensive entry is
lost. -/
theorem expensive_entries_retained
    (reached : Reach (sessionMachine emptyCheckpoint) session) {t2 : T2}
    (enabled : session.engine.t2Store = some t2) (succeeded : t2.refused = 0) : Retained session := by
  have inv : session.engine.Retains (latest session.log) := by
    apply reached.invariant_under (fun session => session.engine.NoneRefused)
      (fun session => session.engine.Retains (latest session.log)) _ _ _ ⟨t2, enabled, succeeded⟩
    · intro before label after moved bound
      exact Engine.none_refused_earlier (session_later (session_cases moved)) bound
    · intro start initial
      rcases initial with ⟨config, io, empty, opening, _, noLog⟩
      have index := (Engine.open_engine_opened opening).index
      rw [empty] at index
      constructor
      · intro key entry found
        rw [index] at found
        contradiction
      · intro key record isRecord
        rw [noLog] at isRecord
        contradiction
    · intro before label after bound inv _ moved
      exact session_retains bound inv (session_cases moved)
  intro key record isLatest expensive
  cases found : session.engine.index.find key with
  | none => exact absurd found (inv.present key record isLatest expensive)
  | some entry =>
      rcases inv.described key entry found with ⟨known, isKnown, describes⟩
      rw [isLatest] at isKnown
      cases isKnown
      exact ⟨entry, rfl, describes⟩

end Runs

theorem expensive_entries_retained_demoted :
    (∃ entry, (next (sessionMachine emptyCheckpoint) tieredStart tieredPut).engine.index.find
      probeKey = some entry ∧ entry.tier = kT2Nvme) ∧
    Retained (next (sessionMachine emptyCheckpoint) tieredStart tieredPut) := by
  have reached : Reach (sessionMachine emptyCheckpoint)
      (next (sessionMachine emptyCheckpoint) tieredStart tieredPut) :=
    .to_next tieredPut (.start tiered_started) trivial (by decide)
  exact ⟨⟨_, rfl, rfl⟩, expensive_entries_retained reached rfl rfl⟩

end AttentionDB
