import AttentionDB.Engine.Retention
import AttentionDB.Engine.TierTrackers
import AttentionDB.Lib.ListSums
import AttentionDB.Storage.SegmentCounts

/-!
# Live entries and the index

The collector chooses its victims by the live counts of the segments. A write
raises the count of its segment and a delete lowers it again, but a put over a
key that has an entry in T2 drops that entry from the index and never marks it
dead. So the counts are those of the index as long as no such put is made, they
are too high after the first one, and they never recover.
-/

namespace AttentionDB

open GuardedRuns BlobStore ListSums

set_option autoImplicit false

def t2Weight (segmentId : Nat) (entry : IndexEntry) : Nat :=
  if entry.tier = kT2Nvme ∧ entry.segmentId.toNat = segmentId then 1 else 0

def t2Entries (index : ConcurrentHashMap) (segmentId : Nat) : Nat :=
  tableSum (t2Weight segmentId) index

def Engine.LiveCountsRight (e : Engine) : Prop :=
  ∀ t2, e.t2Store = some t2 → ∀ seg ∈ t2.store.segments,
    seg.liveCount = t2Entries e.index seg.id ∧ seg.liveCount ≤ seg.entryCount

/-! ## Counting in the index -/

section Sums

variable {index : ConcurrentHashMap} {key : StorageKey} {entry : IndexEntry} {segmentId : Nat}

def heldBy (index : ConcurrentHashMap) (key : StorageKey) (segmentId : Nat) : Nat :=
  match index.find key with
  | none => 0
  | some entry => t2Weight segmentId entry

theorem t2_entries_erase (index : ConcurrentHashMap) (key : StorageKey) (segmentId : Nat) :
    t2Entries (index.erase key) segmentId + heldBy index key segmentId = t2Entries index segmentId := by
  unfold heldBy
  cases found : index.find key with
  | none => exact table_sum_erase_absent (t2Weight segmentId) index key found
  | some entry => exact table_sum_erase (t2Weight segmentId) index key entry found

theorem t2_entries_upsert (index : ConcurrentHashMap) (key : StorageKey) (entry : IndexEntry)
    (segmentId : Nat) : t2Entries (index.upsert key entry) segmentId + heldBy index key segmentId =
      t2Entries index segmentId + t2Weight segmentId entry := by
  have inserted : t2Entries (index.upsert key entry) segmentId =
      t2Weight segmentId entry + t2Entries (index.erase key) segmentId :=
    table_sum_insert (t2Weight segmentId) index key entry
  have erased := t2_entries_erase index key segmentId
  omega

theorem held_by_found (found : index.find key = some entry) :
    heldBy index key segmentId = t2Weight segmentId entry := by
  rw [heldBy, found]

theorem t2_weight_elsewhere (notInT2 : entry.tier ≠ kT2Nvme) : t2Weight segmentId entry = 0 := by
  rw [t2Weight, if_neg]
  intro both
  exact notInT2 both.1

theorem held_by_none (notInT2 : ∀ entry, index.find key = some entry → entry.tier ≠ kT2Nvme) :
    heldBy index key segmentId = 0 := by
  unfold heldBy
  cases found : index.find key with
  | none => rfl
  | some entry => exact t2_weight_elsewhere (notInT2 entry found)

theorem t2_entries_touch (now : Nat) :
    t2Entries (index.updateFn key (·.touch now)) segmentId = t2Entries index segmentId := by
  unfold ConcurrentHashMap.updateFn
  split
  · rename_i old found
    have upserted := t2_entries_upsert index key (old.touch now) segmentId
    have same : t2Weight segmentId (old.touch now) = t2Weight segmentId old := rfl
    rw [held_by_found found, same] at upserted
    change t2Entries (index.upsert key (old.touch now)) segmentId = _
    omega
  · rfl

end Sums

/-! ## One call of the blob store -/

namespace T2

def entriesIn (t2 : T2) (segmentId : Nat) : Nat := t2.acked.countP (·.loc.segmentId = segmentId)

/-- Every write was accepted and took the buffered branch, and the numbers of
segments and of entries in each of them fit their counters. -/
structure InRange (t2 : T2) : Prop where
  accepted : t2.refused = 0
  fits : ∀ length ∈ t2.handed, entryDiskSize length ≤ blockCapacity t2.store.config
  segments : t2.store.nextSegmentId ≤ 2 ^ 32
  entries : ∀ segmentId, t2.entriesIn segmentId < 2 ^ 32

variable {t2 after : T2} {request : WriteRequest} {status : Status} {loc : BlobLocation}
  {live : Nat → Nat}

theorem InRange.earlier (range : InRange after) (later : Later t2 after)
    (grown : t2.acked.Sublist after.acked) : InRange t2 where
  accepted := by
    have refused := later.refused
    have accepted := range.accepted
    omega
  fits length member := later.config ▸ range.fits length (later.handed length member)
  segments := Nat.le_trans later.segments range.segments
  entries segmentId := Nat.lt_of_le_of_lt (List.Sublist.countP_le grown) (range.entries segmentId)

theorem entries_in_stored (store : BlobStore) (block : Option Nat) :
    ({ t2 with store }.stored request loc block).entriesIn = bump t2.entriesIn loc.segmentId := by
  funext id
  unfold entriesIn stored bump
  rw [List.countP_cons]
  by_cases same : loc.segmentId = id
  · simp [same]
  · simp [same, Ne.symm same]

/-! ### The history of a write -/

theorem sleep_grows {naps : List (List FlushStep × SegmentIo)}
    (ran : sleep request naps t2 = some ((status, loc), after)) :
    t2.acked.Sublist after.acked := by
  induction naps generalizing t2 with
  | nil => contradiction
  | cons nap naps ih =>
      simp only [sleep] at ran
      split at ran
      · contradiction
      · rename_i middle flushed
        rw [← (flush_run_frame flushed).1]
        split at ran
        · contradiction
        · contradiction
        · have rest := ih ran
          exact rest
        · cases ran
          exact List.Sublist.refl _
        · cases ran
          exact List.sublist_cons_self _ _

theorem write_grows {io : T2WriteIo} (ran : t2.write request io = some ((status, loc), after)) :
    t2.acked.Sublist after.acked := by
  simp only [write] at ran
  split at ran
  · contradiction
  · rename_i middle flushed
    have same : middle.acked = t2.acked := (flush_run_frame flushed).1
    rw [← same]
    split at ran
    · contradiction
    · have rest := sleep_grows ran
      exact rest
    · cases ran
      exact List.Sublist.refl _
    · cases ran
      exact List.sublist_cons_self _ _
    · split at ran
      · contradiction
      · rename_i awake flushedAgain
        have sameAgain : awake.acked = middle.acked := (flush_run_frame flushedAgain).1
        rw [← sameAgain]
        split at ran
        · cases ran
          exact List.sublist_cons_self _ _
        · cases ran
          exact List.Sublist.refl _
        · contradiction

/-! ### The counts after a write -/

/-- The counts of the store are those of its history. -/
abbrev Counted (t2 : T2) (asleep : Bool) (live : Nat → Nat) : Prop :=
  Counts t2.store asleep live t2.entriesIn

theorem flush_run_counted {asleep : Bool} {steps : List FlushStep} (counted : t2.Counted asleep live)
    (ran : t2.flushRun steps = some after) : after.Counted asleep live := by
  apply flush_run_invariant (fun other => other.Counted asleep live) _ ran counted
  intro other step flush store _ moved counted
  exact counted.flush_step moved

theorem read_counted {asleep : Bool} {bufLen : Nat} {first second : T2ReadIo} {reply : ReadReply}
    (counted : t2.Counted asleep live)
    (ran : t2.read loc bufLen first second = some (reply, after)) : after.Counted asleep live := by
  obtain ⟨steps, _, flushed⟩ := read_flushes ran
  exact flush_run_counted counted flushed

/-- A section of a write stored the entry, and the counters had room for it. -/
theorem stored_counted {store : BlobStore} {block : Option Nat}
    (done : CountsAfter live t2.entriesIn (.stored loc) store) :
    loc.segmentId < 2 ^ 32 ∧
      ({ t2 with store }.stored request loc block).Counted false (bump live loc.segmentId) := by
  refine ⟨done.1, ?_⟩
  unfold Counted
  rw [entries_in_stored]
  exact done.2

theorem stored_room {store : BlobStore} {block : Option Nat}
    (range : InRange ({ t2 with store }.stored request loc block)) :
    t2.entriesIn loc.segmentId + 1 < 2 ^ 32 := by
  have entries := range.entries loc.segmentId
  rw [entries_in_stored, bump_self] at entries
  exact entries

theorem sleep_counted {naps : List (List FlushStep × SegmentIo)} (counted : t2.Counted true live)
    (ran : sleep request naps t2 = some ((status, loc), after)) (range : InRange after) :
    loc.segmentId < 2 ^ 32 ∧ after.Counted false (bump live loc.segmentId) := by
  induction naps generalizing t2 with
  | nil => contradiction
  | cons nap naps ih =>
      simp only [sleep] at ran
      split at ran
      · contradiction
      · rename_i middle flushed
        have still := flush_run_counted counted flushed
        split at ran
        · contradiction
        · contradiction
        · rename_i store acquired
          have later : Later { middle with store } after := (sleep_written ran).later
          have segments := Nat.le_trans later.segments range.segments
          have waits : ({ middle with store } : T2).Counted true live :=
            still.acquire (acquire_cases acquired) segments (by simp)
          exact ih waits ran
        · rename_i status store acquired
          cases ran
          have accepted := range.accepted
          simp at accepted
        · rename_i loc store acquired
          cases ran
          apply stored_counted
          apply still.acquire (acquire_cases acquired) range.segments
          rintro _ ⟨⟩
          exact stored_room range

/-- A write that was accepted adds one to both counts of the segment that its
location names. -/
theorem write_counted {io : T2WriteIo} (counted : t2.Counted false live)
    (ran : t2.write request io = some ((status, loc), after)) (range : InRange after) :
    loc.segmentId < 2 ^ 32 ∧ after.Counted false (bump live loc.segmentId) := by
  have written := write_written ran
  have fits := range.fits _ written.2
  rw [written.1.later.config] at fits
  have handed : ({ t2 with handed := request.data.length :: t2.handed } : T2).Counted false live :=
    counted
  simp only [write] at ran
  split at ran
  · contradiction
  · rename_i middle flushed
    have still := flush_run_counted handed flushed
    have config : middle.store.config = t2.store.config := (flush_run_later flushed).config
    split at ran
    · contradiction
    · rename_i store entered
      have later : Later { middle with store } after := (sleep_written ran).later
      have segments := Nat.le_trans later.segments range.segments
      have waits : ({ middle with store } : T2).Counted true live :=
        still.enter (enter_cases entered) segments (by simp)
      exact sleep_counted waits ran range
    · cases ran
      have accepted := range.accepted
      simp at accepted
    · rename_i loc store entered
      cases ran
      apply stored_counted
      apply still.enter (enter_cases entered) range.segments
      rintro _ ⟨⟩
      exact stored_room range
    · rename_i store entered
      -- the entry fits a block
      cases enter_cases entered with
      | goesDirect b isActive long short =>
          rw [still.capacity b, config] at long
          omega
      | rotates b isActive fits full short rest => cases rest

end T2

/-! ## The calls of the engine -/

namespace Engine

variable {e after : Engine} {lost : Nat → Nat}

def InRange (e : Engine) : Prop := ∀ t2, e.t2Store = some t2 → t2.InRange

/-- The live counts are those of the index and of the entries that were lost:
dropped from the index without being marked dead. -/
def Counted (e : Engine) (lost : Nat → Nat) : Prop :=
  ∀ t2, e.t2Store = some t2 → t2.Counted false fun id => t2Entries e.index id + lost id

/-- What no call takes back, with the history of the blob store. -/
structure Grows (e after : Engine) : Prop where
  later : Later e after
  acked : ∀ t2 t2After, e.t2Store = some t2 → after.t2Store = some t2After →
    t2.acked.Sublist t2After.acked

theorem Grows.refl (e : Engine) : Grows e e where
  later := Later.refl e
  acked t2 t2After isStore isAfter := by
    rw [isStore] at isAfter
    cases isAfter
    exact List.Sublist.refl _

theorem Grows.trans {middle : Engine} (first : Grows e middle) (second : Grows middle after) :
    Grows e after where
  later := first.later.trans second.later
  acked t2 t2After isStore isAfter := by
    obtain ⟨t2Middle, isMiddle, _⟩ := second.later.t2 t2After isAfter
    exact (first.acked t2 t2Middle isStore isMiddle).trans
      (second.acked t2Middle t2After isMiddle isAfter)

theorem Later.grows_same (later : Later e after) (t2 : after.t2Store = e.t2Store) : Grows e after where
  later := later
  acked store storeAfter isStore isAfter := by
    rw [t2, isStore] at isAfter
    cases isAfter
    exact List.Sublist.refl _

theorem Later.grows_new (later : Later e after) {t2 t2After : T2} (isStore : e.t2Store = some t2)
    (isAfter : after.t2Store = some t2After) (grown : t2.acked.Sublist t2After.acked) :
    Grows e after where
  later := later
  acked store storeAfter isHere isThere := by
    rw [isStore] at isHere
    cases isHere
    rw [isAfter] at isThere
    cases isThere
    exact grown

theorem in_range_earlier (grows : Grows e after) (range : after.InRange) : e.InRange := by
  intro t2 isStore
  have enabled := grows.later.t2Enabled
  rw [isStore] at enabled
  obtain ⟨t2After, isAfter⟩ := Option.isSome_iff_exists.1 enabled
  obtain ⟨same, isSame, moved⟩ := grows.later.t2 t2After isAfter
  rw [isStore] at isSame
  cases isSame
  exact (range t2After isAfter).earlier moved (grows.acked t2 t2After isStore isAfter)

theorem evict_round_grows {io : EvictIo} (round : EvictRound e io after) : Grows e after := by
  have later := evict_round_later round
  cases round with
  | skipped | dropped => exact later.grows_same rfl
  | refused t1Eviction victim entry found inT1 t2 t2After status loc isStore ran bad =>
      exact later.grows_new isStore rfl (T2.write_grows ran)
  | demoted t1Eviction t2Eviction victim entry found inT1 t2 t2After loc isStore ran =>
      exact later.grows_new isStore rfl (T2.write_grows ran)

theorem evict_run_grows {io : Nat → EvictIo} (run : EvictRun io e after) : Grows e after :=
  run.keeps (Grows e) (fun _ _ _ before round => before.trans (evict_round_grows round))
    (Grows.refl e)

/-! ### What a change of the index does to the counts -/

theorem Counted.same_store (counted : Counted e lost) {lostAfter : Nat → Nat}
    (store : after.t2Store = e.t2Store)
    (same : ∀ id, t2Entries after.index id + lostAfter id = t2Entries e.index id + lost id) :
    Counted after lostAfter := by
  intro t2 isStore
  rw [store] at isStore
  have before := counted t2 isStore
  rw [← funext same] at before
  exact before

/-- A write was accepted, and its location went into the index. -/
theorem Counted.written (counted : Counted e lost) {lostAfter : Nat → Nat} {t2 t2After : T2}
    {request : WriteRequest} {io : T2WriteIo} {status : Status} {loc : BlobLocation}
    {entry : IndexEntry} (isStore : e.t2Store = some t2)
    (ran : t2.write request io = some ((status, loc), t2After))
    (isAfter : after.t2Store = some t2After) (range : after.InRange) (inT2 : entry.tier = kT2Nvme)
    (placed : entry.segmentId = UInt32.ofNat loc.segmentId)
    (one : ∀ id, t2Entries after.index id + lostAfter id =
      t2Entries e.index id + lost id + t2Weight id entry) :
    Counted after lostAfter := by
  obtain ⟨small, bumped⟩ := T2.write_counted (counted t2 isStore) ran (range t2After isAfter)
  have named : entry.segmentId.toNat = loc.segmentId := by
    rw [placed, UInt32.toNat_ofNat', Nat.mod_eq_of_lt small]
  intro store isHere
  rw [isAfter] at isHere
  cases isHere
  have same : (fun id => t2Entries after.index id + lostAfter id) =
      bump (fun id => t2Entries e.index id + lost id) loc.segmentId := by
    funext id
    rw [one, bump, t2Weight, named]
    simp [inT2, eq_comm]
  rw [same]
  exact bumped

theorem evict_round_counted {io : EvictIo} (counted : Counted e lost) (range : after.InRange)
    (round : EvictRound e io after) : Counted after lost := by
  cases round with
  | skipped => exact counted.same_store rfl fun _ => rfl
  | dropped t1Eviction victim entry found inT1 cold =>
      refine counted.same_store ?_ ?_
      · rfl
      · intro id
        have erased := t2_entries_erase e.index victim id
        rw [held_by_found found, t2_weight_elsewhere (by rw [inT1]; decide)] at erased
        change t2Entries (e.index.erase victim) id + lost id = _
        omega
  | refused t1Eviction victim entry found inT1 t2 t2After status loc isStore ran bad =>
      exact absurd (not_refused ran (range t2After rfl).accepted) bad
  | demoted t1Eviction t2Eviction victim entry found inT1 t2 t2After loc isStore ran =>
      have inT2 : (demotedEntry entry loc).tier = kT2Nvme := rfl
      apply counted.written isStore ran rfl range inT2 rfl
      intro id
      have upserted := t2_entries_upsert e.index victim (demotedEntry entry loc) id
      rw [held_by_found found, t2_weight_elsewhere (by rw [inT1]; decide)] at upserted
      change t2Entries (e.index.upsert victim (demotedEntry entry loc)) id + lost id = _
      omega

theorem evict_run_counted {io : Nat → EvictIo} (run : EvictRun io e after) (range : after.InRange)
    (counted : Counted e lost) : Counted after lost := by
  induction run with
  | done e => exact counted
  | round i first rest ih =>
      have between := in_range_earlier (evict_run_grows rest) range
      exact ih range (evict_round_counted counted between first)

/-! ### Put, get and delete -/

theorem put_grows {key : StorageKey} {blob : List UInt8} {opts : PutOpts} {io : PutIo}
    {status : Status} (cases : PutCases e key blob opts io status after) : Grows e after := by
  have later := put_later cases
  cases cases with
  | rejected => exact later.grows_same rfl
  | refused status admission t2 t2After loc isStore ran bad =>
      exact later.grows_new isStore rfl (T2.write_grows ran)
  | storedT1 admission t1Eviction a allocator handle ptr accepted isAllocator allocated run =>
      refine Grows.trans ?_ (evict_run_grows run)
      refine Later.grows_same ?_ ?_
      · exact later_same_store rfl (by simp [isAllocator]) rfl
      · rfl
  | storedT2 admission t2Eviction t2 t2After loc accepted full isStore ran run =>
      refine Grows.trans ?_ (evict_run_grows run)
      apply Later.grows_new _ isStore rfl (T2.write_grows ran)
      exact later_new_store rfl rfl isStore rfl (T2.write_written ran).1.later

/-- A put loses what the index had under its key. -/
theorem put_counted {key : StorageKey} {blob : List UInt8} {opts : PutOpts} {io : PutIo}
    {status : Status} (counted : Counted e lost) (range : after.InRange)
    (cases : PutCases e key blob opts io status after) :
    (status = .kOk ∧ Accepted e blob opts ∧
        Counted after fun id => lost id + heldBy e.index key id) ∨
      (status ≠ .kOk ∧ Counted after lost) := by
  cases cases with
  | rejected status admission bad => exact .inr ⟨bad, counted.same_store rfl fun _ => rfl⟩
  | refused status admission t2 t2After loc isStore ran bad =>
      exact absurd (not_refused ran (range t2After rfl).accepted) bad
  | storedT1 admission t1Eviction a allocator handle ptr accepted isAllocator allocated run =>
      refine .inl ⟨rfl, accepted, evict_run_counted run range ?_⟩
      refine counted.same_store ?_ ?_
      · rfl
      · intro id
        have upserted := t2_entries_upsert e.index key (t1Entry blob opts io ptr) id
        have inT1 : (t1Entry blob opts io ptr).tier ≠ kT2Nvme := by
          change kT1Dram ≠ kT2Nvme
          decide
        rw [t2_weight_elsewhere inT1] at upserted
        dsimp only
        omega
  | storedT2 admission t2Eviction t2 t2After loc accepted full isStore ran run =>
      refine .inl ⟨rfl, accepted, evict_run_counted run range ?_⟩
      have between := in_range_earlier (evict_run_grows run) range
      have inT2 : (t2Entry blob opts io loc).tier = kT2Nvme := rfl
      apply counted.written isStore ran rfl between inT2 rfl
      intro id
      have upserted := t2_entries_upsert e.index key (t2Entry blob opts io loc) id
      dsimp only
      omega

/-- With a blob store that accepts every write, a put that passes admission and
the check of its length returns `kOk`. -/
theorem accepted_put_ok {key : StorageKey} {blob : List UInt8} {opts : PutOpts} {io : PutIo}
    {status : Status} {t2 : T2} (accepted : Accepted e blob opts) (isStore : e.t2Store = some t2)
    (range : after.InRange) (ran : e.put key blob opts io = some (status, after)) : status = .kOk := by
  obtain ⟨admitted, short⟩ := accepted
  simp only [put] at ran
  rw [if_neg (by rw [admitted]; decide), if_neg (by omega)] at ran
  split at ran
  · exact (publish_steps ran).1
  · simp only [storeT2, isStore] at ran
    split at ran
    · contradiction
    · rename_i written
      split at ran
      · exact (publish_steps ran).1
      · rename_i bad
        cases ran
        exact not_refused written (range _ rfl).accepted

theorem get_grows {key : StorageKey} {bufLen : Nat} {io : GetIo} {reply : ReadReply}
    (cases : GetCases e key bufLen io reply after) : Grows e after := by
  have later := get_later cases
  cases cases with
  | missed => exact Grows.refl e
  | fromT1 | nowhere => exact later.grows_same rfl
  | fromT2 reply entry t2Eviction t2 t2After found inT2 isStore ran =>
      apply later.grows_new isStore rfl
      rw [T2.read_acked ran]

theorem get_counted {key : StorageKey} {bufLen : Nat} {io : GetIo} {reply : ReadReply}
    (counted : Counted e lost) (cases : GetCases e key bufLen io reply after) :
    Counted after lost := by
  cases cases with
  | missed => exact counted
  | fromT1 | nowhere =>
      refine counted.same_store ?_ ?_
      · rfl
      · intro id
        simp only [touchEntry, t2_entries_touch]
  | fromT2 reply entry t2Eviction t2 t2After found inT2 isStore ran =>
      have read := T2.read_counted (counted t2 isStore) ran
      rintro _ ⟨⟩
      simp only [touchEntry, t2_entries_touch]
      exact read

theorem del_grows {key : StorageKey} {status : Status} (cases : DelCases e key status after) :
    Grows e after := by
  have later := del_later cases
  cases cases with
  | missed => exact Grows.refl e
  | fromT1 | fromNowhere => exact later.grows_same rfl
  | fromT2 entry t1Eviction t2Eviction t2 found inT2 isStore =>
      exact later.grows_new isStore rfl (List.Sublist.refl _)

/-- A delete marks dead what it drops. -/
theorem del_counted (counted : Counted e lost) (key : StorageKey) :
    Counted (e.del key).2 lost := by
  unfold del
  cases found : e.index.find key with
  | none => exact counted
  | some entry =>
      have erased := fun id => t2_entries_erase e.index key id
      simp only [held_by_found found] at erased
      by_cases inT2 : entry.tier = kT2Nvme
      · have notInT1 : entry.tier ≠ kT1Dram := by
          rw [inT2]
          decide
        simp only [if_neg notInT1, if_pos inT2]
        intro t2After isStore
        obtain ⟨t2, isBefore, rfl⟩ := Option.map_eq_some_iff.1 isStore
        have one : (fun id => t2Entries e.index id + lost id) =
            bump (fun id => t2Entries (e.index.erase key) id + lost id)
              (entryLocation entry).segmentId := by
          funext id
          rw [← erased id, bump, t2Weight]
          by_cases here : id = (entryLocation entry).segmentId
          · rw [if_pos ⟨inT2, here.symm⟩, if_pos here]
            omega
          · rw [if_neg fun both => here both.2.symm, if_neg here]
            omega
        have before := counted t2 isBefore
        rw [one] at before
        exact before.mark_dead
      · have same : ∀ id, t2Entries (e.index.erase key) id + lost id = t2Entries e.index id + lost id := by
          intro id
          have rest := erased id
          rw [t2_weight_elsewhere inT2] at rest
          omega
        simp only [if_neg inT2]
        split
        · exact counted.same_store rfl same
        · exact counted.same_store rfl same

end Engine

/-! ## Runs -/

def freshMachine : Machine Session SessionLabel where
  start session := ∃ config io, io.checkpoint = none ∧ io.store.listing = some [] ∧
    Engine.openEngine config io = some session.engine ∧ session.log = []
  exec := Session.exec

/-- No put that passes admission has a key with an entry in T2. -/
def noT2OverwriteGuard (session : Session) : SessionLabel → Prop
  | .put key blob opts _ => ∀ t2, session.engine.t2Store = some t2 →
      session.engine.Accepted blob opts →
      ∀ entry, session.engine.index.find key = some entry → entry.tier ≠ kT2Nvme
  | _ => True

section Runs

variable {session before after : Session} {label : SessionLabel} {lost : Nat → Nat}

theorem session_grows (cases : SessionCases before label after) :
    Engine.Grows before.engine after.engine := by
  have later := session_later cases
  cases cases with
  | put key blob opts io status engine cases => exact Engine.put_grows cases
  | get key bufLen io reply engine cases => exact Engine.get_grows cases
  | del key status engine cases => exact Engine.del_grows cases
  | flush step t2 t2After isStore ran =>
      apply later.grows_new isStore rfl
      rw [(T2.flush_run_frame ran).1]

/-- A step loses nothing, or it is a put and loses what the index had under
its key. -/
theorem step_counted (moved : freshMachine.exec before label = some after)
    (range : after.engine.InRange) (counted : before.engine.Counted lost) :
    (noT2OverwriteGuard before label ∧ after.engine.Counted lost) ∨
      ∃ key blob opts io, label = .put key blob opts io ∧
        before.engine.Accepted blob opts ∧
        after.engine.Counted fun id => lost id + heldBy before.engine.index key id := by
  have step := @engine_step anyCheckpoint _ _ _ moved
  generalize after.engine = engine at step range ⊢
  cases step with
  | put key blob opts io status ran =>
      rcases Engine.put_counted counted range (Engine.put_cases ran) with ⟨_, accepted, more⟩ | bad
      · exact .inr ⟨key, blob, opts, io, rfl, accepted, more⟩
      · refine .inl ⟨?_, bad.2⟩
        intro t2 isStore accepted
        exact absurd (Engine.accepted_put_ok accepted isStore range ran) bad.1
  | get key bufLen io reply ran =>
      exact .inl ⟨trivial, Engine.get_counted counted (Engine.get_cases ran)⟩
  | del key => exact .inl ⟨trivial, Engine.del_counted counted key⟩
  | flush step t2 t2After isStore ran =>
      refine .inl ⟨trivial, ?_⟩
      intro store isHere
      cases isHere
      exact T2.flush_run_counted (counted t2 isStore) ran

theorem start_counted (initial : freshMachine.start session) :
    session.engine.Counted fun _ => 0 := by
  obtain ⟨config, io, noCheckpoint, empty, opening, _⟩ := initial
  have opened := Engine.open_engine_opened opening
  intro t2 isStore
  obtain ⟨store, rfl, ok⟩ := opened.t2 t2 isStore
  have counts := Counts.opened (show (openStore config.nvmeStore io.files io.store).1 = .kOk by rw [ok])
    empty
  rw [ok] at counts
  have index := opened.index
  rw [noCheckpoint] at index
  rw [index]
  exact counts

/-- In every run the counts are too high by what was lost, and nothing is lost
as long as no put overwrites a T2 entry. -/
theorem reach_counted (reached : Reach freshMachine session) (range : session.engine.InRange) :
    ∃ lost, session.engine.Counted lost := by
  apply reached.invariant_under (fun session => session.engine.InRange)
    (fun session => ∃ lost, session.engine.Counted lost) _ _ _ range
  · intro state label after moved range
    exact Engine.in_range_earlier (session_grows (@session_cases anyCheckpoint _ _ _ moved)) range
  · intro start initial
    exact ⟨_, start_counted initial⟩
  · rintro state label after range ⟨lost, counted⟩ _ moved
    rcases step_counted moved range counted with same | ⟨_, _, _, _, _, _, more⟩
    · exact ⟨_, same.2⟩
    · exact ⟨_, more⟩

theorem guarded_counted (reached : ReachWithin freshMachine noT2OverwriteGuard session)
    (range : session.engine.InRange) : session.engine.Counted fun _ => 0 := by
  apply reached.invariant_under (fun session => session.engine.InRange)
    (fun session => session.engine.Counted fun _ => 0) _ _ _ range
  · intro state label after moved range
    exact Engine.in_range_earlier (session_grows (@session_cases anyCheckpoint _ _ _ moved)) range
  · intro start initial
    exact start_counted initial
  · intro state label after range counted allowed moved
    rcases step_counted moved range counted with same | ⟨key, blob, opts, io, rfl, accepted, more⟩
    · exact same.2
    · have grows := session_grows (@session_cases anyCheckpoint _ _ _ moved)
      intro t2 isStore
      obtain ⟨t2Before, isBefore, _⟩ := grows.later.t2 t2 isStore
      have none : ∀ id, heldBy state.engine.index key id = 0 := fun id =>
        held_by_none (allowed t2Before isBefore accepted)
      have counts := more t2 isStore
      simp only [none, Nat.add_zero] at counts
      exact counts

/-- The counts are right exactly if nothing was lost. -/
theorem right_iff_nothing_lost (counted : session.engine.Counted lost) :
    session.engine.LiveCountsRight ↔ ∀ t2, session.engine.t2Store = some t2 → ∀ id, lost id = 0 := by
  constructor
  · intro right t2 isStore id
    by_contra some
    have counts := counted t2 isStore
    have bounded := counts.bounded id
    obtain ⟨seg, member, rfl⟩ := counts.known id (by omega)
    have stored := counts.liveCounts seg member
    have claimed := (right t2 isStore seg member).1
    omega
  · intro none t2 isStore seg member
    have counts := counted t2 isStore
    have stored := counts.liveCounts seg member
    have bounded := counts.bounded seg.id
    have entries := counts.entryCounts seg member
    have nothing := none t2 isStore seg.id
    constructor <;> omega

/-- What was lost before a step is lost after it, and an overwritten T2 entry is
lost by it. -/
theorem wrong_after (reached : Reach freshMachine before)
    (moved : freshMachine.exec before label = some after) (range : after.engine.InRange)
    (wrong : ¬noT2OverwriteGuard before label ∨ ¬before.engine.LiveCountsRight) :
    ¬after.engine.LiveCountsRight := by
  have grows := session_grows (@session_cases anyCheckpoint _ _ _ moved)
  obtain ⟨lost, counted⟩ := reach_counted reached (Engine.in_range_earlier grows range)
  have enabledAfter : ∀ t2, before.engine.t2Store = some t2 →
      ∃ t2After, after.engine.t2Store = some t2After := by
    intro t2 isStore
    rw [← Option.isSome_iff_exists, grows.later.t2Enabled, isStore]
    rfl
  rw [right_iff_nothing_lost counted] at wrong
  intro right
  rcases step_counted moved range counted with ⟨allowed, same⟩ | ⟨key, blob, opts, io, rfl, _, more⟩
  · have none := (right_iff_nothing_lost same).1 right
    rcases wrong with overwrites | lostBefore
    · exact overwrites allowed
    · apply lostBefore
      intro t2 isStore
      obtain ⟨t2After, isAfter⟩ := enabledAfter t2 isStore
      exact none t2After isAfter
  · have none := (right_iff_nothing_lost more).1 right
    rcases wrong with overwrites | lostBefore
    · apply overwrites
      intro t2 isStore _ entry found inT2
      obtain ⟨t2After, isAfter⟩ := enabledAfter t2 isStore
      have nothing := none t2After isAfter entry.segmentId.toNat
      rw [held_by_found found, t2Weight, if_pos ⟨inT2, rfl⟩] at nothing
      omega
    · apply lostBefore
      intro t2 isStore id
      obtain ⟨t2After, isAfter⟩ := enabledAfter t2 isStore
      have nothing := none t2After isAfter id
      omega

end Runs

/-- The live counts agree with the index in every run in which no put overwrites
a T2 entry. The first put that does makes them too high, and too high they
stay. -/
theorem live_counts_right (session : Session) :
    (ReachWithin freshMachine noT2OverwriteGuard session → session.engine.InRange →
      session.engine.LiveCountsRight) ∧
    (Reach freshMachine session → ∀ label after, freshMachine.exec session label = some after →
      after.engine.InRange →
      (¬noT2OverwriteGuard session label ∨ ¬session.engine.LiveCountsRight) →
      ¬after.engine.LiveCountsRight) := by
  constructor
  · intro reached range
    exact (right_iff_nothing_lost (guarded_counted reached range)).2 fun _ _ _ => rfl
  · intro reached label after moved range wrong
    exact wrong_after reached moved range wrong

/-- The bounds of a store with a short history, from its numbers. -/
theorem in_range_of_numbers {e : Engine} (segments : Nat) (handed : List Nat)
    (numbers : e.t2Store.map (fun t2 => (t2.refused, t2.store.nextSegmentId, t2.handed,
      blockCapacity t2.store.config, t2.acked.length)) =
        some (0, segments, handed, 2 ^ 20, handed.length))
    (few : segments ≤ 2 ^ 32) (short : handed.length < 2 ^ 32)
    (fits : ∀ length ∈ handed, entryDiskSize length ≤ 2 ^ 20) : e.InRange := by
  intro t2 isStore
  rw [isStore] at numbers
  simp only [Option.map_some, Option.some.injEq, Prod.mk.injEq] at numbers
  obtain ⟨accepted, created, isHanded, capacity, acked⟩ := numbers
  refine { accepted, segments := by omega, fits := ?_, entries := ?_ }
  · rw [isHanded, capacity]
    exact fits
  · intro segmentId
    have fewer : t2.entriesIn segmentId ≤ t2.acked.length := List.countP_le_length
    omega

theorem tiered_fresh : freshMachine.start tieredStart :=
  ⟨tieredConfig, slabOpenIo, rfl, rfl, rfl, rfl⟩

theorem live_counts_right_demoted :
    (next freshMachine tieredStart tieredPut).engine.LiveCountsRight := by
  apply (live_counts_right _).1
  · apply ReachWithin.to_next tieredPut (.start tiered_fresh) _ (by decide)
    intro _ _ _ entry found
    contradiction
  · apply in_range_of_numbers 1 [1]
    · decide +kernel
    · decide
    · decide
    · decide

/-! ## A put over a T2 entry -/

theorem two_tier_fresh : freshMachine.start twoTierStart :=
  ⟨twoTierConfig, slabOpenIo, rfl, rfl, rfl, rfl⟩

/-- The entry of the first put is not in the index any more, and its segment
still counts it as live. -/
theorem put_over_t2_counted_live : Reach freshMachine movedToT1 ∧ movedToT1.engine.InRange ∧
    ¬movedToT1.engine.LiveCountsRight := by
  refine ⟨?_, ?_, ?_⟩
  · have start : Reach freshMachine twoTierStart := .start two_tier_fresh
    exact start.to_last [largePut, slabPut] (by decide +kernel)
  · apply in_range_of_numbers 1 [65]
    · decide +kernel
    · decide
    · decide
    · decide
  · intro right
    have counts : movedToT1.engine.t2Store.map (fun t2 => t2.store.segments.map fun seg =>
        (seg.liveCount, t2Entries movedToT1.engine.index seg.id)) = some [(1, 0)] := by
      decide +kernel
    obtain ⟨t2, isStore, segments⟩ := Option.map_eq_some_iff.1 counts
    obtain ⟨seg, rest, isList, isHead, _⟩ := List.map_eq_cons_iff.1 segments
    have claimed := (right t2 isStore seg (by rw [isList]; exact List.mem_cons_self)).1
    simp only [Prod.mk.injEq] at isHead
    omega

end AttentionDB
