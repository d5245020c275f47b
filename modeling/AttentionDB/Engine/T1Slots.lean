import AttentionDB.Engine.Session

/-!
# T1 entries point to slots of their own

Every index entry of tier T1 holds the address of an allocated slot that is
large enough, and no two of them hold the same. The invariant is about the
index and the allocator only, and there are three ways to change the two: the
T1 part of the index shrinks, a fresh slot is published, or the slot of an
entry that goes away is released.
-/

namespace AttentionDB

open GuardedRuns SlabAllocator

set_option autoImplicit false

/-- The address of every T1 entry is the start of a slot that is allocated and
long enough. -/
def SlotsValid (index : ConcurrentHashMap) (t1Allocator : Option SlabAllocator) : Prop :=
  ∀ key entry, index.find key = some entry → entry.tier = kT1Dram →
    ∃ a, t1Allocator = some a ∧ ¬IsFree a entry.address.toNat ∧
      ∃ slotSize, IsSlot a entry.address.toNat slotSize ∧ entry.length.toNat ≤ slotSize

def SlotsUnshared (index : ConcurrentHashMap) : Prop :=
  ∀ key other entry otherEntry, index.find key = some entry → index.find other = some otherEntry →
    entry.tier = kT1Dram → otherEntry.tier = kT1Dram →
    entry.address = otherEntry.address → key = other

structure T1Inv (index : ConcurrentHashMap) (t1Allocator : Option SlabAllocator) : Prop where
  layout : ∀ a, t1Allocator = some a → LayoutOk a
  frees : ∀ a, t1Allocator = some a → FreeOk a
  valid : SlotsValid index t1Allocator
  unshared : SlotsUnshared index

/-- The T1 entries of the new index were there before, at the same slots. -/
def T1Subset (after index : ConcurrentHashMap) : Prop :=
  ∀ key entry, after.find key = some entry → entry.tier = kT1Dram →
    ∃ old, index.find key = some old ∧ old.tier = kT1Dram ∧ old.address = entry.address ∧
      old.length = entry.length

section Index

variable {index after : ConcurrentHashMap} {t1Allocator : Option SlabAllocator}

theorem t1_subset_erase (index : ConcurrentHashMap) (key : StorageKey) :
    T1Subset (index.erase key) index := by
  intro other entry found inT1
  rw [ConcurrentHashMap.find_erase] at found
  split at found
  · contradiction
  · exact ⟨entry, found, inT1, rfl, rfl⟩

theorem t1_subset_upsert {key : StorageKey} {entry : IndexEntry} (index : ConcurrentHashMap)
    (notInT1 : entry.tier ≠ kT1Dram) : T1Subset (index.upsert key entry) index := by
  intro other found look inT1
  rw [ConcurrentHashMap.find_upsert] at look
  split at look
  · cases look
    exact absurd inT1 notInT1
  · exact ⟨found, look, inT1, rfl, rfl⟩

theorem t1_subset_touch (index : ConcurrentHashMap) (key : StorageKey) (now : Nat) :
    T1Subset (index.updateFn key (·.touch now)) index := by
  intro other entry found inT1
  rw [ConcurrentHashMap.find_update_fn] at found
  split at found
  · rename_i same
    rw [Option.map_eq_some_iff] at found
    rcases found with ⟨old, isOld, rfl⟩
    exact ⟨old, same ▸ isOld, inT1, rfl, rfl⟩
  · exact ⟨entry, found, inT1, rfl, rfl⟩

/-! ## The three changes -/

theorem T1Inv.shrink (inv : T1Inv index t1Allocator) (subset : T1Subset after index) :
    T1Inv after t1Allocator := by
  refine { layout := inv.layout, frees := inv.frees, valid := ?_, unshared := ?_ }
  · intro key entry found inT1
    rcases subset key entry found inT1 with ⟨old, was, wasT1, address, length⟩
    rw [← address, ← length]
    exact inv.valid key old was wasT1
  · intro key other entry otherEntry found otherFound inT1 otherT1 same
    rcases subset key entry found inT1 with ⟨old, was, wasT1, address, _⟩
    rcases subset other otherEntry otherFound otherT1 with ⟨otherOld, otherWas, otherT1, otherAddress, _⟩
    exact inv.unshared key other old otherOld was otherWas wasT1 otherT1
      (address.trans (same.trans otherAddress.symm))

theorem T1Inv.publish {a allocator : SlabAllocator} (inv : T1Inv index (some a))
    {size ptr : Nat} (allocated : Allocated a size ptr allocator) (key : StorageKey)
    {entry : IndexEntry} (address : entry.address.toNat = ptr) (length : entry.length.toNat ≤ size) :
    T1Inv (index.upsert key entry) (some allocator) := by
  -- the slot was free, so no entry that stays points to it
  have elsewhere : ∀ other old, index.find other = some old → old.tier = kT1Dram →
      old.address.toNat ≠ ptr := by
    intro other old found inT1 same
    rcases inv.valid other old found inT1 with ⟨_, ⟨⟩, notFree, _⟩
    rw [same] at notFree
    exact notFree allocated.wasFree
  refine
    { layout := by rintro _ ⟨⟩; exact allocated.layout
      frees := by rintro _ ⟨⟩; exact allocated.frees
      valid := ?_
      unshared := ?_ }
  · intro other found look inT1
    refine ⟨allocator, rfl, ?_⟩
    rw [ConcurrentHashMap.find_upsert] at look
    split at look
    · cases look
      rcases allocated.slot with ⟨slotSize, isSlot, fits, _⟩
      rw [address]
      refine ⟨?_, slotSize, (allocated.sameSlots _ _).2 isSlot, Nat.le_trans length fits⟩
      intro free
      exact ((allocated.freeIff ptr).1 free).2 rfl
    · rcases inv.valid other found look inT1 with ⟨_, ⟨⟩, notFree, slotSize, isSlot, fits⟩
      refine ⟨?_, slotSize, (allocated.sameSlots _ _).2 isSlot, fits⟩
      intro free
      exact notFree ((allocated.freeIff _).1 free).1
  · intro first second entryFirst entrySecond foundFirst foundSecond firstT1 secondT1 same
    rw [ConcurrentHashMap.find_upsert] at foundFirst foundSecond
    split at foundFirst
    · rename_i isFirst
      split at foundSecond
      · rename_i isSecond
        exact isFirst.trans isSecond.symm
      · cases foundFirst
        rw [same] at address
        exact absurd address (elsewhere second entrySecond foundSecond secondT1)
    · split at foundSecond
      · cases foundSecond
        rw [← same] at address
        exact absurd address (elsewhere first entryFirst foundFirst firstT1)
      · exact inv.unshared first second entryFirst entrySecond foundFirst foundSecond firstT1 secondT1 same

/-- Releasing the slot of an entry that leaves the T1 part of the index. -/
theorem T1Inv.release (inv : T1Inv index t1Allocator) {key : StorageKey} {entry : IndexEntry}
    (found : index.find key = some entry) (inT1 : entry.tier = kT1Dram)
    (subset : T1Subset after index)
    (gone : ∀ left, after.find key = some left → left.tier ≠ kT1Dram) :
    T1Inv after (t1Allocator.map (·.freeByPtr entry.address.toNat)) := by
  rcases inv.valid key entry found inT1 with ⟨a, rfl, notFree, slotSize, isSlot, _⟩
  have released := free_by_ptr_spec (inv.layout a rfl) (inv.frees a rfl) isSlot notFree
  refine
    { layout := by rintro _ ⟨⟩; exact released.layout
      frees := by rintro _ ⟨⟩; exact released.frees
      valid := ?_
      unshared := (inv.shrink subset).unshared }
  intro other left look leftT1
  rcases subset other left look leftT1 with ⟨old, was, wasT1, address, length⟩
  rcases inv.valid other old was wasT1 with ⟨_, ⟨⟩, stillTaken, otherSize, otherSlot, fits⟩
  refine ⟨_, rfl, ?_, otherSize, ?_, by rw [← length]; exact fits⟩
  · intro free
    rw [← address, released.freeIff] at free
    rcases free with before | same
    · exact stillTaken before
    · have sameKey := inv.unshared other key old entry was found wasT1 inT1 (UInt64.toNat_inj.1 same)
      subst sameKey
      exact gone left look leftT1
  · rw [← address]
    exact (released.sameSlots _ _).2 otherSlot

/-- An index without T1 entries needs nothing of the allocator but its layout. -/
theorem T1Inv.opened (layout : ∀ a, t1Allocator = some a → LayoutOk a)
    (frees : ∀ a, t1Allocator = some a → FreeOk a)
    (none : ∀ key entry, index.find key = some entry → entry.tier ≠ kT1Dram) :
    T1Inv index t1Allocator where
  layout := layout
  frees := frees
  valid := by
    intro key entry found inT1
    exact absurd inT1 (none key entry found)
  unshared := by
    intro key other entry otherEntry found _ inT1
    exact absurd inT1 (none key entry found)

end Index

/-! ## The calls keep it -/

namespace Engine

variable {e after : Engine}

def T1Sound (e : Engine) : Prop := T1Inv e.index e.t1Allocator

theorem demoted_not_t1 (entry : IndexEntry) (loc : BlobLocation) :
    (demotedEntry entry loc).tier ≠ kT1Dram := by
  intro same
  cases same

theorem erased_gone {index : ConcurrentHashMap} {key : StorageKey} :
    ∀ left, (index.erase key).find key = some left → left.tier ≠ kT1Dram := by
  intro left found
  rw [ConcurrentHashMap.find_erase_self] at found
  contradiction

theorem upserted_gone {index : ConcurrentHashMap} {key : StorageKey} {entry : IndexEntry}
    (notInT1 : entry.tier ≠ kT1Dram) :
    ∀ left, (index.upsert key entry).find key = some left → left.tier ≠ kT1Dram := by
  intro left found
  rw [ConcurrentHashMap.find_upsert_self] at found
  cases found
  exact notInT1

theorem evict_round_t1 {io : EvictIo} (inv : T1Sound e) (round : EvictRound e io after) :
    T1Sound after := by
  cases round with
  | skipped => exact inv
  | dropped t1Eviction victim entry found inT1 cold =>
      exact inv.release found inT1 (t1_subset_erase _ _) erased_gone
  | refused t1Eviction victim entry found inT1 =>
      exact inv.release found inT1 (t1_subset_erase _ _) erased_gone
  | demoted t1Eviction t2Eviction victim entry found inT1 t2 t2After loc isStore ran =>
      exact inv.release found inT1 (t1_subset_upsert _ (demoted_not_t1 entry loc))
        (upserted_gone (demoted_not_t1 entry loc))

theorem evict_run_t1 {io : Nat → EvictIo} (inv : T1Sound e) (run : EvictRun io e after) :
    T1Sound after :=
  run.keeps T1Sound (fun _ _ _ before round => evict_round_t1 before round) inv

/-- The address of an allocated slot survives the trip through the entry. -/
theorem slot_address_to_nat {a : SlabAllocator} (layout : LayoutOk a) {ptr slotSize : Nat}
    (slot : IsSlot a ptr slotSize) : (UInt64.ofNat ptr).toNat = ptr := by
  have bounds := is_slot_bounds layout slot
  simp only [UInt64.toNat_ofNat']
  exact Nat.mod_eq_of_lt (by omega)

theorem blob_length_to_nat {blob : List UInt8} (short : blob.length < 2 ^ 32) :
    (UInt32.ofNat blob.length).toNat = blob.length := by
  simp only [UInt32.toNat_ofNat']
  exact Nat.mod_eq_of_lt short

theorem stored_t1 {key : StorageKey} {blob : List UInt8} {opts : PutOpts} {io : PutIo}
    (inv : T1Sound e) (stored : Stored e key blob opts io after) : T1Sound after := by
  cases stored with
  | inT1 admission a allocator handle ptr accepted isAllocator allocated =>
      have start : T1Inv e.index (some a) := isAllocator ▸ inv
      have layout := start.layout a rfl
      have spec := allocate_spec layout (start.frees a rfl) allocated
      obtain ⟨slotSize, isSlot, _⟩ := spec.slot
      exact start.publish spec key (slot_address_to_nat layout isSlot)
        (Nat.le_of_eq (blob_length_to_nat accepted.2))
  | inT2 admission t2 t2After loc accepted full isStore ran =>
      have notInT1 : (t2Entry blob opts io loc).tier ≠ kT1Dram := by
        intro same
        cases same
      exact inv.shrink (t1_subset_upsert _ notInT1)

theorem put_t1 {key : StorageKey} {blob : List UInt8} {opts : PutOpts} {io : PutIo}
    {status : Status} (inv : T1Sound e) (cases : PutCases e key blob opts io status after) :
    T1Sound after := by
  cases cases with
  | rejected | refused => exact inv
  | storedT1 admission t1Eviction a allocator handle ptr accepted isAllocator allocated run =>
      apply evict_run_t1 _ run
      have stored : Stored e key blob opts io _ :=
        .inT1 admission a allocator handle ptr accepted isAllocator allocated
      have sound := stored_t1 inv stored
      exact sound
  | storedT2 admission t2Eviction t2 t2After loc accepted full isStore ran run =>
      apply evict_run_t1 _ run
      have stored : Stored e key blob opts io _ :=
        .inT2 admission t2 t2After loc accepted full isStore ran
      have sound := stored_t1 inv stored
      exact sound

theorem get_t1 {key : StorageKey} {bufLen : Nat} {io : GetIo} {reply : BlobStore.ReadReply}
    (inv : T1Sound e) (cases : GetCases e key bufLen io reply after) : T1Sound after := by
  cases cases with
  | missed => exact inv
  | fromT1 | fromT2 | nowhere => exact inv.shrink (t1_subset_touch _ _ _)

theorem del_t1 {key : StorageKey} {status : Status} (inv : T1Sound e)
    (cases : DelCases e key status after) : T1Sound after := by
  cases cases with
  | missed => exact inv
  | fromT1 entry t1Eviction t2Eviction found inT1 =>
      exact inv.release found inT1 (t1_subset_erase _ _) erased_gone
  | fromT2 | fromNowhere => exact inv.shrink (t1_subset_erase _ _)

end Engine

section Runs

variable {checkpoints : Option (List (StorageKey × IndexEntry)) → Prop} {session after : Session}
  {label : SessionLabel}

theorem session_t1 (inv : session.engine.T1Sound) (cases : SessionCases session label after) :
    after.engine.T1Sound := by
  cases cases with
  | put key blob opts io status engine cases => exact Engine.put_t1 inv cases
  | get key bufLen io reply engine cases => exact Engine.get_t1 inv cases
  | del key status engine cases => exact Engine.del_t1 inv cases
  | flush => exact inv

theorem session_start_t1 (initial : (sessionMachine checkpoints).start session) :
    session.engine.T1Sound := by
  rcases initial with ⟨config, io, _, opening, backed, _⟩
  have opened := Engine.open_engine_opened opening
  apply T1Inv.opened
  · intro a isAllocator
    exact init_classes_layout (opened.t1 a isAllocator) (backed a isAllocator)
  · intro a isAllocator
    exact init_classes_free (opened.t1 a isAllocator)
  · intro key entry found
    rw [opened.index] at found
    exact Engine.loaded_index_not_t1 found

theorem reach_t1 {guard : Session → SessionLabel → Prop}
    (reached : ReachWithin (sessionMachine checkpoints) guard session) : session.engine.T1Sound := by
  apply reached.invariant fun session => session.engine.T1Sound
  · intro start initial
    exact session_start_t1 initial
  · intro before label after inv _ moved
    exact session_t1 inv (session_cases moved)

end Runs

/-- In every sequential run, from any checkpoint, every T1 entry has a slot of
its own. -/
theorem t1_pointers_valid {session : Session}
    (reached : Reach (sessionMachine anyCheckpoint) session) :
    SlotsValid session.engine.index session.engine.t1Allocator ∧
      SlotsUnshared session.engine.index ∧
      ∀ config io engine, Engine.openEngine config io = some engine →
        ∀ key entry, engine.index.find key = some entry → entry.tier ≠ kT1Dram := by
  refine ⟨(reach_t1 reached).valid, (reach_t1 reached).unshared, ?_⟩
  intro config io engine opening key entry found
  rw [(Engine.open_engine_opened opening).index] at found
  exact Engine.loaded_index_not_t1 found

theorem t1_pointers_valid_after_put :
    (∃ entry, (next (sessionMachine anyCheckpoint) slabStart slabPut).engine.index.find probeKey =
      some entry ∧ entry.tier = kT1Dram ∧ entry.address = 4288) ∧
    SlotsValid (next (sessionMachine anyCheckpoint) slabStart slabPut).engine.index
      (next (sessionMachine anyCheckpoint) slabStart slabPut).engine.t1Allocator := by
  have reached : Reach (sessionMachine anyCheckpoint)
      (next (sessionMachine anyCheckpoint) slabStart slabPut) :=
    .to_next slabPut (.start slab_started) trivial (by decide)
  exact ⟨⟨_, rfl, rfl, rfl⟩, (t1_pointers_valid reached).1⟩

end AttentionDB
