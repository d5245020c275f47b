import AttentionDB.Engine.T1Slots

/-!
# Who owns an allocated slot

The bytes in use are the bytes of the slots that T1 entries own, as long as no
put stores a blob under a key that has a T1 entry: such a put replaces the
entry without releasing its slot. Eviction, delete, demotion and a put over a
T2 entry all keep the books.
-/

namespace AttentionDB

open GuardedRuns SlabAllocator ListSums

set_option autoImplicit false

def t1Weight (a : SlabAllocator) (entry : IndexEntry) : Nat :=
  if entry.tier = kT1Dram then a.slotSizeAt entry.address.toNat else 0

def t1Bytes (a : SlabAllocator) (index : ConcurrentHashMap) : Nat := tableSum (t1Weight a) index

def Owns (index : ConcurrentHashMap) (key : StorageKey) (ptr : Nat) : Prop :=
  ∃ entry, index.find key = some entry ∧ entry.tier = kT1Dram ∧ entry.address.toNat = ptr

/-- The used bytes are those of the owned slots, and every allocated slot is
owned by exactly one entry. -/
def NoLeak (e : Engine) : Prop :=
  ∀ a, e.t1Allocator = some a → a.usedBytes = t1Bytes a e.index ∧
    ∀ ptr slotSize, IsSlot a ptr slotSize → ¬IsFree a ptr → ∃! key, Owns e.index key ptr

def SlotsOwned (index : ConcurrentHashMap) (t1Allocator : Option SlabAllocator) : Prop :=
  ∀ a, t1Allocator = some a → ∀ ptr slotSize, IsSlot a ptr slotSize → ¬IsFree a ptr →
    ∃ key, Owns index key ptr

structure OwnedInv (index : ConcurrentHashMap) (t1Allocator : Option SlabAllocator) : Prop where
  t1 : T1Inv index t1Allocator
  counted : ∀ a, t1Allocator = some a → a.usedTotal = t1Bytes a index
  owned : ∀ a, t1Allocator = some a → ∀ ptr slotSize, IsSlot a ptr slotSize → ¬IsFree a ptr →
    ∃ key, Owns index key ptr

section Sums

variable {a : SlabAllocator} {index : ConcurrentHashMap} {key : StorageKey} {entry : IndexEntry}

theorem t1_bytes_erase (found : index.find key = some entry) :
    t1Bytes a (index.erase key) + t1Weight a entry = t1Bytes a index :=
  table_sum_erase (t1Weight a) index key entry found

theorem t1_bytes_upsert : t1Bytes a (index.upsert key entry) =
    t1Weight a entry + t1Bytes a (index.erase key) :=
  table_sum_insert (t1Weight a) index key entry

theorem t1_weight_elsewhere (notInT1 : entry.tier ≠ kT1Dram) : t1Weight a entry = 0 :=
  if_neg notInT1

theorem t1_weight_slot (inT1 : entry.tier = kT1Dram) :
    t1Weight a entry = a.slotSizeAt entry.address.toNat :=
  if_pos inT1

/-- Erasing a key without a T1 entry takes nothing away. -/
theorem t1_bytes_erase_other (absent : ∀ old, index.find key = some old → old.tier ≠ kT1Dram) :
    t1Bytes a (index.erase key) = t1Bytes a index := by
  cases found : index.find key with
  | none => exact table_sum_erase_absent (t1Weight a) index key found
  | some old =>
      have sum := t1_bytes_erase (a := a) found
      rw [t1_weight_elsewhere (absent old found)] at sum
      exact sum

theorem t1_bytes_touch (now : Nat) :
    t1Bytes a (index.updateFn key (·.touch now)) = t1Bytes a index := by
  unfold ConcurrentHashMap.updateFn
  split
  · rename_i old found
    have same : t1Weight a (old.touch now) = t1Weight a old := rfl
    have sum := t1_bytes_erase (a := a) found
    rw [t1_bytes_upsert, same]
    omega
  · rfl

theorem t1_bytes_same_sizes {after : SlabAllocator}
    (sizes : ∀ q, after.slotSizeAt q = a.slotSizeAt q) : t1Bytes after index = t1Bytes a index := by
  have weights : t1Weight after = t1Weight a := by
    funext entry
    simp only [t1Weight, sizes]
  unfold t1Bytes
  rw [weights]

end Sums

section Owners

variable {index : ConcurrentHashMap} {key other : StorageKey} {entry : IndexEntry} {ptr : Nat}

theorem owns_after_erase (owns : Owns index other ptr) (different : other ≠ key) :
    Owns (index.erase key) other ptr := by
  rcases owns with ⟨old, found, inT1, address⟩
  exact ⟨old, by rw [ConcurrentHashMap.find_erase, if_neg different, found], inT1, address⟩

theorem owns_after_upsert (owns : Owns index other ptr) (different : other ≠ key) :
    Owns (index.upsert key entry) other ptr := by
  rcases owns with ⟨old, found, inT1, address⟩
  exact ⟨old, by rw [ConcurrentHashMap.find_upsert, if_neg different, found], inT1, address⟩

theorem owns_after_touch (owns : Owns index other ptr) (now : Nat) :
    Owns (index.updateFn key (·.touch now)) other ptr := by
  rcases owns with ⟨old, found, inT1, address⟩
  by_cases same : other = key
  · subst same
    exact ⟨old.touch now, by rw [ConcurrentHashMap.find_update_fn, if_pos rfl, found]; rfl, inT1, address⟩
  · exact ⟨old, by rw [ConcurrentHashMap.find_update_fn, if_neg same, found], inT1, address⟩

end Owners

section Changes

variable {index after : ConcurrentHashMap} {t1Allocator : Option SlabAllocator}
  {key : StorageKey} {entry : IndexEntry}

/-- The T1 part of the index is what it was. -/
theorem OwnedInv.same (inv : OwnedInv index t1Allocator) (subset : T1Subset after index)
    (kept : ∀ other ptr, Owns index other ptr → Owns after other ptr)
    (bytes : ∀ a, t1Bytes a after = t1Bytes a index) : OwnedInv after t1Allocator where
  t1 := inv.t1.shrink subset
  counted a isAllocator := (inv.counted a isAllocator).trans (bytes a).symm
  owned a isAllocator ptr slotSize isSlot taken := by
    rcases inv.owned a isAllocator ptr slotSize isSlot taken with ⟨owner, owns⟩
    exact ⟨owner, kept owner ptr owns⟩

theorem OwnedInv.erase_other (inv : OwnedInv index t1Allocator)
    (absent : ∀ old, index.find key = some old → old.tier ≠ kT1Dram) :
    OwnedInv (index.erase key) t1Allocator := by
  apply inv.same (t1_subset_erase index key) _ fun a => t1_bytes_erase_other absent
  intro other ptr owns
  apply owns_after_erase owns
  rintro rfl
  rcases owns with ⟨old, found, inT1, _⟩
  exact absent old found inT1

theorem OwnedInv.upsert_other (inv : OwnedInv index t1Allocator)
    (absent : ∀ old, index.find key = some old → old.tier ≠ kT1Dram)
    (notInT1 : entry.tier ≠ kT1Dram) : OwnedInv (index.upsert key entry) t1Allocator := by
  apply inv.same (t1_subset_upsert index notInT1)
  · intro other ptr owns
    apply owns_after_upsert owns
    rintro rfl
    rcases owns with ⟨old, found, inT1, _⟩
    exact absent old found inT1
  · intro a
    rw [t1_bytes_upsert, t1_weight_elsewhere notInT1, t1_bytes_erase_other absent, Nat.zero_add]

/-- A fresh slot is published under a key without a T1 entry. -/
theorem OwnedInv.publish {a allocator : SlabAllocator} (inv : OwnedInv index (some a))
    {size ptr : Nat} (allocated : Allocated a size ptr allocator)
    (absent : ∀ old, index.find key = some old → old.tier ≠ kT1Dram)
    (inT1 : entry.tier = kT1Dram) (address : entry.address.toNat = ptr)
    (length : entry.length.toNat ≤ size) : OwnedInv (index.upsert key entry) (some allocator) := by
  have published := inv.t1.publish allocated key address length
  refine { t1 := published, counted := ?_, owned := ?_ }
  · rintro _ ⟨⟩
    rcases allocated.slot with ⟨slotSize, isSlot, _, used⟩
    have slot := slot_size_at allocated.layout ((allocated.sameSlots _ _).2 isSlot)
    rw [used, inv.counted a rfl, t1_bytes_upsert, t1_weight_slot inT1, address, slot,
      t1_bytes_erase_other absent, t1_bytes_same_sizes allocated.sameSizes, Nat.add_comm]
  · rintro _ ⟨⟩ q slotSize isSlot taken
    by_cases isNew : q = ptr
    · exact ⟨key, entry, ConcurrentHashMap.find_upsert_self _ _ _, inT1, address.trans isNew.symm⟩
    · have takenBefore : ¬IsFree a q := by
        intro free
        exact taken ((allocated.freeIff q).2 ⟨free, isNew⟩)
      rcases inv.owned a rfl q slotSize ((allocated.sameSlots _ _).1 isSlot) takenBefore with
        ⟨owner, owns⟩
      refine ⟨owner, owns_after_upsert owns ?_⟩
      rintro rfl
      rcases owns with ⟨old, found, wasT1, _⟩
      exact absent old found wasT1

/-- The slot of an entry that leaves T1 is released; its owner owned no other. -/
theorem SlotsOwned.release (owned : SlotsOwned index t1Allocator) (t1 : T1Inv index t1Allocator)
    (found : index.find key = some entry) (inT1 : entry.tier = kT1Dram)
    (kept : ∀ other ptr, Owns index other ptr → other ≠ key → Owns after other ptr) :
    SlotsOwned after (t1Allocator.map (·.freeByPtr entry.address.toNat)) := by
  rcases t1.valid key entry found inT1 with ⟨a, rfl, notFree, slotSize, isSlot, _⟩
  have released := free_by_ptr_spec (t1.layout a rfl) (t1.frees a rfl) isSlot notFree
  rintro _ ⟨⟩ q otherSize otherSlot taken
  have stillTaken : ¬IsFree a q := by
    intro free
    exact taken ((released.freeIff q).2 (.inl free))
  rcases owned a rfl q otherSize ((released.sameSlots _ _).1 otherSlot) stillTaken with
    ⟨owner, owns⟩
  refine ⟨owner, kept owner q owns ?_⟩
  rintro rfl
  rcases owns with ⟨old, was, _, address⟩
  rw [found] at was
  cases was
  exact taken ((released.freeIff q).2 (.inr address.symm))

theorem OwnedInv.release (inv : OwnedInv index t1Allocator) (found : index.find key = some entry)
    (inT1 : entry.tier = kT1Dram) (subset : T1Subset after index)
    (gone : ∀ left, after.find key = some left → left.tier ≠ kT1Dram)
    (kept : ∀ other ptr, Owns index other ptr → other ≠ key → Owns after other ptr)
    (bytes : ∀ a, t1Bytes a after + t1Weight a entry = t1Bytes a index) :
    OwnedInv after (t1Allocator.map (·.freeByPtr entry.address.toNat)) := by
  have owned : SlotsOwned index t1Allocator := inv.owned
  refine
    { t1 := inv.t1.release found inT1 subset gone
      counted := ?_
      owned := owned.release inv.t1 found inT1 kept }
  rcases inv.t1.valid key entry found inT1 with ⟨a, rfl, notFree, slotSize, isSlot, _⟩
  have released := free_by_ptr_spec (inv.t1.layout a rfl) (inv.t1.frees a rfl) isSlot notFree
  rintro _ ⟨⟩
  have used := released.used
  have counted := inv.counted a rfl
  have left := bytes a
  rw [t1_weight_slot inT1] at left
  have total : (a.freeByPtr entry.address.toNat).usedTotal = t1Bytes a after := by omega
  exact total.trans (t1_bytes_same_sizes released.sameSizes).symm

theorem OwnedInv.release_erased (inv : OwnedInv index t1Allocator)
    (found : index.find key = some entry) (inT1 : entry.tier = kT1Dram) :
    OwnedInv (index.erase key) (t1Allocator.map (·.freeByPtr entry.address.toNat)) :=
  inv.release found inT1 (t1_subset_erase index key) Engine.erased_gone
    (fun _ _ owns different => owns_after_erase owns different) fun _ => t1_bytes_erase found

theorem OwnedInv.release_moved (inv : OwnedInv index t1Allocator)
    (found : index.find key = some entry) (inT1 : entry.tier = kT1Dram) {moved : IndexEntry}
    (notInT1 : moved.tier ≠ kT1Dram) :
    OwnedInv (index.upsert key moved) (t1Allocator.map (·.freeByPtr entry.address.toNat)) := by
  apply inv.release found inT1 (t1_subset_upsert index notInT1) (Engine.upserted_gone notInT1)
    fun _ _ owns different => owns_after_upsert owns different
  intro a
  rw [t1_bytes_upsert, t1_weight_elsewhere notInT1, Nat.zero_add]
  exact t1_bytes_erase found

end Changes

/-! ## The calls -/

namespace Engine

variable {e after : Engine}

def Owned (e : Engine) : Prop := OwnedInv e.index e.t1Allocator

def Resident (e : Engine) (key : StorageKey) : Prop :=
  ∃ entry, e.index.find key = some entry ∧ entry.tier = kT1Dram

def Stores (e : Engine) (key : StorageKey) (blob : List UInt8) (io : PutIo) : Prop :=
  (e.allocateT1 blob).isSome ∨ ∃ t2 loc t2After, e.t2Store = some t2 ∧
    t2.write { key, data := blob, checksum := computeCrc32 blob } io.t2 = some ((.kOk, loc), t2After)

theorem evict_round_owned {io : EvictIo} (inv : Owned e) (round : EvictRound e io after) :
    Owned after := by
  cases round with
  | skipped => exact inv
  | dropped t1Eviction victim entry found inT1 => exact inv.release_erased found inT1
  | refused t1Eviction victim entry found inT1 => exact inv.release_erased found inT1
  | demoted t1Eviction t2Eviction victim entry found inT1 t2 t2After loc =>
      exact inv.release_moved found inT1 (demoted_not_t1 entry loc)

theorem evict_run_owned {io : Nat → EvictIo} (inv : Owned e) (run : EvictRun io e after) :
    Owned after :=
  run.keeps Owned (fun _ _ _ before round => evict_round_owned before round) inv

theorem stored_owned {key : StorageKey} {blob : List UInt8} {opts : PutOpts} {io : PutIo}
    (inv : Owned e) (fresh : ¬Resident e key) (stored : Stored e key blob opts io after) :
    Owned after := by
  have absent : ∀ old, e.index.find key = some old → old.tier ≠ kT1Dram := by
    intro old found inT1
    exact fresh ⟨old, found, inT1⟩
  cases stored with
  | inT1 admission a allocator handle ptr accepted isAllocator allocated =>
      have start : OwnedInv e.index (some a) := isAllocator ▸ inv
      have layout := start.t1.layout a rfl
      have spec := allocate_spec layout (start.t1.frees a rfl) allocated
      obtain ⟨slotSize, isSlot, _⟩ := spec.slot
      exact start.publish spec absent rfl (slot_address_to_nat layout isSlot)
        (Nat.le_of_eq (blob_length_to_nat accepted.2))
  | inT2 admission t2 t2After loc accepted full isStore ran =>
      apply inv.upsert_other absent
      intro same
      cases same

theorem put_owned {key : StorageKey} {blob : List UInt8} {opts : PutOpts} {io : PutIo}
    {status : Status} (inv : Owned e)
    (fresh : Accepted e blob opts → Stores e key blob io → ¬Resident e key)
    (cases : PutCases e key blob opts io status after) : Owned after := by
  cases cases with
  | rejected | refused => exact inv
  | storedT1 admission t1Eviction a allocator handle ptr accepted isAllocator allocated run =>
      apply evict_run_owned _ run
      have stores : Stores e key blob io := .inl (by simp [allocateT1, isAllocator, allocated])
      have stored : Stored e key blob opts io _ :=
        .inT1 admission a allocator handle ptr accepted isAllocator allocated
      have owned := stored_owned inv (fresh accepted stores) stored
      exact owned
  | storedT2 admission t2Eviction t2 t2After loc accepted full isStore ran run =>
      apply evict_run_owned _ run
      have stores : Stores e key blob io := .inr ⟨t2, loc, t2After, isStore, ran⟩
      have stored : Stored e key blob opts io _ :=
        .inT2 admission t2 t2After loc accepted full isStore ran
      have owned := stored_owned inv (fresh accepted stores) stored
      exact owned

theorem get_owned {key : StorageKey} {bufLen : Nat} {io : GetIo} {reply : BlobStore.ReadReply}
    (inv : Owned e) (cases : GetCases e key bufLen io reply after) : Owned after := by
  have touched : OwnedInv (e.index.updateFn key (·.touch io.touchedAt)) e.t1Allocator :=
    inv.same (t1_subset_touch _ _ _) (fun _ _ owns => owns_after_touch owns _)
      fun _ => t1_bytes_touch _
  cases cases with
  | missed => exact inv
  | fromT1 | fromT2 | nowhere => exact touched

theorem del_owned {key : StorageKey} {status : Status} (inv : Owned e)
    (cases : DelCases e key status after) : Owned after := by
  cases cases with
  | missed => exact inv
  | fromT1 entry t1Eviction t2Eviction found inT1 => exact inv.release_erased found inT1
  | fromT2 entry t1Eviction t2Eviction t2 found inT2 isStore =>
      apply inv.erase_other
      intro old was
      rw [found] at was
      cases was
      rw [inT2]
      decide
  | fromNowhere entry t1Eviction t2Eviction found notInT1 =>
      apply inv.erase_other
      intro old was
      rw [found] at was
      cases was
      exact notInT1

theorem Owned.no_leak (inv : Owned e) : NoLeak e := by
  intro a isAllocator
  refine ⟨?_, ?_⟩
  · rw [used_bytes_exact (inv.t1.layout a isAllocator) (inv.t1.frees a isAllocator)]
    exact inv.counted a isAllocator
  · intro ptr slotSize isSlot taken
    rcases inv.owned a isAllocator ptr slotSize isSlot taken with ⟨owner, owns⟩
    refine ⟨owner, owns, ?_⟩
    intro other otherOwns
    rcases owns with ⟨entry, found, inT1, address⟩
    rcases otherOwns with ⟨otherEntry, otherFound, otherT1, otherAddress⟩
    exact inv.t1.unshared other owner otherEntry entry otherFound found otherT1 inT1
      (UInt64.toNat_inj.1 (otherAddress.trans address.symm))

end Engine

/-- No put stores a blob under a key that has a T1 entry. -/
def noOverwriteGuard (session : Session) : SessionLabel → Prop
  | .put key blob opts io => session.engine.Accepted blob opts →
      session.engine.Stores key blob io → ¬session.engine.Resident key
  | _ => True

section Runs

variable {session after : Session} {label : SessionLabel}

theorem session_owned (inv : session.engine.Owned) (allowed : noOverwriteGuard session label)
    (cases : SessionCases session label after) : after.engine.Owned := by
  cases cases with
  | put key blob opts io status engine cases => exact Engine.put_owned inv allowed cases
  | get key bufLen io reply engine cases => exact Engine.get_owned inv cases
  | del key status engine cases => exact Engine.del_owned inv cases
  | flush => exact inv

theorem session_start_owned (initial : (sessionMachine anyCheckpoint).start session) :
    session.engine.Owned := by
  have sound := session_start_t1 initial
  rcases initial with ⟨config, io, _, opening, backed, _⟩
  have opened := Engine.open_engine_opened opening
  refine { t1 := sound, counted := ?_, owned := ?_ }
  · intro a isAllocator
    have empty : t1Bytes a session.engine.index = tableSum (fun _ => 0) session.engine.index := by
      apply table_sum_congr
      intro key entry found
      have look : session.engine.index.find key = some entry := found
      rw [opened.index] at look
      exact t1_weight_elsewhere (Engine.loaded_index_not_t1 look)
    rw [init_classes_unused (opened.t1 a isAllocator), empty]
    simp [tableSum]
  · intro a isAllocator ptr slotSize isSlot taken
    exact absurd (init_classes_all_free (opened.t1 a isAllocator) isSlot) taken

theorem reach_owned
    (reached : ReachWithin (sessionMachine anyCheckpoint) noOverwriteGuard session) :
    session.engine.Owned := by
  apply reached.invariant fun session => session.engine.Owned
  · intro start initial
    exact session_start_owned initial
  · intro before label after inv allowed moved
    exact session_owned inv allowed (session_cases moved)

/-- In every run in which no put stores over a T1 entry, nothing leaks. -/
theorem t1_no_leak
    (reached : ReachWithin (sessionMachine anyCheckpoint) noOverwriteGuard session) :
    NoLeak session.engine :=
  (reach_owned reached).no_leak

end Runs

theorem t1_no_leak_after_put :
    NoLeak (next (sessionMachine anyCheckpoint) slabStart slabPut).engine := by
  have reached : ReachWithin (sessionMachine anyCheckpoint) noOverwriteGuard
      (next (sessionMachine anyCheckpoint) slabStart slabPut) := by
    apply ReachWithin.to_next slabPut (.start slab_started) _ (by decide)
    rintro _ _ ⟨entry, found, _⟩
    contradiction
  exact t1_no_leak reached

def twicePutSession : Session :=
  next (sessionMachine anyCheckpoint) (next (sessionMachine anyCheckpoint) slabStart slabPut) slabPut

theorem put_twice_leaks_slot :
    Reach (sessionMachine anyCheckpoint) twicePutSession ∧ ¬NoLeak twicePutSession.engine := by
  constructor
  · have first : Reach (sessionMachine anyCheckpoint)
        (next (sessionMachine anyCheckpoint) slabStart slabPut) :=
      .to_next slabPut (.start slab_started) trivial (by decide)
    exact .to_next slabPut first trivial (by decide)
  · intro noLeak
    have counted := (noLeak
      { classes := [{ slotSize := 64, numSlots := 4, base := 4096, freeList := [1, 0] }]
        totalBytes := 256 } rfl).1
    exact absurd counted (by decide)

end AttentionDB
