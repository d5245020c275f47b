import AttentionDB.Engine.SlotReuse

/-!
# Every access to a slot stays inside it

A thread copies into a slot, copies out of it or gives it back some steps after
it learned the address. By then the slot may have been freed, freed twice and
handed out again, so that the bytes are somebody else's. Whatever the threads
do, the address is still the start of a slot of this allocator and the bytes
still fit: no interleaving reads or writes outside the slabs, or across the end
of a slot.
-/

namespace AttentionDB

open GuardedRuns ByteMap SlabAllocator

set_option autoImplicit false

namespace ThreadPc

/-- The bytes of a slot that the next step of the thread copies, in or out. -/
def copies : ThreadPc → Option (Nat × Nat)
  | .copy put ptr => some (ptr, put.blob.length)
  | .getCopy _ entry => some (entry.address.toNat, entry.length.toNat)
  | .evict _ (.write _ entry _) => some (entry.address.toNat, entry.length.toNat)
  | _ => none

def givesBack : ThreadPc → Option Nat
  | .evict _ (.free ptr) => some ptr
  | .delFree _ entry => some entry.address.toNat
  | _ => none

def span : ThreadPc → Option (Nat × Nat)
  | .copy put ptr | .insertT1 put ptr | .publishT1 put ptr => some (ptr, put.blob.length)
  | .getCopy _ entry | .delFree _ entry => some (entry.address.toNat, entry.length.toNat)
  | .evict _ (.write _ entry _) | .evict _ (.upsert _ entry _ _ _) | .evict _ (.insert _ entry)
  | .evict _ (.erase _ entry) => some (entry.address.toNat, entry.length.toNat)
  | .evict _ (.free ptr) => some (ptr, 0)
  | _ => none

end ThreadPc

/-- The next step of every thread stays inside a slot, and so does whoever
follows an entry of the index. Memory changes only where a put copies its blob. -/
structure SlotAccessesInside (s : EngineSystem) : Prop where
  copies : ∀ t ptr length, (s.threads t).copies = some (ptr, length) → Room s.engine ptr length
  returns : ∀ t ptr, (s.threads t).givesBack = some ptr → Room s.engine ptr 0
  entries : ∀ key entry, s.engine.index.find key = some entry → entry.tier = kT1Dram →
    Room s.engine entry.address.toNat entry.length.toNat
  writes : ∀ label after, engineMachine.exec s label = some after →
    ∀ byte, after.engine.memory byte ≠ s.engine.memory byte →
      ∃ t io put ptr, label = .step t io ∧ s.threads t = .copy put ptr ∧
        Room s.engine ptr put.blob.length ∧ ptr ≤ byte ∧ byte < ptr + put.blob.length

structure AccessInv (s : EngineSystem) : Prop where
  slots : ∀ a, s.engine.t1Allocator = some a → SlotsOk a
  entries : ∀ key entry, s.engine.index.find key = some entry → entry.tier = kT1Dram →
    Room s.engine entry.address.toNat entry.length.toNat
  spans : ∀ t ptr length, (s.threads t).span = some (ptr, length) → Room s.engine ptr length

theorem Room.shorter {e : Engine} {ptr length less : Nat} (room : Room e ptr length)
    (short : less ≤ length) : Room e ptr less := by
  rcases room with ⟨a, slotSize, isAllocator, isSlot, fits⟩
  exact ⟨a, slotSize, isAllocator, isSlot, Nat.le_trans short fits⟩

/-! ## Where a thread gets its bytes from -/

/-- The thread had the bytes in hand before, found them under a key or was just
given them. -/
inductive SpanFrom (s : EngineSystem) (pc : ThreadPc) (ptr length : Nat) : Prop where
  | kept (whole : Nat) (carried : pc.span = some (ptr, whole)) (fits : length ≤ whole)
  | entry (key : StorageKey) (entry : IndexEntry) (found : s.engine.index.find key = some entry)
      (inT1 : entry.tier = kT1Dram) (address : ptr = entry.address.toNat)
      (sameLength : length = entry.length.toNat)
  | allocated (a allocator : SlabAllocator) (handle : SlabHandle)
      (isAllocator : s.engine.t1Allocator = some a)
      (allocated : a.allocate length = some (handle, ptr, allocator))

section Steps

variable {s after : EngineSystem} {t : Nat} {io : StepIo}

@[simp] theorem move_thread (engine : Engine) (pc : ThreadPc) :
    (s.move t engine pc).threads t = pc := by
  simp [EngineSystem.move]

@[simp] theorem record_threads (change : History → History) :
    (s.record change).threads = s.threads := rfl

@[simp] theorem finish_thread (engine : Engine) (update : Update) (isPut : Bool) (status : Status) :
    (s.finish t engine update isPut status).threads t = .idle := by
  simp [EngineSystem.finish]

theorem evict_span {put : PutCall} {pc : EvictPc} (ran : s.stepEvict t put io pc = some after)
    {ptr length : Nat} (carried : (after.threads t).span = some (ptr, length)) :
    SpanFrom s (.evict put pc) ptr length := by
  cases pc with
  | check =>
      simp only [EngineSystem.stepEvict] at ran
      split at ran
      · cases ran
        rw [move_thread] at carried
        cases carried
      · cases ran
        rw [finish_thread] at carried
        cases carried
  | pick =>
      simp only [EngineSystem.stepEvict] at ran
      split at ran
      · cases ran
        rw [finish_thread] at carried
        cases carried
      · cases ran
        rw [move_thread] at carried
        cases carried
  | find victim =>
      simp only [EngineSystem.stepEvict] at ran
      split at ran
      · cases ran
        rw [move_thread] at carried
        cases carried
      · rename_i entry found
        split at ran
        · rename_i inT1
          split at ran
          · cases ran
            rw [move_thread] at carried
            cases carried
            exact .entry victim entry found inT1 rfl rfl
          · cases ran
            rw [move_thread] at carried
            cases carried
            exact .entry victim entry found inT1 rfl rfl
        · cases ran
          rw [move_thread] at carried
          cases carried
  | write victim entry version =>
      simp only [EngineSystem.stepEvict] at ran
      split at ran
      · contradiction
      · split at ran
        · contradiction
        · split at ran
          · cases ran
            rw [move_thread] at carried
            exact .kept length carried (Nat.le_refl _)
          · cases ran
            rw [move_thread] at carried
            exact .kept length carried (Nat.le_refl _)
  | upsert victim entry loc version origin =>
      cases ran
      rw [record_threads, move_thread] at carried
      exact .kept length carried (Nat.le_refl _)
  | insert victim entry =>
      cases ran
      rw [move_thread] at carried
      cases carried
      exact .kept entry.length.toNat rfl (Nat.zero_le _)
  | erase victim entry =>
      cases ran
      rw [move_thread] at carried
      cases carried
      exact .kept entry.length.toNat rfl (Nat.zero_le _)
  | free ptr =>
      cases ran
      rw [move_thread] at carried
      cases carried

theorem step_span (ran : s.stepThread t io (s.threads t) = some after) {ptr length : Nat}
    (carried : (after.threads t).span = some (ptr, length)) :
    SpanFrom s (s.threads t) ptr length := by
  cases here : s.threads t with
  | idle =>
      rw [here] at ran
      cases ran
  | putBegun put =>
      rw [here] at ran
      cases ran
      unfold EngineSystem.stepAdmission at carried
      dsimp only at carried
      split_ifs at carried <;> simp [ThreadPc.span] at carried
  | allocate put =>
      rw [here] at ran
      cases ran
      unfold EngineSystem.stepAllocate at carried
      split at carried
      · rename_i handle q allocator allocated
        rw [move_thread] at carried
        cases carried
        rw [Engine.allocateT1, Option.bind_eq_some_iff] at allocated
        rcases allocated with ⟨a, isAllocator, given⟩
        exact .allocated a allocator handle isAllocator given
      · split at carried <;> simp [ThreadPc.span] at carried
  | copy put q =>
      rw [here] at ran
      cases ran
      rw [EngineSystem.stepCopy, record_threads, move_thread] at carried
      exact .kept length carried (Nat.le_refl _)
  | insertT1 put q =>
      rw [here] at ran
      cases ran
      rw [move_thread] at carried
      exact .kept length carried (Nat.le_refl _)
  | publishT1 put q | publishT2 put loc =>
      rw [here] at ran
      cases ran
      rw [EngineSystem.stepPublish, record_threads, move_thread] at carried
      cases carried
  | write put =>
      rw [here] at ran
      simp only [EngineSystem.stepThread, EngineSystem.stepWrite] at ran
      split at ran
      · contradiction
      · split at ran
        · contradiction
        · split at ran <;> cases ran <;> simp [ThreadPc.span] at carried
  | insertT2 put loc | getAccessT1 key entry bytes | getAccessT2 key entry reply
  | delFree del entry | delMark del entry | delRemoveT1 del =>
      rw [here] at ran
      cases ran
      rw [move_thread] at carried
      cases carried
  | evict put pc =>
      rw [here] at ran
      exact evict_span ran carried
  | getFind key bufLen =>
      rw [here] at ran
      cases ran
      unfold EngineSystem.stepGetFind at carried
      split at carried
      · rw [move_thread] at carried
        cases carried
      · rename_i entry found
        split_ifs at carried with inT1 small
        · simp [ThreadPc.span] at carried
        · rw [move_thread] at carried
          cases carried
          exact .entry key entry found inT1.1 rfl rfl
        · simp [ThreadPc.span] at carried
        · simp [ThreadPc.span] at carried
  | getCopy key entry =>
      rw [here] at ran
      cases ran
      rw [move_thread] at carried
      cases carried
  | getRead key entry bufLen =>
      rw [here] at ran
      simp only [EngineSystem.stepThread, EngineSystem.stepGetRead] at ran
      split at ran
      · contradiction
      · split at ran
        · contradiction
        · split at ran <;> cases ran <;> simp [ThreadPc.span] at carried
  | getTouch key fromT1 reply =>
      rw [here] at ran
      cases ran
      rw [EngineSystem.stepGetTouch, record_threads, move_thread] at carried
      cases carried
  | delFind del =>
      rw [here] at ran
      cases ran
      unfold EngineSystem.stepDelFind at carried
      split at carried
      · rw [finish_thread] at carried
        cases carried
      · rename_i entry found
        split_ifs at carried with inT1
        · rw [move_thread] at carried
          cases carried
          exact .entry del.key entry found inT1.1 rfl rfl
        · simp [ThreadPc.span] at carried
        · simp [ThreadPc.span] at carried
  | delErase del =>
      rw [here] at ran
      cases ran
      rw [EngineSystem.stepDelErase, record_threads, move_thread] at carried
      cases carried
  | delRemoveT2 del =>
      rw [here] at ran
      cases ran
      rw [finish_thread] at carried
      cases carried

/-! ## What a step does to the slots, the entries and the memory -/

theorem step_slots (slots : ∀ a, s.engine.t1Allocator = some a → SlotsOk a)
    (cases : StepCases s t after) :
    (∀ a, after.engine.t1Allocator = some a → SlotsOk a) ∧
      ∀ ptr length, Room s.engine ptr length → Room after.engine ptr length := by
  have unchanged : after.engine.t1Allocator = s.engine.t1Allocator →
      (∀ a, after.engine.t1Allocator = some a → SlotsOk a) ∧
        ∀ ptr length, Room s.engine ptr length → Room after.engine ptr length := by
    intro same
    refine ⟨fun a isAllocator => slots a (same ▸ isAllocator), ?_⟩
    rintro ptr length ⟨a, slotSize, isAllocator, fits⟩
    exact ⟨a, slotSize, same.trans isAllocator, fits⟩
  cases cases with
  | quiet pc next engine here core => exact unchanged core.t1Allocator
  | admitted put engine here core => exact unchanged core.t1Allocator
  | finished pc engine update isPut status here core => exact unchanged core.t1Allocator
  | planned put victim entry version loc engine here core => exact unchanged core.t1Allocator
  | copied | publishedT1 | publishedT2 | reserved | demoted | dropped | looked | read | touched
  | erased => exact unchanged rfl
  | allocated put a allocator handle ptr here isAllocator allocated =>
      rcases allocate_slots (slots a isAllocator) allocated with ⟨ok, _, sameSlots⟩
      constructor
      · rintro _ ⟨⟩
        exact ok
      · rintro q length ⟨_, size, isSame, isSlot, fits⟩
        rw [isAllocator] at isSame
        cases isSame
        exact ⟨allocator, size, rfl, (sameSlots q size).2 isSlot, fits⟩
  | freed pc next hold =>
      constructor
      · intro a isAllocator
        change s.engine.t1Allocator.map _ = some a at isAllocator
        rw [Option.map_eq_some_iff] at isAllocator
        rcases isAllocator with ⟨old, isOld, rfl⟩
        exact (free_by_ptr_slots (slots old isOld) hold.ptr).1
      · rintro q length ⟨a, size, isAllocator, isSlot, fits⟩
        have sameSlots := (free_by_ptr_slots (slots a isAllocator) hold.ptr).2
        refine ⟨a.freeByPtr hold.ptr, size, ?_, (sameSlots q size).2 isSlot, fits⟩
        change s.engine.t1Allocator.map _ = some _
        rw [isAllocator]
        rfl

/-- A T1 entry was there before, at the same slot, or a put just published it. -/
theorem step_t1_entries (cases : StepCases s t after) {key : StorageKey} {entry : IndexEntry}
    (found : after.engine.index.find key = some entry) (inT1 : entry.tier = kT1Dram) :
    (∃ old, s.engine.index.find key = some old ∧ old.tier = kT1Dram ∧
        old.address = entry.address ∧ old.length = entry.length) ∨
      ∃ put ptr, s.threads t = .publishT1 put ptr ∧ entry.address = UInt64.ofNat ptr ∧
        entry.length = UInt32.ofNat put.blob.length := by
  have subset : T1Subset after.engine.index s.engine.index →
      ∃ old, s.engine.index.find key = some old ∧ old.tier = kT1Dram ∧
        old.address = entry.address ∧ old.length = entry.length :=
    fun subset => subset key entry found inT1
  cases cases with
  | quiet pc next engine here core => exact .inl (subset (core.index ▸ t1_subset_refl _))
  | admitted put engine here core => exact .inl (subset (core.index ▸ t1_subset_refl _))
  | finished pc engine update isPut status here core =>
      exact .inl (subset (core.index ▸ t1_subset_refl _))
  | planned put victim entry version loc engine here core =>
      exact .inl (subset (core.index ▸ t1_subset_refl _))
  | allocated | copied | reserved | freed | looked | read =>
      exact .inl (subset (t1_subset_refl s.engine.index))
  | publishedT1 put ptr here =>
      change (s.engine.index.upsert _ _).find key = some entry at found
      rw [ConcurrentHashMap.find_upsert] at found
      split at found
      · cases found
        exact .inr ⟨put, ptr, here, rfl, rfl⟩
      · exact .inl ⟨entry, found, inT1, rfl, rfl⟩
  | publishedT2 put loc =>
      have notInT1 : (Engine.t2Entry put.blob put.opts put.times loc).tier ≠ kT1Dram := by
        intro same
        cases same
      exact .inl (subset (t1_subset_upsert s.engine.index notInT1))
  | demoted put victim entry loc =>
      exact .inl (subset (t1_subset_upsert s.engine.index (Engine.demoted_not_t1 entry loc)))
  | dropped put victim => exact .inl (subset (t1_subset_erase s.engine.index victim))
  | touched key fromT1 reply io => exact .inl (subset (t1_subset_touch s.engine.index key io.now))
  | erased del => exact .inl (subset (t1_subset_erase s.engine.index del.key))

theorem step_memory (cases : StepCases s t after) {byte : Nat}
    (changed : after.engine.memory byte ≠ s.engine.memory byte) :
    ∃ put ptr, s.threads t = .copy put ptr ∧ ptr ≤ byte ∧ byte < ptr + put.blob.length := by
  have unchanged : after.engine.memory ≠ s.engine.memory := by
    intro same
    exact changed (congrFun same byte)
  cases cases with
  | quiet pc next engine here core => exact absurd core.memory unchanged
  | admitted put engine here core => exact absurd core.memory unchanged
  | finished pc engine update isPut status here core => exact absurd core.memory unchanged
  | planned put victim entry version loc engine here core => exact absurd core.memory unchanged
  | allocated | publishedT1 | publishedT2 | reserved | demoted | dropped | freed | looked | read
  | touched | erased => exact absurd rfl unchanged
  | copied put ptr here =>
      refine ⟨put, ptr, here, ?_⟩
      by_contra outside
      apply changed
      change patch s.engine.memory ptr put.blob byte = s.engine.memory byte
      exact patch_outside _ _ _ _ (by omega)

/-! ## The invariant -/

theorem AccessInv.room_of_span (inv : AccessInv s) {ptr length : Nat}
    (source : SpanFrom s (s.threads t) ptr length) : Room s.engine ptr length := by
  cases source with
  | kept whole carried fits => exact (inv.spans t ptr whole carried).shorter fits
  | entry key entry found inT1 address sameLength =>
      rw [address, sameLength]
      exact inv.entries key entry found inT1
  | allocated a allocator handle isAllocator allocated =>
      rcases (allocate_slots (inv.slots a isAllocator) allocated).2.1 with ⟨slotSize, isSlot, fits⟩
      exact ⟨a, slotSize, isAllocator, isSlot, fits⟩

theorem AccessInv.step (inv : AccessInv s) (ran : s.stepThread t io (s.threads t) = some after) :
    AccessInv after := by
  have cases := step_cases ran
  rcases step_slots inv.slots cases with ⟨slots, room⟩
  refine { slots, entries := ?_, spans := ?_ }
  · intro key entry found inT1
    apply room
    rcases step_t1_entries cases found inT1 with ⟨old, was, wasT1, address, length⟩ |
      ⟨put, ptr, here, address, length⟩
    · rw [← address, ← length]
      exact inv.entries key old was wasT1
    · have own := inv.spans t ptr put.blob.length (by rw [here]; rfl)
      rcases own with ⟨a, slotSize, isAllocator, isSlot, fits⟩
      rw [address, length, Engine.slot_address_to_nat (inv.slots a isAllocator).layout isSlot]
      have truncated : (UInt32.ofNat put.blob.length).toNat ≤ put.blob.length := Nat.mod_le _ _
      exact ⟨a, slotSize, isAllocator, isSlot, Nat.le_trans truncated fits⟩
  · intro other ptr length carried
    apply room
    by_cases same : other = t
    · subst same
      exact inv.room_of_span (step_span ran carried)
    · have foreign : (EngineLabel.step t io).thread ≠ some other := by
        intro isOther
        exact same (Option.some.inj isOther).symm
      have moved : engineMachine.exec s (.step t io) = some after := ran
      rw [other_threads moved foreign] at carried
      exact inv.spans other ptr length carried

theorem AccessInv.begun (inv : AccessInv s) {pc : Nat → ThreadPc} {puts : Nat → List Update}
    (nothing : ∀ begun, (pc begun).span = none) (ran : s.begin t pc puts = some after) :
    AccessInv after := by
  unfold EngineSystem.begin at ran
  split at ran
  · cases ran
    refine { slots := inv.slots, entries := inv.entries, spans := ?_ }
    intro other ptr length carried
    exact inv.spans other ptr length (carried_elsewhere (nothing _) carried).2
  · contradiction

theorem AccessInv.next (inv : AccessInv s) {label : EngineLabel}
    (moved : engineMachine.exec s label = some after) : AccessInv after := by
  cases label with
  | put t key blob opts createdAt lastAccess =>
      simp only [engineMachine, EngineSystem.exec] at moved
      exact inv.begun (fun _ => rfl) moved
  | get t key bufLen =>
      simp only [engineMachine, EngineSystem.exec] at moved
      exact inv.begun (fun _ => rfl) moved
  | del t key =>
      simp only [engineMachine, EngineSystem.exec] at moved
      exact inv.begun (fun _ => rfl) moved
  | step t io => exact inv.step moved
  | flush step =>
      simp only [engineMachine, EngineSystem.exec] at moved
      split at moved
      · contradiction
      · rw [Option.map_eq_some_iff] at moved
        rcases moved with ⟨t2, _, rfl⟩
        exact ⟨inv.slots, inv.entries, inv.spans⟩

theorem engine_start_access (initial : engineMachine.start s) : AccessInv s := by
  rcases initial with ⟨config, io, opening, backed, fresh⟩
  have opened := Engine.open_engine_opened opening
  refine { slots := ?_, entries := ?_, spans := ?_ }
  · intro a isAllocator
    have made := opened.t1 a isAllocator
    exact ⟨init_classes_layout made (backed a isAllocator), (init_classes_free made).inRange⟩
  · intro key entry found inT1
    rw [opened.index] at found
    exact absurd inT1 (Engine.loaded_index_not_t1 found)
  · intro t ptr length carried
    rw [fresh] at carried
    cases carried

theorem copies_span {pc : ThreadPc} {ptr length : Nat} (copies : pc.copies = some (ptr, length)) :
    pc.span = some (ptr, length) := by
  cases pc with
  | copy | getCopy => exact copies
  | evict put pc =>
      cases pc with
      | write => exact copies
      | _ => cases copies
  | _ => cases copies

theorem gives_back_span {pc : ThreadPc} {ptr : Nat} (returns : pc.givesBack = some ptr) :
    ∃ length, pc.span = some (ptr, length) := by
  cases pc with
  | evict put pc =>
      cases pc with
      | free freed =>
          cases returns
          exact ⟨0, rfl⟩
      | _ => cases returns
  | delFree del entry =>
      cases returns
      exact ⟨entry.length.toNat, rfl⟩
  | _ => cases returns

theorem AccessInv.inside (inv : AccessInv s) : SlotAccessesInside s where
  copies t ptr length copies := inv.spans t ptr length (copies_span copies)
  returns t ptr returns := by
    rcases gives_back_span returns with ⟨length, carried⟩
    exact (inv.spans t ptr length carried).shorter (Nat.zero_le _)
  entries := inv.entries
  writes label after moved byte changed := by
    cases engine_cases moved with
    | began => exact absurd rfl changed
    | flushed step engine core => exact absurd (congrFun core.memory byte) changed
    | stepped t io cases =>
        rcases step_memory cases changed with ⟨put, ptr, here, above, below⟩
        exact ⟨t, io, put, ptr, rfl, here, inv.spans t ptr _ (by rw [here]; rfl), above, below⟩

end Steps

/-- In every run of any number of threads, whatever is freed under them. -/
theorem slot_accesses_inside {s : EngineSystem} (reached : Reach engineMachine s) :
    SlotAccessesInside s := by
  have inv : AccessInv s := by
    apply reached.invariant AccessInv
    · intro start initial
      exact engine_start_access initial
    · intro before label after inv _ moved
      exact inv.next moved
  exact inv.inside

/-- Also in the run in which thread 1 is about to copy a slot that thread 2 has
taken over. -/
theorem slot_accesses_inside_reused :
    ((last engineMachine slabThreads (reuseSteps.take 19)).threads 1).copies = some (4288, 1) ∧
      SlotAccessesInside (last engineMachine slabThreads (reuseSteps.take 19)) :=
  ⟨by decide +kernel,
    slot_accesses_inside (Reach.to_last (.start slab_threads_started) (reuseSteps.take 19)
      (by decide +kernel))⟩

end AttentionDB
