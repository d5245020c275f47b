import AttentionDB.Engine.ConcurrentSteps
import AttentionDB.Engine.T1Slots

/-!
# Reads of a slot that was taken over

A get looks its entry up and copies the slot in a later step. In between, the
slot can be freed and handed to another put. The bytes are the key's own in
every run in which no put copies its blob into a slot that an index entry or
another thread still refers to.
-/

namespace AttentionDB

open GuardedRuns ByteMap SlabAllocator

set_option autoImplicit false

/-- Every blob that gets returned from T1 is one that a put stored under the
key. -/
def ReadsOwnBytes (s : EngineSystem) : Prop :=
  ∀ pair ∈ s.history.t1Reads, pair ∈ s.history.stored

/-- The bytes in slots that somebody refers to: a T1 entry of the index, a put
on its way to publish, or a get on its way to copy. -/
inductive Viewed (s : EngineSystem) : SlotView → Prop where
  | entry (key : StorageKey) (entry : IndexEntry) (found : s.engine.index.find key = some entry)
      (inT1 : entry.tier = kT1Dram) : Viewed s ⟨key, entry.address.toNat, entry.length.toNat⟩
  | thread (t : Nat) (view : SlotView) (carried : (s.threads t).view = some view) : Viewed s view

/-- A put copies its blob only into a slot that nobody refers to, or where
whoever does expects a blob of that length under the same key. -/
def copyGuard (s : EngineSystem) : EngineLabel → Prop
  | .step t _ => ∀ put ptr, s.threads t = .copy put ptr → ∀ view, Viewed s view → view.ptr = ptr →
      view.key = put.update.key ∧ view.length = put.blob.length
  | _ => True

/-- A slot starts at the address, and the bytes fit. -/
def Room (e : Engine) (ptr length : Nat) : Prop :=
  ∃ a slotSize, e.t1Allocator = some a ∧ IsSlot a ptr slotSize ∧ length ≤ slotSize

structure Filled (s : EngineSystem) (view : SlotView) : Prop where
  room : Room s.engine view.ptr view.length
  bytes : (view.key, slice s.engine.memory view.ptr view.length) ∈ s.history.stored

structure ReuseInv (s : EngineSystem) : Prop where
  slots : ∀ a, s.engine.t1Allocator = some a → SlotsOk a
  filled : ∀ view, Viewed s view → Filled s view
  targets : ∀ t ptr blob, (s.threads t).target = some (ptr, blob) → Room s.engine ptr blob.length
  short : ∀ t blob, (s.threads t).admitted = some blob → blob.length < 2 ^ 32
  copies : ∀ t pair, (s.threads t).copied = some pair → pair ∈ s.history.stored
  reads : ReadsOwnBytes s

/-! ## Steps that leave the bytes alone -/

section Steps

variable {s after : EngineSystem} {t : Nat} {pc : ThreadPc}

theorem viewed_subset {engine : Engine} (subset : T1Subset engine.index s.engine.index) :
    ∀ key entry, engine.index.find key = some entry → entry.tier = kT1Dram →
      Viewed s ⟨key, entry.address.toNat, entry.length.toNat⟩ := by
  intro key entry found inT1
  rcases subset key entry found inT1 with ⟨old, was, wasT1, address, length⟩
  rw [← address, ← length]
  exact .entry key old was wasT1

/-- One thread moves on, and the memory is as before. Everything it carries has
to be accounted for, and so does every T1 entry. -/
theorem ReuseInv.moved (inv : ReuseInv s) (threads : after.threads = Function.update s.threads t pc)
    (memory : after.engine.memory = s.engine.memory)
    (stored : after.history.stored = s.history.stored)
    (slots : ∀ a, after.engine.t1Allocator = some a → SlotsOk a)
    (room : ∀ ptr length, Room s.engine ptr length → Room after.engine ptr length)
    (entries : ∀ key entry, after.engine.index.find key = some entry → entry.tier = kT1Dram →
      Viewed s ⟨key, entry.address.toNat, entry.length.toNat⟩)
    (view : ∀ view, pc.view = some view → Viewed s view)
    (target : ∀ ptr blob, pc.target = some (ptr, blob) → Room after.engine ptr blob.length)
    (admitted : ∀ blob, pc.admitted = some blob → blob.length < 2 ^ 32)
    (copied : ∀ pair, pc.copied = some pair → pair ∈ s.history.stored)
    (reads : ∀ pair ∈ after.history.t1Reads, pair ∈ s.history.stored) : ReuseInv after := by
  have before : ∀ seen, Viewed after seen → Viewed s seen := by
    intro seen viewed
    cases viewed with
    | entry key entry found inT1 => exact entries key entry found inT1
    | thread other seen carried =>
        rw [threads] at carried
        rcases carried_update ThreadPc.view carried with ⟨_, own⟩ | ⟨_, foreign⟩
        · exact view seen own
        · exact .thread other seen foreign
  refine
    { slots := slots
      filled := ?_
      targets := ?_
      short := ?_
      copies := ?_
      reads := ?_ }
  · intro seen viewed
    have filled := inv.filled seen (before seen viewed)
    refine ⟨room _ _ filled.room, ?_⟩
    rw [memory, stored]
    exact filled.bytes
  · intro other ptr blob carried
    rw [threads] at carried
    rcases carried_update ThreadPc.target carried with ⟨_, own⟩ | ⟨_, foreign⟩
    · exact target ptr blob own
    · exact room _ _ (inv.targets other ptr blob foreign)
  · intro other blob carried
    rw [threads] at carried
    rcases carried_update ThreadPc.admitted carried with ⟨_, own⟩ | ⟨_, foreign⟩
    · exact admitted blob own
    · exact inv.short other blob foreign
  · intro other pair carried
    rw [threads] at carried
    rw [stored]
    rcases carried_update ThreadPc.copied carried with ⟨_, own⟩ | ⟨_, foreign⟩
    · exact copied pair own
    · exact inv.copies other pair foreign
  · intro pair member
    rw [stored]
    exact reads pair member

/-- The slots stay too, and the T1 part of the index shrinks. -/
theorem ReuseInv.shrunk (inv : ReuseInv s) (threads : after.threads = Function.update s.threads t pc)
    (memory : after.engine.memory = s.engine.memory)
    (stored : after.history.stored = s.history.stored)
    (t1Allocator : after.engine.t1Allocator = s.engine.t1Allocator)
    (subset : T1Subset after.engine.index s.engine.index)
    (view : ∀ view, pc.view = some view → Viewed s view)
    (target : ∀ target, pc.target = some target → (s.threads t).target = some target)
    (admitted : ∀ blob, pc.admitted = some blob → blob.length < 2 ^ 32)
    (copied : ∀ pair, pc.copied = some pair → pair ∈ s.history.stored)
    (reads : ∀ pair ∈ after.history.t1Reads, pair ∈ s.history.stored) : ReuseInv after := by
  have room : ∀ ptr length, Room s.engine ptr length → Room after.engine ptr length := by
    rintro ptr length ⟨a, slotSize, isAllocator, fits⟩
    exact ⟨a, slotSize, t1Allocator.trans isAllocator, fits⟩
  refine inv.moved threads memory stored ?_ room (viewed_subset subset) view ?_ admitted copied reads
  · intro a isAllocator
    exact inv.slots a (t1Allocator ▸ isAllocator)
  · intro ptr blob carried
    exact room _ _ (inv.targets t ptr blob (target _ carried))

/-- The thread goes on without anything that has to do with a slot's bytes. -/
theorem ReuseInv.bare (inv : ReuseInv s) (threads : after.threads = Function.update s.threads t pc)
    (memory : after.engine.memory = s.engine.memory)
    (stored : after.history.stored = s.history.stored)
    (t1Allocator : after.engine.t1Allocator = s.engine.t1Allocator)
    (subset : T1Subset after.engine.index s.engine.index) (view : pc.view = none)
    (target : pc.target = none) (admitted : pc.admitted = none) (copied : pc.copied = none)
    (reads : ∀ pair ∈ after.history.t1Reads, pair ∈ s.history.stored) : ReuseInv after := by
  refine inv.shrunk threads memory stored t1Allocator subset ?_ ?_ ?_ ?_ reads
  · intro seen carried
    simp [view] at carried
  · intro slot carried
    simp [target] at carried
  · intro blob carried
    simp [admitted] at carried
  · intro pair carried
    simp [copied] at carried

theorem t1_subset_refl (index : ConcurrentHashMap) : T1Subset index index := by
  intro key entry found inT1
  exact ⟨entry, found, inT1, rfl, rfl⟩

theorem ReuseInv.calm (inv : ReuseInv s) {engine : Engine} (core : SameCore s.engine engine)
    (calm : Calm (s.threads t) pc) : ReuseInv (s.move t engine pc) := by
  have subset : T1Subset engine.index s.engine.index := core.index ▸ t1_subset_refl _
  refine inv.shrunk rfl core.memory rfl core.t1Allocator subset ?_ calm.target ?_ ?_ inv.reads
  · intro view carried
    exact .thread t view (calm.view view carried)
  · intro blob carried
    exact inv.short t blob (calm.admitted blob carried)
  · intro pair carried
    exact inv.copies t pair (calm.copied pair carried)

/-- Neither the clock nor the record of the returned calls is read. -/
theorem ReuseInv.recorded (inv : ReuseInv s) (change : History → History)
    (stored : (change s.history).stored = s.history.stored)
    (t1Reads : (change s.history).t1Reads = s.history.t1Reads) : ReuseInv (s.record change) where
  slots := inv.slots
  filled view viewed := by
    have before : Viewed s view := by
      cases viewed with
      | entry key entry found inT1 => exact .entry key entry found inT1
      | thread t view carried => exact .thread t view carried
    have filled := inv.filled view before
    refine ⟨filled.room, ?_⟩
    have same : (s.record change).history.stored = s.history.stored := stored
    rw [same]
    exact filled.bytes
  targets := inv.targets
  short := inv.short
  copies t pair carried := by
    have same : (s.record change).history.stored = s.history.stored := stored
    rw [same]
    exact inv.copies t pair carried
  reads pair member := by
    have same : (s.record change).history.stored = s.history.stored := stored
    rw [same]
    exact inv.reads pair (t1Reads ▸ member)

/-! ## The copy -/

theorem ReuseInv.copied (inv : ReuseInv s) {put : PutCall} {ptr : Nat}
    (here : s.threads t = .copy put ptr)
    (expected : ∀ view, Viewed s view → view.ptr = ptr →
      view.key = put.update.key ∧ view.length = put.blob.length) : ReuseInv (s.stepCopy t put ptr) := by
  have room : Room s.engine ptr put.blob.length := inv.targets t ptr put.blob (by rw [here]; rfl)
  have own : Filled (s.stepCopy t put ptr) ⟨put.update.key, ptr, put.blob.length⟩ := by
    refine ⟨room, ?_⟩
    have bytes : slice (patch s.engine.memory ptr put.blob) ptr put.blob.length = put.blob :=
      slice_patch_same _ _ _
    exact List.mem_cons.2 (.inl (congrArg (Prod.mk put.update.key) bytes))
  -- a view of another slot sees none of the new bytes
  have foreign : ∀ view, Viewed s view → Filled (s.stepCopy t put ptr) view := by
    intro view viewed
    have filled := inv.filled view viewed
    by_cases same : view.ptr = ptr
    · rcases expected view viewed same with ⟨key, length⟩
      have isOwn : view = ⟨put.update.key, ptr, put.blob.length⟩ := by
        rw [← key, ← length, ← same]
      rw [isOwn]
      exact own
    · refine ⟨filled.room, List.mem_cons_of_mem _ ?_⟩
      rcases filled.room with ⟨a, slotSize, isAllocator, isSlot, fits⟩
      rcases room with ⟨_, targetSize, isSame, isTarget, targetFits⟩
      rw [isAllocator] at isSame
      cases isSame
      have apart := slots_apart (inv.slots a isAllocator).layout isSlot isTarget same
      have unseen : slice (patch s.engine.memory ptr put.blob) view.ptr view.length =
          slice s.engine.memory view.ptr view.length :=
        slice_patch_disjoint _ _ _ _ _ (by omega)
      have bytes := filled.bytes
      rw [← unseen] at bytes
      exact bytes
  refine
    { slots := inv.slots
      filled := ?_
      targets := ?_
      short := ?_
      copies := ?_
      reads := ?_ }
  · intro view viewed
    cases viewed with
    | entry key entry found inT1 => exact foreign _ (.entry key entry found inT1)
    | thread other view carried =>
        rcases carried_update ThreadPc.view carried with ⟨_, carried⟩ | ⟨_, carried⟩
        · cases carried
          exact own
        · exact foreign view (.thread other view carried)
  · intro other ptr blob carried
    exact inv.targets other ptr blob (carried_elsewhere rfl carried).2
  · intro other blob carried
    rcases carried_update ThreadPc.admitted carried with ⟨_, carried⟩ | ⟨_, carried⟩
    · cases carried
      exact inv.short t put.blob (by rw [here]; rfl)
    · exact inv.short other blob carried
  · intro other pair carried
    exact List.mem_cons_of_mem _ (inv.copies other pair (carried_elsewhere rfl carried).2)
  · intro pair member
    exact List.mem_cons_of_mem _ (inv.reads pair member)

/-! ## Every step -/

theorem step_reuse {io : StepIo} (inv : ReuseInv s) (allowed : copyGuard s (.step t io))
    (cases : StepCases s t after) : ReuseInv after := by
  cases cases with
  | quiet pc next engine here core calm =>
      subst here
      exact inv.calm core calm
  | admitted put engine here core short =>
      have subset : T1Subset engine.index s.engine.index := core.index ▸ t1_subset_refl _
      refine inv.shrunk rfl core.memory rfl core.t1Allocator subset ?_ ?_ ?_ ?_ inv.reads
      · rintro _ ⟨⟩
      · rintro _ ⟨⟩
      · rintro _ ⟨⟩
        exact short
      · rintro _ ⟨⟩
  | finished pc engine update isPut status here core =>
      have subset : T1Subset engine.index s.engine.index := core.index ▸ t1_subset_refl _
      exact inv.bare rfl core.memory rfl core.t1Allocator subset rfl rfl rfl rfl inv.reads
  | allocated put a allocator handle ptr here isAllocator allocated =>
      rcases allocate_slots (inv.slots a isAllocator) allocated with ⟨ok, fits, sameSlots⟩
      rcases fits with ⟨slotSize, isSlot, large⟩
      refine inv.moved rfl rfl rfl ?_ ?_ (viewed_subset (t1_subset_refl _)) ?_ ?_ ?_ ?_ inv.reads
      · rintro _ ⟨⟩
        exact ok
      · rintro q length ⟨_, size, isSame, isSlot, fits⟩
        rw [isAllocator] at isSame
        cases isSame
        exact ⟨allocator, size, rfl, (sameSlots q size).2 isSlot, fits⟩
      · rintro _ ⟨⟩
      · rintro _ _ ⟨⟩
        exact ⟨allocator, slotSize, rfl, (sameSlots ptr slotSize).2 isSlot, large⟩
      · rintro _ ⟨⟩
        exact inv.short t put.blob (by rw [here]; rfl)
      · rintro _ ⟨⟩
  | copied put ptr here => exact inv.copied here (allowed put ptr here)
  | publishedT1 put ptr here =>
      have own : Viewed s ⟨put.update.key, ptr, put.blob.length⟩ := .thread t _ (by rw [here]; rfl)
      have short := inv.short t put.blob (by rw [here]; rfl)
      refine inv.moved rfl rfl rfl inv.slots (fun _ _ room => room) ?_ ?_ ?_ ?_ ?_ inv.reads
      · intro key entry found inT1
        change (s.engine.index.upsert _ _).find key = some entry at found
        rw [ConcurrentHashMap.find_upsert] at found
        split at found
        · rename_i isKey
          cases found
          rcases (inv.filled _ own).room with ⟨a, slotSize, isAllocator, isSlot, _⟩
          have address := Engine.slot_address_to_nat (inv.slots a isAllocator).layout isSlot
          have length := Engine.blob_length_to_nat short
          have isOwn : (⟨key, (UInt64.ofNat ptr).toNat, (UInt32.ofNat put.blob.length).toNat⟩ : SlotView) =
              ⟨put.update.key, ptr, put.blob.length⟩ := by
            rw [isKey, address, length]
          exact isOwn ▸ own
        · exact .entry key entry found inT1
      · rintro _ ⟨⟩
      · rintro _ _ ⟨⟩
      · rintro _ ⟨⟩
      · rintro _ ⟨⟩
  | publishedT2 put loc here =>
      have notInT1 : (Engine.t2Entry put.blob put.opts put.times loc).tier ≠ kT1Dram := by
        intro same
        cases same
      have subset : T1Subset (s.engine.index.upsert put.update.key _) s.engine.index :=
        t1_subset_upsert s.engine.index notInT1
      exact inv.bare rfl rfl rfl rfl subset rfl rfl rfl rfl inv.reads
  | reserved pc next key entry here seeks found inT1 hold call settled view copied target admitted =>
      exact inv.bare rfl rfl rfl rfl (t1_subset_refl _) view target admitted copied inv.reads
  | planned put victim entry version loc engine here core =>
      have subset : T1Subset engine.index s.engine.index := core.index ▸ t1_subset_refl _
      exact inv.bare rfl core.memory rfl core.t1Allocator subset rfl rfl rfl rfl inv.reads
  | demoted put victim entry loc =>
      have subset : T1Subset (s.engine.index.upsert victim _) s.engine.index :=
        t1_subset_upsert s.engine.index (Engine.demoted_not_t1 entry loc)
      exact inv.bare rfl rfl rfl rfl subset rfl rfl rfl rfl inv.reads
  | dropped put victim entry =>
      have subset := t1_subset_erase s.engine.index victim
      exact inv.bare rfl rfl rfl rfl subset rfl rfl rfl rfl inv.reads
  | freed pc next hold here had hasNone call settled view copied target admitted =>
      refine inv.moved rfl rfl rfl ?_ ?_ (viewed_subset (t1_subset_refl _)) ?_ ?_ ?_ ?_ inv.reads
      · intro a isAllocator
        change s.engine.t1Allocator.map _ = some a at isAllocator
        rw [Option.map_eq_some_iff] at isAllocator
        rcases isAllocator with ⟨old, isOld, rfl⟩
        exact (free_by_ptr_slots (inv.slots old isOld) hold.ptr).1
      · rintro q length ⟨a, size, isAllocator, isSlot, fits⟩
        have slots := (free_by_ptr_slots (inv.slots a isAllocator) hold.ptr).2
        refine ⟨a.freeByPtr hold.ptr, size, ?_, (slots q size).2 isSlot, fits⟩
        change s.engine.t1Allocator.map _ = some _
        rw [isAllocator]
        rfl
      · intro seen carried
        rw [view] at carried
        cases carried
      · intro ptr blob carried
        rw [target] at carried
        cases carried
      · intro blob carried
        rw [admitted] at carried
        cases carried
      · intro pair carried
        rw [copied] at carried
        cases carried
  | looked key bufLen entry here found inT1 =>
      refine inv.shrunk rfl rfl rfl rfl (t1_subset_refl _) ?_ ?_ ?_ ?_ inv.reads
      · rintro _ ⟨⟩
        exact .entry key entry found inT1
      · rintro _ ⟨⟩
      · rintro _ ⟨⟩
      · rintro _ ⟨⟩
  | read key entry here =>
      have viewed : Viewed s ⟨key, entry.address.toNat, entry.length.toNat⟩ :=
        .thread t _ (by rw [here]; rfl)
      refine inv.shrunk rfl rfl rfl rfl (t1_subset_refl _) ?_ ?_ ?_ ?_ inv.reads
      · rintro _ ⟨⟩
      · rintro _ ⟨⟩
      · rintro _ ⟨⟩
      · rintro _ ⟨⟩
        exact (inv.filled _ viewed).bytes
  | touched key fromT1 reply io here =>
      have subset := t1_subset_touch s.engine.index key io.now
      have reads : ∀ pair ∈ (s.stepGetTouch t key fromT1 reply io).history.t1Reads,
          pair ∈ s.history.stored := by
        intro pair member
        cases fromT1 with
        | false => exact inv.reads pair member
        | true =>
            rcases List.mem_cons.1 member with rfl | old
            · exact inv.copies t _ (by rw [here]; rfl)
            · exact inv.reads pair old
      have stored : (s.stepGetTouch t key fromT1 reply io).history.stored = s.history.stored := by
        cases fromT1 <;> rfl
      exact inv.bare rfl rfl stored rfl subset rfl rfl rfl rfl reads
  | erased del here =>
      have subset := t1_subset_erase s.engine.index del.key
      exact inv.bare rfl rfl rfl rfl subset rfl rfl rfl rfl inv.reads

theorem engine_reuse {label : EngineLabel} (inv : ReuseInv s) (allowed : copyGuard s label)
    (cases : EngineCases s label after) : ReuseInv after := by
  cases cases with
  | began label t pc puts mover here calm =>
      rw [← here] at calm
      exact (inv.calm (.refl _) calm).recorded _ rfl rfl
  | stepped t io cases => exact step_reuse inv allowed cases
  | flushed step engine core =>
      rw [← move_nowhere s 0 engine]
      exact inv.calm core (.refl _)

end Steps

section Runs

variable {s : EngineSystem}

theorem engine_start_reuse (initial : engineMachine.start s) : ReuseInv s := by
  rcases initial with ⟨config, io, opening, backed, fresh⟩
  have opened := Engine.open_engine_opened opening
  have idle : ∀ t, s.threads t = .idle := by
    intro t
    rw [fresh]
  have none : ∀ view, ¬Viewed s view := by
    intro view viewed
    cases viewed with
    | entry key entry found inT1 =>
        rw [opened.index] at found
        exact Engine.loaded_index_not_t1 found inT1
    | thread t view carried =>
        rw [idle t] at carried
        cases carried
  refine
    { slots := ?_
      filled := fun view viewed => absurd viewed (none view)
      targets := ?_
      short := ?_
      copies := ?_
      reads := ?_ }
  · intro a isAllocator
    have made := opened.t1 a isAllocator
    exact ⟨init_classes_layout made (backed a isAllocator), (init_classes_free made).inRange⟩
  · intro t ptr blob carried
    rw [idle t] at carried
    cases carried
  · intro t blob carried
    rw [idle t] at carried
    cases carried
  · intro t pair carried
    rw [idle t] at carried
    cases carried
  · intro pair member
    rw [fresh] at member
    cases member

/-- In every run in which no put copies into a slot that is still referred to,
a get returns from T1 what some put stored under its key. -/
theorem t1_reads_own_bytes (reached : ReachWithin engineMachine copyGuard s) : ReadsOwnBytes s := by
  have inv : ReuseInv s := by
    apply reached.invariant ReuseInv
    · intro start initial
      exact engine_start_reuse initial
    · intro before label after inv allowed moved
      exact engine_reuse inv allowed (engine_cases moved)
  exact inv.reads

end Runs

/-! ## Runs on the cache of four slots -/

def slabThreads : EngineSystem := { engine := slabEngine }

theorem slab_threads_started : engineMachine.start slabThreads := by
  refine ⟨slabConfig, slabOpenIo, rfl, ?_, rfl⟩
  rintro a ⟨⟩
  exact single_class_backed _ (by decide) (by decide)

def otherKey : StorageKey := { probeKey with chunkIndex := probeKey.chunkIndex + 1 }

def systemPrompt : PutOpts := { entryType := .kSystemPrompt }

def putSteps (key : StorageKey) (blob : List UInt8) : List EngineLabel :=
  .put 0 key blob systemPrompt 0 0 :: List.replicate 6 (.step 0 {})

def copyCheck (s : EngineSystem) (label : EngineLabel) : Bool :=
  label.thread == some 0 &&
    match s.threads 0 with
    | .copy _ ptr =>
        s.engine.index.snapshot.all fun pair =>
          pair.2.tier != kT1Dram || pair.2.address.toNat != ptr
    | _ => true

theorem copy_check_sound {s : EngineSystem} {label : EngineLabel} (sole : SoleThread s)
    (checked : copyCheck s label = true) : copyGuard s label := by
  simp only [copyCheck, Bool.and_eq_true, beq_iff_eq] at checked
  rcases checked with ⟨first, unused⟩
  cases label with
  | put | get | del | flush => trivial
  | step t io =>
      cases first
      intro put ptr here view viewed same
      rw [here] at unused
      cases viewed with
      | entry key entry found inT1 =>
          have listed := List.all_eq_true.1 unused (key, entry)
            ((ConcurrentHashMap.mem_snapshot _ _ _).2 found)
          simp only [inT1, bne_self_eq_false, Bool.false_or, bne_iff_ne] at listed
          exact absurd same listed
      | thread other view carried =>
          by_cases first : other = 0
          · subst first
            rw [here] at carried
            cases carried
          · rw [sole other first] at carried
            cases carried

theorem t1_reads_own_bytes_after_put :
    (last engineMachine slabThreads
        (putSteps probeKey [7] ++ .get 0 probeKey 64 :: List.replicate 4 (.step 0 {}))).history.t1Reads =
      [(probeKey, [7])] ∧
    ReadsOwnBytes (last engineMachine slabThreads
        (putSteps probeKey [7] ++ .get 0 probeKey 64 :: List.replicate 4 (.step 0 {}))) := by
  have reached : ReachWithin engineMachine copyGuard (last engineMachine slabThreads
      (putSteps probeKey [7] ++ .get 0 probeKey 64 :: List.replicate 4 (.step 0 {}))) := by
    apply ReachWithin.to_last SoleThread copyCheck
    · intro state label sole checked
      exact copy_check_sound sole checked
    · intro state label after sole checked moved
      simp only [copyCheck, Bool.and_eq_true, beq_iff_eq] at checked
      exact sole_thread_kept sole checked.1 moved
    · exact .start slab_threads_started
    · intro t _
      rfl
    · decide +kernel
  exact ⟨by decide +kernel, t1_reads_own_bytes reached⟩

/-- Thread 1 looks the key up, thread 0 deletes it, and thread 2 puts another
key into the same slot before thread 1 copies it. -/
def reuseSteps : List EngineLabel :=
  putSteps probeKey [7] ++ [.get 1 probeKey 64, .step 1 {}] ++
    .del 0 probeKey :: List.replicate 5 (.step 0 {}) ++
    .put 2 otherKey [9] systemPrompt 0 0 :: List.replicate 3 (.step 2 {}) ++
    List.replicate 3 (.step 1 {})

theorem get_reads_reused_slot :
    Reach engineMachine (last engineMachine slabThreads reuseSteps) ∧
      ¬ReadsOwnBytes (last engineMachine slabThreads reuseSteps) := by
  constructor
  · exact Reach.to_last (.start slab_threads_started) reuseSteps (by decide +kernel)
  · intro own
    have read : (probeKey, [9]) ∈ (last engineMachine slabThreads reuseSteps).history.t1Reads := by
      decide +kernel
    exact absurd (own _ read) (by decide +kernel)

end AttentionDB
