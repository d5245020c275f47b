import AttentionDB.Engine.SlotReuse

/-!
# Slots that are freed once

A slot is freed by whoever read the entry, and the entry goes away in another
step. Two conditions keep the free lists sound: a thread that looks a key up in
order to free its slot is alone with that slot, and a delete does not free a
slot while the index still has the entry. The first one alone already keeps
every slot from being freed twice; what it leaves is the entry of a delete that
has freed the slot and not yet erased the entry.
-/

namespace AttentionDB

open GuardedRuns SlabAllocator

set_option autoImplicit false

/-- Every slot is free at most once, in use by at most one thread, and handed
out at most once; the count of the used bytes does not wrap. -/
structure FreedOnce (s : EngineSystem) : Prop where
  frees : ∀ a, s.engine.t1Allocator = some a → FreeOk a
  lengths : ∀ a, s.engine.t1Allocator = some a → ∀ (i : Nat) (sc : SizeClass),
    a.classes[i]? = some sc → sc.freeList.length ≤ sc.numSlots
  used : ∀ a, s.engine.t1Allocator = some a → a.usedBytes = a.usedTotal
  handedOut : ∀ a, s.engine.t1Allocator = some a → ∀ size later handle laterHandle ptr laterPtr b c,
    a.allocate size = some (handle, ptr, b) → b.allocate later = some (laterHandle, laterPtr, c) →
    ptr ≠ laterPtr
  inHand : ∀ t u hold other, (s.threads t).hold = some hold → (s.threads u).hold = some other →
    t ≠ u → hold.ptr ≠ other.ptr

/-- No T1 entry points to a free slot. -/
def NoneFree (s : EngineSystem) : Prop :=
  ∀ a key entry, s.engine.t1Allocator = some a → s.engine.index.find key = some entry →
    entry.tier = kT1Dram → ¬IsFree a entry.address.toNat

/-- A delete of the key is between its find and its erase, and has freed what
there was to free. -/
def Erasing (s : EngineSystem) (key : StorageKey) : Prop :=
  ∃ t del, s.threads t = .delErase del ∧ del.key = key

/-- A thread that finds a T1 entry in order to free its slot is the only one
that has the slot in hand. -/
def seekGuard (s : EngineSystem) : EngineLabel → Prop
  | .step t _ => ∀ key entry, (s.threads t).seeks = some key → s.engine.index.find key = some entry →
      entry.tier = kT1Dram → ∀ u hold, (s.threads u).hold = some hold → hold.ptr ≠ entry.address.toNat
  | _ => True

/-- No delete of that key is about to erase the entry either. -/
def eraseGuard (s : EngineSystem) (label : EngineLabel) : Prop :=
  seekGuard s label ∧ match label with
    | .step t _ => ∀ key entry, (s.threads t).seeks = some key → s.engine.index.find key = some entry →
        entry.tier = kT1Dram → ¬Erasing s key
    | _ => True

/-- A delete frees a slot only when the index no longer has the entry. -/
def releaseGuard (s : EngineSystem) (label : EngineLabel) : Prop :=
  seekGuard s label ∧ match label with
    | .step t _ => ∀ del entry, s.threads t = .delFree del entry → ∀ left,
        s.engine.index.find del.key = some left → left.tier = kT1Dram → left.address ≠ entry.address
    | _ => True

/-! ## The invariant -/

def Taken (e : Engine) (ptr : Nat) : Prop :=
  ∃ a slotSize, e.t1Allocator = some a ∧ IsSlot a ptr slotSize ∧ ¬IsFree a ptr

/-- The keys in `stale` are those whose entries nothing is known about. -/
structure ReleaseInv (stale : EngineSystem → StorageKey → Prop) (s : EngineSystem) : Prop where
  layout : ∀ a, s.engine.t1Allocator = some a → LayoutOk a
  frees : ∀ a, s.engine.t1Allocator = some a → FreeOk a
  held : ∀ t hold, (s.threads t).hold = some hold → Taken s.engine hold.ptr
  apart : ∀ t u hold other, (s.threads t).hold = some hold → (s.threads u).hold = some other →
    t ≠ u → hold.ptr ≠ other.ptr
  taken : ∀ key entry, s.engine.index.find key = some entry → entry.tier = kT1Dram → ¬stale s key →
    Taken s.engine entry.address.toNat
  owner : ∀ key entry, s.engine.index.find key = some entry → entry.tier = kT1Dram → ¬stale s key →
    ∀ t hold, (s.threads t).hold = some hold → hold.ptr = entry.address.toNat → hold.owner = some key
  unshared : ∀ key other entry otherEntry, s.engine.index.find key = some entry →
    s.engine.index.find other = some otherEntry → entry.tier = kT1Dram → otherEntry.tier = kT1Dram →
    ¬stale s key → ¬stale s other → entry.address = otherEntry.address → key = other

section Steps

variable {stale : EngineSystem → StorageKey → Prop} {s after : EngineSystem} {t : Nat}
  {pc : ThreadPc}

def KnownBefore (stale : EngineSystem → StorageKey → Prop) (s after : EngineSystem) : Prop :=
  ∀ key entry, after.engine.index.find key = some entry → ¬stale after key → ¬stale s key

/-- The slots stay, the T1 part of the index shrinks, and what the threads hold
they held before; where the owner changed, the entry is gone. -/
theorem ReleaseInv.same_slots (inv : ReleaseInv stale s)
    (holds : ∀ u hold, (after.threads u).hold = some hold →
      ∃ old, (s.threads u).hold = some old ∧ old.ptr = hold.ptr ∧ ∀ key entry, old.owner = some key →
        after.engine.index.find key = some entry → entry.tier = kT1Dram → hold.owner = some key)
    (t1Allocator : after.engine.t1Allocator = s.engine.t1Allocator)
    (subset : T1Subset after.engine.index s.engine.index) (known : KnownBefore stale s after) :
    ReleaseInv stale after := by
  have taken : ∀ ptr, Taken s.engine ptr → Taken after.engine ptr := by
    rintro ptr ⟨a, slotSize, isAllocator, isSlot, notFree⟩
    exact ⟨a, slotSize, t1Allocator.trans isAllocator, isSlot, notFree⟩
  refine
    { layout := by rw [t1Allocator]; exact inv.layout
      frees := by rw [t1Allocator]; exact inv.frees
      held := ?_
      apart := ?_
      taken := ?_
      owner := ?_
      unshared := ?_ }
  · intro u hold carried
    rcases holds u hold carried with ⟨old, was, ptr, _⟩
    rw [← ptr]
    exact taken _ (inv.held u old was)
  · intro u v hold other carried otherCarried different
    rcases holds u hold carried with ⟨old, was, ptr, _⟩
    rcases holds v other otherCarried with ⟨otherOld, otherWas, otherPtr, _⟩
    rw [← ptr, ← otherPtr]
    exact inv.apart u v old otherOld was otherWas different
  · intro key entry found inT1 fresh
    rcases subset key entry found inT1 with ⟨old, was, wasT1, address, _⟩
    rw [← address]
    exact taken _ (inv.taken key old was wasT1 (known key entry found fresh))
  · intro key entry found inT1 fresh u hold carried same
    rcases subset key entry found inT1 with ⟨old, was, wasT1, address, _⟩
    rcases holds u hold carried with ⟨oldHold, hadHold, ptr, owner⟩
    rw [← ptr, ← address] at same
    exact owner key entry
      (inv.owner key old was wasT1 (known key entry found fresh) u oldHold hadHold same) found inT1
  · intro key other entry otherEntry found otherFound inT1 otherT1 fresh otherFresh same
    rcases subset key entry found inT1 with ⟨old, was, wasT1, address, _⟩
    rcases subset other otherEntry otherFound otherT1 with ⟨otherOld, otherWas, wasOtherT1, otherAddress, _⟩
    exact inv.unshared key other old otherOld was otherWas wasT1 wasOtherT1
      (known key entry found fresh) (known other otherEntry otherFound otherFresh)
      (address.trans (same.trans otherAddress.symm))

/-- The thread goes on with what it had in hand. -/
theorem ReleaseInv.same_hold (inv : ReleaseInv stale s)
    (threads : after.threads = Function.update s.threads t pc) (hold : pc.hold = (s.threads t).hold)
    (t1Allocator : after.engine.t1Allocator = s.engine.t1Allocator)
    (subset : T1Subset after.engine.index s.engine.index) (known : KnownBefore stale s after) :
    ReleaseInv stale after := by
  apply inv.same_slots _ t1Allocator subset known
  intro u held carried
  rw [threads] at carried
  rcases carried_update ThreadPc.hold carried with ⟨rfl, own⟩ | ⟨_, foreign⟩
  · exact ⟨held, hold ▸ own, rfl, fun _ _ owner _ _ => owner⟩
  · exact ⟨held, foreign, rfl, fun _ _ owner _ _ => owner⟩

/-- The thread took the entry of its slot out of the T1 part of the index. -/
theorem ReleaseInv.let_go (inv : ReleaseInv stale s)
    (threads : after.threads = Function.update s.threads t pc) {ptr : Nat} {key : StorageKey}
    (had : (s.threads t).hold = some ⟨ptr, some key⟩) (has : pc.hold = some ⟨ptr, none⟩)
    (t1Allocator : after.engine.t1Allocator = s.engine.t1Allocator)
    (subset : T1Subset after.engine.index s.engine.index)
    (gone : ∀ left, after.engine.index.find key = some left → left.tier ≠ kT1Dram)
    (known : KnownBefore stale s after) : ReleaseInv stale after := by
  apply inv.same_slots _ t1Allocator subset known
  intro u held carried
  rw [threads] at carried
  rcases carried_update ThreadPc.hold carried with ⟨rfl, own⟩ | ⟨_, foreign⟩
  · rw [has] at own
    cases own
    refine ⟨_, had, rfl, ?_⟩
    intro other entry owner found inT1
    cases owner
    exact absurd inT1 (gone entry found)
  · exact ⟨held, foreign, rfl, fun _ _ owner _ _ => owner⟩

/-- With the index as it was no two keys come to share a slot. -/
theorem ReleaseInv.still_unshared (inv : ReleaseInv stale s)
    (index : after.engine.index = s.engine.index) (known : KnownBefore stale s after)
    (key other : StorageKey) (entry otherEntry : IndexEntry)
    (found : after.engine.index.find key = some entry)
    (otherFound : after.engine.index.find other = some otherEntry) (inT1 : entry.tier = kT1Dram)
    (otherT1 : otherEntry.tier = kT1Dram) (fresh : ¬stale after key) (otherFresh : ¬stale after other)
    (same : entry.address = otherEntry.address) : key = other := by
  have before := known key entry found fresh
  have otherBefore := known other otherEntry otherFound otherFresh
  rw [index] at found otherFound
  exact inv.unshared key other entry otherEntry found otherFound inT1 otherT1 before otherBefore same

/-- A put gets a slot that was free. -/
theorem ReleaseInv.allocated (inv : ReleaseInv stale s)
    (threads : after.threads = Function.update s.threads t pc) {a allocator : SlabAllocator}
    {handle : SlabHandle} {size ptr : Nat} (isAllocator : s.engine.t1Allocator = some a)
    (allocated : a.allocate size = some (handle, ptr, allocator)) (has : pc.hold = some ⟨ptr, none⟩)
    (t1Allocator : after.engine.t1Allocator = some allocator)
    (index : after.engine.index = s.engine.index) (known : KnownBefore stale s after) :
    ReleaseInv stale after := by
  have spec := allocate_spec (inv.layout a isAllocator) (inv.frees a isAllocator) allocated
  have taken : ∀ q, Taken s.engine q → Taken after.engine q ∧ q ≠ ptr := by
    rintro q ⟨_, slotSize, isSame, isSlot, notFree⟩
    rw [isAllocator] at isSame
    cases isSame
    refine ⟨⟨allocator, slotSize, t1Allocator, (spec.sameSlots _ _).2 isSlot, ?_⟩, ?_⟩
    · intro free
      exact notFree ((spec.freeIff q).1 free).1
    · rintro rfl
      exact notFree spec.wasFree
  have own : Taken after.engine ptr := by
    rcases spec.slot with ⟨slotSize, isSlot, _⟩
    refine ⟨allocator, slotSize, t1Allocator, (spec.sameSlots _ _).2 isSlot, ?_⟩
    intro free
    exact ((spec.freeIff ptr).1 free).2 rfl
  refine
    { layout := ?_
      frees := ?_
      held := ?_
      apart := ?_
      taken := ?_
      owner := ?_
      unshared := inv.still_unshared index known }
  · intro b isNew
    rw [t1Allocator] at isNew
    cases isNew
    exact spec.layout
  · intro b isNew
    rw [t1Allocator] at isNew
    cases isNew
    exact spec.frees
  · intro u hold carried
    rw [threads] at carried
    rcases carried_update ThreadPc.hold carried with ⟨_, carried⟩ | ⟨_, carried⟩
    · rw [has] at carried
      cases carried
      exact own
    · exact (taken _ (inv.held u hold carried)).1
  · intro u v hold other carried otherCarried different
    rw [threads] at carried otherCarried
    rcases carried_update ThreadPc.hold carried with ⟨isFirst, carried⟩ | ⟨_, carried⟩
    · rw [has] at carried
      cases carried
      rcases carried_update ThreadPc.hold otherCarried with ⟨isSecond, _⟩ | ⟨_, otherCarried⟩
      · exact absurd (isFirst.trans isSecond.symm) different
      · exact (taken _ (inv.held v other otherCarried)).2.symm
    · rcases carried_update ThreadPc.hold otherCarried with ⟨_, otherCarried⟩ | ⟨_, otherCarried⟩
      · rw [has] at otherCarried
        cases otherCarried
        exact (taken _ (inv.held u hold carried)).2
      · exact inv.apart u v hold other carried otherCarried different
  · intro key entry found inT1 fresh
    have before := known key entry found fresh
    rw [index] at found
    exact (taken _ (inv.taken key entry found inT1 before)).1
  · intro key entry found inT1 fresh u hold carried same
    have before := known key entry found fresh
    rw [index] at found
    rw [threads] at carried
    rcases carried_update ThreadPc.hold carried with ⟨_, carried⟩ | ⟨_, carried⟩
    · rw [has] at carried
      cases carried
      exact absurd same.symm (taken _ (inv.taken key entry found inT1 before)).2
    · exact inv.owner key entry found inT1 before u hold carried same

/-- A put publishes the slot that it had in hand. -/
theorem ReleaseInv.published (inv : ReleaseInv stale s)
    (threads : after.threads = Function.update s.threads t pc) {ptr : Nat}
    (had : (s.threads t).hold = some ⟨ptr, none⟩) (has : pc.hold = none)
    (t1Allocator : after.engine.t1Allocator = s.engine.t1Allocator) {key : StorageKey}
    {entry : IndexEntry} (address : entry.address = UInt64.ofNat ptr)
    (index : after.engine.index = s.engine.index.upsert key entry)
    (known : KnownBefore stale s after) : ReleaseInv stale after := by
  have slot : entry.address.toNat = ptr := by
    rcases inv.held t _ had with ⟨a, slotSize, isAllocator, isSlot, _⟩
    rw [address]
    exact Engine.slot_address_to_nat (inv.layout a isAllocator) isSlot
  have taken : ∀ q, Taken s.engine q → Taken after.engine q := by
    rintro q ⟨a, slotSize, isAllocator, isSlot, notFree⟩
    exact ⟨a, slotSize, t1Allocator.trans isAllocator, isSlot, notFree⟩
  -- an entry that somebody knows about has another slot: nobody owns this one yet
  have elsewhere : ∀ other old, s.engine.index.find other = some old → old.tier = kT1Dram →
      ¬stale s other → old.address.toNat ≠ ptr := by
    intro other old found inT1 fresh same
    have owner := inv.owner other old found inT1 fresh t _ had same.symm
    cases owner
  have holds : ∀ u hold, (after.threads u).hold = some hold → u ≠ t ∧ (s.threads u).hold = some hold := by
    intro u hold carried
    rw [threads] at carried
    exact carried_elsewhere has carried
  have look : ∀ other found, after.engine.index.find other = some found →
      other = key ∧ found = entry ∨ s.engine.index.find other = some found := by
    intro other found isFound
    rw [index, ConcurrentHashMap.find_upsert] at isFound
    split at isFound
    · rename_i same
      cases isFound
      exact .inl ⟨same, rfl⟩
    · exact .inr isFound
  refine
    { layout := by rw [t1Allocator]; exact inv.layout
      frees := by rw [t1Allocator]; exact inv.frees
      held := ?_
      apart := ?_
      taken := ?_
      owner := ?_
      unshared := ?_ }
  · intro u hold carried
    exact taken _ (inv.held u hold (holds u hold carried).2)
  · intro u v hold other carried otherCarried different
    exact inv.apart u v hold other (holds u hold carried).2 (holds v other otherCarried).2 different
  · intro other found isFound inT1 fresh
    rcases look other found isFound with ⟨_, rfl⟩ | before
    · rw [slot]
      exact taken _ (inv.held t _ had)
    · exact taken _ (inv.taken other found before inT1 (known other found isFound fresh))
  · intro other found isFound inT1 fresh u hold carried same
    rcases holds u hold carried with ⟨different, carried⟩
    rcases look other found isFound with ⟨_, rfl⟩ | before
    · rw [slot] at same
      exact absurd same (inv.apart u t hold _ carried had different)
    · exact inv.owner other found before inT1 (known other found isFound fresh) u hold carried same
  · intro first second firstEntry secondEntry foundFirst foundSecond firstT1 secondT1 freshFirst freshSecond
      same
    have knownFirst := known first firstEntry foundFirst freshFirst
    have knownSecond := known second secondEntry foundSecond freshSecond
    rcases look first firstEntry foundFirst with ⟨isFirst, rfl⟩ | beforeFirst
    · rcases look second secondEntry foundSecond with ⟨isSecond, _⟩ | beforeSecond
      · exact isFirst.trans isSecond.symm
      · have other := elsewhere second secondEntry beforeSecond secondT1 knownSecond
        rw [← same] at other
        exact absurd slot other
    · rcases look second secondEntry foundSecond with ⟨_, rfl⟩ | beforeSecond
      · have other := elsewhere first firstEntry beforeFirst firstT1 knownFirst
        rw [same] at other
        exact absurd slot other
      · exact inv.unshared first second firstEntry secondEntry beforeFirst beforeSecond firstT1 secondT1
          knownFirst knownSecond same

/-- A thread finds an entry whose slot nobody has in hand. -/
theorem ReleaseInv.reserved (inv : ReleaseInv stale s)
    (threads : after.threads = Function.update s.threads t pc) {key : StorageKey} {entry : IndexEntry}
    (found : s.engine.index.find key = some entry) (inT1 : entry.tier = kT1Dram)
    (has : pc.hold = some ⟨entry.address.toNat, some key⟩) (fresh : ¬stale s key)
    (alone : ∀ u hold, (s.threads u).hold = some hold → hold.ptr ≠ entry.address.toNat)
    (engine : after.engine = s.engine) (known : KnownBefore stale s after) :
    ReleaseInv stale after := by
  have holds : ∀ u hold, (after.threads u).hold = some hold →
      (u = t ∧ hold = ⟨entry.address.toNat, some key⟩) ∨ (u ≠ t ∧ (s.threads u).hold = some hold) := by
    intro u hold carried
    rw [threads] at carried
    rcases carried_update ThreadPc.hold carried with ⟨isThread, carried⟩ | foreign
    · rw [has] at carried
      cases carried
      exact .inl ⟨isThread, rfl⟩
    · exact .inr foreign
  refine
    { layout := by rw [engine]; exact inv.layout
      frees := by rw [engine]; exact inv.frees
      held := ?_
      apart := ?_
      taken := ?_
      owner := ?_
      unshared := inv.still_unshared (by rw [engine]) known }
  · intro u hold carried
    rw [engine]
    rcases holds u hold carried with ⟨_, rfl⟩ | ⟨_, carried⟩
    · exact inv.taken key entry found inT1 fresh
    · exact inv.held u hold carried
  · intro u v hold other carried otherCarried different
    rcases holds u hold carried with ⟨isFirst, rfl⟩ | ⟨_, carried⟩
    · rcases holds v other otherCarried with ⟨isSecond, _⟩ | ⟨_, otherCarried⟩
      · exact absurd (isFirst.trans isSecond.symm) different
      · exact (alone v other otherCarried).symm
    · rcases holds v other otherCarried with ⟨_, rfl⟩ | ⟨_, otherCarried⟩
      · exact alone u hold carried
      · exact inv.apart u v hold other carried otherCarried different
  · intro other left isFound leftT1 otherFresh
    have before := known other left isFound otherFresh
    rw [engine] at isFound ⊢
    exact inv.taken other left isFound leftT1 before
  · intro other left isFound leftT1 otherFresh u hold carried same
    have before := known other left isFound otherFresh
    rw [engine] at isFound
    rcases holds u hold carried with ⟨_, rfl⟩ | ⟨_, carried⟩
    · have isKey := inv.unshared key other entry left found isFound inT1 leftT1 fresh before
        (UInt64.toNat_inj.1 same)
      rw [isKey]
    · exact inv.owner other left isFound leftT1 before u hold carried same

/-- A thread frees the slot that it had in hand. An entry with that slot is
that of the thread's own key, and nothing is known about it any more. -/
theorem ReleaseInv.freed (inv : ReleaseInv stale s)
    (threads : after.threads = Function.update s.threads t pc) {hold : Hold}
    (had : (s.threads t).hold = some hold) (has : pc.hold = none)
    (t1Allocator : after.engine.t1Allocator = s.engine.t1Allocator.map (·.freeByPtr hold.ptr))
    (index : after.engine.index = s.engine.index)
    (left : ∀ key entry, hold.owner = some key → s.engine.index.find key = some entry →
      entry.tier = kT1Dram → entry.address.toNat = hold.ptr → stale after key)
    (known : KnownBefore stale s after) : ReleaseInv stale after := by
  rcases inv.held t hold had with ⟨a, slotSize, isAllocator, isSlot, notFree⟩
  have released := free_by_ptr_spec (inv.layout a isAllocator) (inv.frees a isAllocator) isSlot notFree
  rw [isAllocator, Option.map_some] at t1Allocator
  have taken : ∀ q, Taken s.engine q → q ≠ hold.ptr → Taken after.engine q := by
    rintro q ⟨_, size, isSame, isSlot, stillTaken⟩ different
    rw [isAllocator] at isSame
    cases isSame
    refine ⟨_, size, t1Allocator, (released.sameSlots _ _).2 isSlot, ?_⟩
    intro free
    rcases (released.freeIff q).1 free with before | same
    · exact stillTaken before
    · exact different same
  have holds : ∀ u other, (after.threads u).hold = some other → u ≠ t ∧ (s.threads u).hold = some other := by
    intro u other carried
    rw [threads] at carried
    exact carried_elsewhere has carried
  refine
    { layout := ?_
      frees := ?_
      held := ?_
      apart := ?_
      taken := ?_
      owner := ?_
      unshared := inv.still_unshared index known }
  · intro b isNew
    rw [t1Allocator] at isNew
    cases isNew
    exact released.layout
  · intro b isNew
    rw [t1Allocator] at isNew
    cases isNew
    exact released.frees
  · intro u other carried
    rcases holds u other carried with ⟨different, carried⟩
    exact taken _ (inv.held u other carried) (inv.apart u t other hold carried had different)
  · intro u v first second carriedFirst carriedSecond different
    exact inv.apart u v first second (holds u first carriedFirst).2 (holds v second carriedSecond).2 different
  · intro key entry found inT1 fresh
    have before := known key entry found fresh
    rw [index] at found
    apply taken _ (inv.taken key entry found inT1 before)
    intro same
    have owner := inv.owner key entry found inT1 before t hold had same.symm
    exact fresh (left key entry owner found inT1 same)
  · intro key entry found inT1 fresh u other carried same
    have before := known key entry found fresh
    rw [index] at found
    exact inv.owner key entry found inT1 before u other (holds u other carried).2 same

/-! ## Every step -/

theorem step_release (inv : ReleaseInv stale s) (known : KnownBefore stale s after)
    (alone : ∀ key entry, (s.threads t).seeks = some key → s.engine.index.find key = some entry →
      entry.tier = kT1Dram → ¬stale s key ∧
        ∀ u hold, (s.threads u).hold = some hold → hold.ptr ≠ entry.address.toNat)
    (left : ∀ del entry, s.threads t = .delFree del entry → ∀ found,
      s.engine.index.find del.key = some found → found.tier = kT1Dram →
      found.address = entry.address → stale after del.key)
    (cases : StepCases s t after) : ReleaseInv stale after := by
  cases cases with
  | quiet pc next engine here core calm =>
      have subset : T1Subset engine.index s.engine.index := core.index ▸ t1_subset_refl _
      exact inv.same_hold rfl (by rw [here]; exact calm.hold) core.t1Allocator subset known
  | admitted put engine here core =>
      have subset : T1Subset engine.index s.engine.index := core.index ▸ t1_subset_refl _
      exact inv.same_hold rfl (by rw [here]; rfl) core.t1Allocator subset known
  | finished pc engine update isPut status here core call hold =>
      have subset : T1Subset engine.index s.engine.index := core.index ▸ t1_subset_refl _
      exact inv.same_hold rfl (by rw [here, hold]; rfl) core.t1Allocator subset known
  | allocated put a allocator handle ptr here isAllocator allocated =>
      exact inv.allocated rfl isAllocator allocated rfl rfl rfl known
  | copied put ptr here =>
      exact inv.same_hold rfl (by rw [here]; rfl) rfl (t1_subset_refl _) known
  | publishedT1 put ptr here => exact inv.published rfl (by rw [here]; rfl) rfl rfl rfl rfl known
  | publishedT2 put loc here =>
      have notInT1 : (Engine.t2Entry put.blob put.opts put.times loc).tier ≠ kT1Dram := by
        intro same
        cases same
      have subset : T1Subset (s.engine.index.upsert put.update.key _) s.engine.index :=
        t1_subset_upsert s.engine.index notInT1
      exact inv.same_hold rfl (by rw [here]; rfl) rfl subset known
  | reserved pc next key entry here seeks found inT1 hold =>
      rw [← here] at seeks
      rcases alone key entry seeks found inT1 with ⟨fresh, unused⟩
      exact inv.reserved rfl found inT1 hold fresh unused rfl known
  | planned put victim entry version loc engine here core =>
      have subset : T1Subset engine.index s.engine.index := core.index ▸ t1_subset_refl _
      exact inv.same_hold rfl (by rw [here]; rfl) core.t1Allocator subset known
  | demoted put victim entry loc version origin here =>
      have notInT1 := Engine.demoted_not_t1 entry loc
      have subset : T1Subset (s.engine.index.upsert victim _) s.engine.index :=
        t1_subset_upsert s.engine.index notInT1
      exact inv.let_go rfl (by rw [here]; rfl) rfl rfl subset (Engine.upserted_gone notInT1) known
  | dropped put victim entry here =>
      exact inv.let_go rfl (by rw [here]; rfl) rfl rfl (t1_subset_erase _ victim) Engine.erased_gone known
  | freed pc next hold here had hasNone call settled view copied target admitted source plan frees =>
      rw [← here] at had
      refine inv.freed rfl had hasNone rfl rfl ?_ known
      intro key entry owner found inT1 address
      rcases frees with ⟨put, isEvict⟩ | ⟨del, freed, isDel, rfl⟩
      · rw [here, isEvict] at had
        injection had with same
        rw [← same] at owner
        cases owner
      · cases owner
        exact left del freed (here.trans isDel) entry found inT1 (UInt64.toNat_inj.1 address)
  | looked key bufLen entry here =>
      exact inv.same_hold rfl (by rw [here]; rfl) rfl (t1_subset_refl _) known
  | read key entry here =>
      exact inv.same_hold rfl (by rw [here]; rfl) rfl (t1_subset_refl _) known
  | touched key fromT1 reply io here =>
      exact inv.same_hold rfl (by rw [here]; cases fromT1 <;> rfl) rfl (t1_subset_touch _ key io.now) known
  | erased del here =>
      exact inv.same_hold rfl (by rw [here]; rfl) rfl (t1_subset_erase _ del.key) known

theorem engine_release {label : EngineLabel} (inv : ReleaseInv stale s)
    (known : KnownBefore stale s after)
    (alone : ∀ t io, label = .step t io → ∀ key entry, (s.threads t).seeks = some key →
      s.engine.index.find key = some entry → entry.tier = kT1Dram → ¬stale s key ∧
        ∀ u hold, (s.threads u).hold = some hold → hold.ptr ≠ entry.address.toNat)
    (left : ∀ t io, label = .step t io → ∀ del entry, s.threads t = .delFree del entry → ∀ found,
      s.engine.index.find del.key = some found → found.tier = kT1Dram →
      found.address = entry.address → stale after del.key)
    (cases : EngineCases s label after) : ReleaseInv stale after := by
  cases cases with
  | began label t pc puts mover here calm =>
      exact inv.same_hold rfl (by rw [here]; exact calm.hold) rfl (t1_subset_refl _) known
  | stepped t io cases => exact step_release inv known (alone t io rfl) (left t io rfl) cases
  | flushed step engine core =>
      have subset : T1Subset engine.index s.engine.index := core.index ▸ t1_subset_refl _
      have stay : s.threads = Function.update s.threads 0 (s.threads 0) := by simp
      exact inv.same_hold stay rfl core.t1Allocator subset known

end Steps

/-! ## Runs -/

section Runs

variable {stale : EngineSystem → StorageKey → Prop} {s after : EngineSystem}

theorem ReleaseInv.freed_once (inv : ReleaseInv stale s) : FreedOnce s where
  frees := inv.frees
  lengths a isAllocator _ _ found := free_list_length_le (inv.frees a isAllocator) found
  used a isAllocator := used_bytes_exact (inv.layout a isAllocator) (inv.frees a isAllocator)
  handedOut a isAllocator size later handle laterHandle ptr laterPtr b c first second := by
    have firstSpec := allocate_spec (inv.layout a isAllocator) (inv.frees a isAllocator) first
    have secondSpec := allocate_spec firstSpec.layout firstSpec.frees second
    exact ((firstSpec.freeIff laterPtr).1 secondSpec.wasFree).2.symm
  inHand := inv.apart

theorem engine_start_release (initial : engineMachine.start s) : ReleaseInv stale s := by
  rcases initial with ⟨config, io, opening, backed, fresh⟩
  have opened := Engine.open_engine_opened opening
  have idle : ∀ t hold, (s.threads t).hold ≠ some hold := by
    intro t hold carried
    rw [fresh] at carried
    cases carried
  have none : ∀ key entry, s.engine.index.find key = some entry → entry.tier ≠ kT1Dram := by
    intro key entry found
    rw [opened.index] at found
    exact Engine.loaded_index_not_t1 found
  exact
    { layout := fun a isAllocator => init_classes_layout (opened.t1 a isAllocator) (backed a isAllocator)
      frees := fun a isAllocator => init_classes_free (opened.t1 a isAllocator)
      held := fun t hold carried => absurd carried (idle t hold)
      apart := fun t _ hold _ carried => absurd carried (idle t hold)
      taken := fun key entry found inT1 => absurd inT1 (none key entry found)
      owner := fun key entry found inT1 => absurd inT1 (none key entry found)
      unshared := fun key _ entry _ found _ inT1 => absurd inT1 (none key entry found) }

/-- A delete that is about to erase stays so until it has erased the key. -/
theorem erasing_known {label : EngineLabel} (moved : engineMachine.exec s label = some after) :
    KnownBefore Erasing s after := by
  rintro key entry found fresh ⟨u, del, here, rfl⟩
  by_cases own : label.thread = some u
  · cases engine_cases moved with
    | began _ t pc puts mover idle =>
        rw [own] at mover
        cases mover
        rw [here] at idle
        cases idle
    | stepped t io cases =>
        cases own
        simp only [engineMachine, EngineSystem.exec, here, EngineSystem.stepThread] at moved
        cases moved
        change (s.engine.index.erase del.key).find del.key = some entry at found
        rw [ConcurrentHashMap.find_erase_self] at found
        cases found
    | flushed => cases own
  · exact fresh ⟨u, del, (other_threads moved own).trans here, rfl⟩

/-- As long as every thread that seeks a slot is alone with it, no slot is freed
twice or handed out twice. A T1 entry whose slot is free is the entry of a
delete that is about to erase it. -/
theorem freed_once_while_erasing (reached : ReachWithin engineMachine eraseGuard s) :
    FreedOnce s ∧ ∀ a key entry, s.engine.t1Allocator = some a → s.engine.index.find key = some entry →
      entry.tier = kT1Dram → IsFree a entry.address.toNat → Erasing s key := by
  have inv : ReleaseInv Erasing s := by
    apply reached.invariant (ReleaseInv Erasing)
    · intro start initial
      exact engine_start_release initial
    · intro before label after inv allowed moved
      apply engine_release inv (erasing_known moved) _ _ (engine_cases moved)
      · rintro t io rfl key entry seeks found inT1
        exact ⟨allowed.2 key entry seeks found inT1, allowed.1 key entry seeks found inT1⟩
      · rintro t io rfl del entry here found _ _ _
        simp only [engineMachine, EngineSystem.exec, here, EngineSystem.stepThread] at moved
        cases moved
        exact ⟨t, del, Function.update_self _ _ _, rfl⟩
  refine ⟨inv.freed_once, ?_⟩
  intro a key entry isAllocator found inT1 free
  by_contra fresh
  rcases inv.taken key entry found inT1 fresh with ⟨_, _, isSame, _, notFree⟩
  rw [isAllocator] at isSame
  cases isSame
  exact notFree free

/-- In every run in which whoever seeks a slot is alone with it, and no delete
frees the slot of an entry that is still in the index, the free lists are sound
and no T1 entry points to a free slot. -/
theorem slots_freed_once (reached : ReachWithin engineMachine releaseGuard s) :
    FreedOnce s ∧ NoneFree s := by
  have inv : ReleaseInv (fun _ _ => False) s := by
    apply reached.invariant (ReleaseInv fun _ _ => False)
    · intro start initial
      exact engine_start_release initial
    · intro before label after inv allowed moved
      apply engine_release inv _ _ _ (engine_cases moved)
      · intro key entry _ fresh
        exact fresh
      · rintro t io rfl key entry seeks found inT1
        exact ⟨id, allowed.1 key entry seeks found inT1⟩
      · rintro t io rfl del entry here found isFound inT1 same
        exact allowed.2 del entry here found isFound inT1 same
  refine ⟨inv.freed_once, ?_⟩
  intro a key entry isAllocator found inT1
  rcases inv.taken key entry found inT1 id with ⟨_, _, isSame, _, notFree⟩
  rw [isAllocator] at isSame
  cases isSame
  exact notFree

end Runs

/-! ## A put that demotes its own entry, and a slot that is freed twice -/

def tieredThreads : EngineSystem := { engine := tieredEngine }

theorem tiered_threads_started : engineMachine.start tieredThreads := by
  refine ⟨tieredConfig, slabOpenIo, rfl, ?_, rfl⟩
  rintro a ⟨⟩
  exact single_class_backed _ (by decide) (by decide)

def releaseCheck (s : EngineSystem) (label : EngineLabel) : Bool :=
  label.thread == some 0 &&
    match s.threads 0 with
    | .delFree _ _ => false
    | _ => true

theorem release_check_sound {s : EngineSystem} {label : EngineLabel} (sole : SoleThread s)
    (checked : releaseCheck s label = true) : releaseGuard s label := by
  simp only [releaseCheck, Bool.and_eq_true, beq_iff_eq] at checked
  rcases checked with ⟨first, noDelete⟩
  cases label with
  | put | get | del | flush => exact ⟨trivial, trivial⟩
  | step t io =>
      cases first
      constructor
      · intro key entry seeks found inT1 u hold carried
        by_cases isFirst : u = 0
        · subst isFirst
          cases here : s.threads 0 with
          | evict put pc => cases pc <;> simp_all [ThreadPc.seeks, ThreadPc.hold]
          | _ => simp_all [ThreadPc.seeks, ThreadPc.hold]
        · rw [sole u isFirst] at carried
          cases carried
      · intro del entry here
        rw [here] at noDelete
        cases noDelete

theorem slots_freed_once_after_eviction :
    (last engineMachine tieredThreads
        (.put 0 probeKey [7] { entryType := .kSystemPrompt, recomputeCost := 100 } 0 0 ::
          List.replicate 13 (.step 0 {}))).engine.t1Allocator = some tieredAllocator ∧
    FreedOnce (last engineMachine tieredThreads
        (.put 0 probeKey [7] { entryType := .kSystemPrompt, recomputeCost := 100 } 0 0 ::
          List.replicate 13 (.step 0 {}))) := by
  have reached : ReachWithin engineMachine releaseGuard (last engineMachine tieredThreads
      (.put 0 probeKey [7] { entryType := .kSystemPrompt, recomputeCost := 100 } 0 0 ::
        List.replicate 13 (.step 0 {}))) := by
    apply ReachWithin.to_last SoleThread releaseCheck
    · intro state label sole checked
      exact release_check_sound sole checked
    · intro state label after sole checked moved
      simp only [releaseCheck, Bool.and_eq_true, beq_iff_eq] at checked
      exact sole_thread_kept sole checked.1 moved
    · exact .start tiered_threads_started
    · intro t _
      rfl
    · decide +kernel
  exact ⟨by decide +kernel, (slots_freed_once reached).1⟩

def twiceFreedSteps : List EngineLabel :=
  putSteps probeKey [7] ++
    [.del 0 probeKey, .del 1 probeKey, .step 0 {}, .step 1 {}, .step 0 {}, .step 1 {}]

theorem two_deletes_free_twice :
    Reach engineMachine (last engineMachine slabThreads twiceFreedSteps) ∧
      ¬FreedOnce (last engineMachine slabThreads twiceFreedSteps) ∧
      ¬NoneFree (last engineMachine slabThreads twiceFreedSteps) := by
  have allocator : (last engineMachine slabThreads twiceFreedSteps).engine.t1Allocator =
      some { classes := [{ slotSize := 64, numSlots := 4, base := 4096, freeList := [3, 3, 2, 1, 0] }]
             totalBytes := 256 } := by
    decide +kernel
  refine ⟨Reach.to_last (.start slab_threads_started) twiceFreedSteps (by decide +kernel), ?_, ?_⟩
  · intro once
    exact absurd ((once.frees _ allocator).nodup 0 _ rfl) (by decide)
  · intro none
    have found : ((last engineMachine slabThreads twiceFreedSteps).engine.index.find probeKey).any
        (fun entry => entry.tier == kT1Dram && entry.address == 4288) = true := by
      decide +kernel
    rcases Option.any_eq_true _ _ |>.1 found with ⟨entry, isFound, fields⟩
    simp only [Bool.and_eq_true, beq_iff_eq] at fields
    apply none _ probeKey entry allocator isFound fields.1
    rw [fields.2]
    exact ⟨0, _, 3, rfl, by decide, by decide⟩

end AttentionDB
