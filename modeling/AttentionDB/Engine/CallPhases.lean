import AttentionDB.Engine.ClientThreads

/-!
# Calls under way

Before its effect a call is waiting, after it the answer is settled. Where a
thread is in a call says which of the two, and what it has in hand: a slot that
no other put is given, a blob in such a slot, or a blob that was acknowledged by
the store. A step of another thread keeps all of it, as long as no slot is freed
and nobody copies into the slot.
-/

namespace AttentionDB

open GuardedRuns ByteMap BlobStore SlabAllocator LossyMaps Linearizability Relation

set_option autoImplicit false

/-! ## What entries and threads stand for -/

/-- A slot that no put will be given, with room for so many bytes. -/
structure Reserved (e : Engine) (ptr length : Nat) : Prop where
  room : Room e ptr length
  taken : ∀ a, e.t1Allocator = some a → ¬IsFree a ptr

structure Occupied (e : Engine) (ptr : Nat) (blob : List UInt8) : Prop where
  reserved : Reserved e ptr blob.length
  bytes : slice e.memory ptr blob.length = blob

inductive Kept (e : Engine) (entry : IndexEntry) (blob : List UInt8) : Prop where
  | inSlot (inT1 : entry.tier = kT1Dram) (length : entry.length.toNat = blob.length)
      (occupied : Occupied e entry.address.toNat blob)
  | inFile (recorded : Recorded e.acked entry blob)

inductive InCall (e : Engine) : ThreadPc → Phase ClientOp BlobMap → Prop where
  | idle : InCall e .idle .idle
  | putBegun (place : Nat) (put : PutCall) :
      InCall e (.putBegun put) (.waiting place (.put put.update.key put.blob))
  | allocate (place : Nat) (put : PutCall) (short : put.blob.length < 2 ^ 32) :
      InCall e (.allocate put) (.waiting place (.put put.update.key put.blob))
  | copy (place : Nat) (put : PutCall) (ptr : Nat) (short : put.blob.length < 2 ^ 32)
      (reserved : Reserved e ptr put.blob.length) :
      InCall e (.copy put ptr) (.waiting place (.put put.update.key put.blob))
  | insertT1 (place : Nat) (put : PutCall) (ptr : Nat) (short : put.blob.length < 2 ^ 32)
      (occupied : Occupied e ptr put.blob) :
      InCall e (.insertT1 put ptr) (.waiting place (.put put.update.key put.blob))
  | publishT1 (place : Nat) (put : PutCall) (ptr : Nat) (short : put.blob.length < 2 ^ 32)
      (occupied : Occupied e ptr put.blob) :
      InCall e (.publishT1 put ptr) (.waiting place (.put put.update.key put.blob))
  | write (place : Nat) (put : PutCall) (short : put.blob.length < 2 ^ 32) :
      InCall e (.write put) (.waiting place (.put put.update.key put.blob))
  | insertT2 (place : Nat) (put : PutCall) (loc : BlobLocation) (short : put.blob.length < 2 ^ 32)
      (acked : ∃ ack ∈ e.acked, ack.loc = loc ∧ ack.data = put.blob) :
      InCall e (.insertT2 put loc) (.waiting place (.put put.update.key put.blob))
  | publishT2 (place : Nat) (put : PutCall) (loc : BlobLocation) (short : put.blob.length < 2 ^ 32)
      (acked : ∃ ack ∈ e.acked, ack.loc = loc ∧ ack.data = put.blob) :
      InCall e (.publishT2 put loc) (.waiting place (.put put.update.key put.blob))
  | evict (place : Nat) (put : PutCall) (before : BlobMap) :
      InCall e (.evict put .check) (.settled place (.put put.update.key put.blob) before
        (Function.update before put.update.key (some put.blob)))
  | getFind (place : Nat) (key : StorageKey) (bufLen : Nat) :
      InCall e (.getFind key bufLen) (.waiting place (.get key bufLen))
  | getCopy (place : Nat) (key : StorageKey) (bufLen : Nat) (entry : IndexEntry) (blob : List UInt8)
      (before : BlobMap) (was : before key = some blob) (fits : blob.length ≤ bufLen)
      (length : entry.length.toNat = blob.length) (occupied : Occupied e entry.address.toNat blob) :
      InCall e (.getCopy key entry) (.settled place (.get key bufLen) before before)
  | getAccessT1 (place : Nat) (key : StorageKey) (bufLen : Nat) (entry : IndexEntry)
      (blob : List UInt8) (before : BlobMap) (was : before key = some blob)
      (fits : blob.length ≤ bufLen) :
      InCall e (.getAccessT1 key entry blob) (.settled place (.get key bufLen) before before)
  | getRead (place : Nat) (key : StorageKey) (bufLen : Nat) (entry : IndexEntry) (blob : List UInt8)
      (before : BlobMap) (was : before key = some blob) (recorded : Recorded e.acked entry blob) :
      InCall e (.getRead key entry bufLen) (.settled place (.get key bufLen) before before)
  | getAccessT2 (place : Nat) (key : StorageKey) (bufLen : Nat) (entry : IndexEntry) (reply : ReadReply)
      (before : BlobMap) (right : BlobAnswers (before key) bufLen reply) :
      InCall e (.getAccessT2 key entry reply) (.settled place (.get key bufLen) before before)
  | getTouch (place : Nat) (key : StorageKey) (bufLen : Nat) (fromT1 : Bool) (reply : ReadReply)
      (before : BlobMap) (right : BlobAnswers (before key) bufLen reply) :
      InCall e (.getTouch key fromT1 reply) (.settled place (.get key bufLen) before before)
  | delFind (place : Nat) (del : Update) : InCall e (.delFind del) (.waiting place (.del del.key))
  | delMark (place : Nat) (del : Update) (entry : IndexEntry) :
      InCall e (.delMark del entry) (.waiting place (.del del.key))
  | delErase (place : Nat) (del : Update) : InCall e (.delErase del) (.waiting place (.del del.key))
  | delRemoveT1 (place : Nat) (del : Update) (before : BlobMap) :
      InCall e (.delRemoveT1 del) (.settled place (.del del.key) before
        (Function.update before del.key none))
  | delRemoveT2 (place : Nat) (del : Update) (before : BlobMap) :
      InCall e (.delRemoveT2 del) (.settled place (.del del.key) before
        (Function.update before del.key none))

/-- A put copies into a slot that nobody else has in hand and no entry points to. -/
def CopiesApart (s : EngineSystem) : Prop :=
  ∀ t put ptr, s.threads t = .copy put ptr →
    (∀ u length, u ≠ t → (s.threads u).span ≠ some (ptr, length)) ∧
      ∀ key entry, s.engine.index.find key = some entry → entry.tier = kT1Dram →
        entry.address.toNat ≠ ptr

structure CallsMatch (s : EngineSystem) (phases : Nat → Phase ClientOp BlobMap) (contents : BlobMap) :
    Prop where
  store : ∀ t2, s.engine.t2Store = some t2 → t2.Sound
  slots : ∀ a, s.engine.t1Allocator = some a → LayoutOk a ∧ FreeOk a
  held : Related (Kept s.engine) s.engine.index.find contents
  calls : ∀ t, InCall s.engine (s.threads t) (phases t)
  apart : CopiesApart s

/-! ## What a step keeps -/

/-- Nothing is lost of the blob store and the slots, but for the bytes of slots
that are not spared. -/
structure Preserves (spared : Nat → Prop) (e after : Engine) : Prop where
  acked : ∀ ack ∈ e.acked, ack ∈ after.acked
  reserved : ∀ ptr length, Reserved e ptr length → Reserved after ptr length
  occupied : ∀ ptr blob, spared ptr → Occupied e ptr blob → Occupied after ptr blob

section Frame

variable {spared : Nat → Prop} {e after : Engine} {pc : ThreadPc} {phase : Phase ClientOp BlobMap}
  {entry : IndexEntry} {blob : List UInt8}

/-- The slots and the memory are as before. -/
theorem preserves_same (t1Allocator : after.t1Allocator = e.t1Allocator) (memory : after.memory = e.memory)
    (acked : ∀ ack ∈ e.acked, ack ∈ after.acked) : Preserves spared e after := by
  have reserved : ∀ ptr length, Reserved e ptr length → Reserved after ptr length := by
    rintro ptr length ⟨⟨a, slotSize, isAllocator, isSlot, fits⟩, taken⟩
    refine ⟨⟨a, slotSize, t1Allocator.trans isAllocator, isSlot, fits⟩, ?_⟩
    rw [t1Allocator]
    exact taken
  refine ⟨acked, reserved, ?_⟩
  intro ptr blob _ occupied
  refine ⟨reserved _ _ occupied.reserved, ?_⟩
  rw [memory]
  exact occupied.bytes

theorem Kept.keep (kept : Kept e entry blob) (keeps : Preserves spared e after)
    (spare : entry.tier = kT1Dram → spared entry.address.toNat) : Kept after entry blob := by
  cases kept with
  | inSlot inT1 length occupied =>
      exact .inSlot inT1 length (keeps.occupied _ _ (spare inT1) occupied)
  | inFile recorded => exact .inFile (recorded.grow keeps.acked)

theorem Kept.in_slot (kept : Kept e entry blob) (inT1 : entry.tier = kT1Dram) :
    entry.length.toNat = blob.length ∧ Occupied e entry.address.toNat blob := by
  cases kept with
  | inSlot _ length occupied => exact ⟨length, occupied⟩
  | inFile recorded =>
      have inT2 := recorded.inT2
      rw [inT1] at inT2
      contradiction

theorem Kept.touch (kept : Kept e entry blob) (now : Nat) : Kept e (entry.touch now) blob := by
  cases kept with
  | inSlot inT1 length occupied => exact .inSlot inT1 length occupied
  | inFile recorded => exact .inFile ⟨recorded.inT2, recorded.length, recorded.acked⟩

/-- The map goes on describing the index. -/
theorem held_keep {find : StorageKey → Option IndexEntry} {contents : BlobMap}
    (held : Related (Kept e) find contents) (keeps : Preserves spared e after)
    (spare : ∀ key entry, find key = some entry → entry.tier = kT1Dram → spared entry.address.toNat) :
    Related (Kept after) find contents := by
  intro key
  rcases held key with absent | ⟨entry, blob, found, isBlob, kept⟩
  · exact .inl absent
  · exact .inr ⟨entry, blob, found, isBlob, kept.keep keeps (spare key entry found)⟩

theorem InCall.keep (call : InCall e pc phase) (keeps : Preserves spared e after)
    (spare : ∀ ptr length, pc.span = some (ptr, length) → spared ptr) : InCall after pc phase := by
  have written : ∀ {loc : BlobLocation} {data : List UInt8},
      (∃ ack ∈ e.acked, ack.loc = loc ∧ ack.data = data) →
      ∃ ack ∈ after.acked, ack.loc = loc ∧ ack.data = data := by
    rintro loc data ⟨ack, member, known⟩
    exact ⟨ack, keeps.acked ack member, known⟩
  cases call with
  | idle => exact .idle
  | putBegun place put => exact .putBegun place put
  | allocate place put short => exact .allocate place put short
  | copy place put ptr short reserved => exact .copy place put ptr short (keeps.reserved _ _ reserved)
  | insertT1 place put ptr short occupied =>
      exact .insertT1 place put ptr short (keeps.occupied _ _ (spare ptr _ rfl) occupied)
  | publishT1 place put ptr short occupied =>
      exact .publishT1 place put ptr short (keeps.occupied _ _ (spare ptr _ rfl) occupied)
  | write place put short => exact .write place put short
  | insertT2 place put loc short acked => exact .insertT2 place put loc short (written acked)
  | publishT2 place put loc short acked => exact .publishT2 place put loc short (written acked)
  | evict place put before => exact .evict place put before
  | getFind place key bufLen => exact .getFind place key bufLen
  | getCopy place key bufLen entry blob before was fits length occupied =>
      exact .getCopy place key bufLen entry blob before was fits length
        (keeps.occupied _ _ (spare _ _ rfl) occupied)
  | getAccessT1 place key bufLen entry blob before was fits =>
      exact .getAccessT1 place key bufLen entry blob before was fits
  | getRead place key bufLen entry blob before was recorded =>
      exact .getRead place key bufLen entry blob before was (recorded.grow keeps.acked)
  | getAccessT2 place key bufLen entry reply before right =>
      exact .getAccessT2 place key bufLen entry reply before right
  | getTouch place key bufLen fromT1 reply before right =>
      exact .getTouch place key bufLen fromT1 reply before right
  | delFind place del => exact .delFind place del
  | delMark place del entry => exact .delMark place del entry
  | delErase place del => exact .delErase place del
  | delRemoveT1 place del before => exact .delRemoveT1 place del before
  | delRemoveT2 place del before => exact .delRemoveT2 place del before

/-- What a thread has in hand it was given. -/
theorem InCall.reserved (call : InCall e pc phase) {ptr length : Nat}
    (carried : pc.span = some (ptr, length)) : ∃ whole, Reserved e ptr whole := by
  cases call with
  | copy place put p short reserved =>
      cases carried
      exact ⟨_, reserved⟩
  | insertT1 place put p short occupied | publishT1 place put p short occupied =>
      cases carried
      exact ⟨_, occupied.reserved⟩
  | getCopy place key bufLen entry blob before was fits sameLength occupied =>
      cases carried
      exact ⟨_, occupied.reserved⟩
  | _ => cases carried

end Frame

section Steps

variable {spared : Nat → Prop} {s after : EngineSystem} {phases : Nat → Phase ClientOp BlobMap}
  {contents left : BlobMap} {t : Nat} {pc : ThreadPc} {phase : Phase ClientOp BlobMap}

/-- One thread moves on. -/
theorem CallsMatch.advance (calling : CallsMatch s phases contents)
    (threads : after.threads = Function.update s.threads t pc)
    (keeps : Preserves spared s.engine after.engine)
    (spare : ∀ u ptr length, u ≠ t → (s.threads u).span = some (ptr, length) → spared ptr)
    (store : ∀ t2, after.engine.t2Store = some t2 → t2.Sound)
    (slots : ∀ a, after.engine.t1Allocator = some a → LayoutOk a ∧ FreeOk a)
    (held : Related (Kept after.engine) after.engine.index.find left)
    (own : InCall after.engine pc phase) (apart : CopiesApart after) :
    CallsMatch after (Function.update phases t phase) left := by
  refine ⟨store, slots, held, ?_, apart⟩
  intro u
  rw [threads]
  by_cases same : u = t
  · subst same
    rw [Function.update_self, Function.update_self]
    exact own
  · rw [Function.update_of_ne same, Function.update_of_ne same]
    exact (calling.calls u).keep keeps fun ptr length carried => spare u ptr length same carried

/-- The slots that the mover leaves in hand, or in an entry, it had in hand or
found in an entry. -/
theorem CopiesApart.advance (apart : CopiesApart s)
    (threads : after.threads = Function.update s.threads t pc)
    (noCopy : ∀ put ptr, pc ≠ .copy put ptr)
    (span : ∀ ptr length, pc.span = some (ptr, length) →
      (∃ whole, (s.threads t).span = some (ptr, whole)) ∨
        ∃ key entry, s.engine.index.find key = some entry ∧ entry.tier = kT1Dram ∧
          entry.address.toNat = ptr)
    (entries : ∀ key entry, after.engine.index.find key = some entry → entry.tier = kT1Dram →
      (∃ old, s.engine.index.find key = some old ∧ old.tier = kT1Dram ∧
        old.address = entry.address) ∨
        ∃ whole, (s.threads t).span = some (entry.address.toNat, whole)) : CopiesApart after := by
  intro u put ptr copying
  rw [threads] at copying
  have other : u ≠ t := by
    rintro rfl
    rw [Function.update_self] at copying
    exact noCopy put ptr copying
  rw [Function.update_of_ne other] at copying
  obtain ⟨spans, addresses⟩ := apart u put ptr copying
  constructor
  · intro v length different carried
    rw [threads] at carried
    by_cases same : v = t
    · subst same
      rw [Function.update_self] at carried
      rcases span ptr length carried with ⟨whole, had⟩ | ⟨key, entry, found, inT1, address⟩
      · exact spans v whole different had
      · exact addresses key entry found inT1 address
    · rw [Function.update_of_ne same] at carried
      exact spans v length different carried
  · intro key entry found inT1 address
    rcases entries key entry found inT1 with ⟨old, was, wasT1, same⟩ | ⟨whole, had⟩
    · exact addresses key old was wasT1 ((congrArg UInt64.toNat same).trans address)
    · rw [address] at had
      exact spans t whole (Ne.symm other) had

/-- The slots, the memory and the index are as before. -/
theorem CallsMatch.moved (calling : CallsMatch s phases contents)
    (threads : after.threads = Function.update s.threads t pc)
    (index : after.engine.index = s.engine.index)
    (t1Allocator : after.engine.t1Allocator = s.engine.t1Allocator)
    (memory : after.engine.memory = s.engine.memory)
    (acked : ∀ ack ∈ s.engine.acked, ack ∈ after.engine.acked)
    (store : ∀ t2, after.engine.t2Store = some t2 → t2.Sound)
    (noCopy : ∀ put ptr, pc ≠ .copy put ptr)
    (span : ∀ ptr length, pc.span = some (ptr, length) →
      (∃ whole, (s.threads t).span = some (ptr, whole)) ∨
        ∃ key entry, s.engine.index.find key = some entry ∧ entry.tier = kT1Dram ∧
          entry.address.toNat = ptr)
    (own : InCall after.engine pc phase) :
    CallsMatch after (Function.update phases t phase) contents := by
  have keeps : Preserves (fun _ => True) s.engine after.engine :=
    preserves_same t1Allocator memory acked
  refine calling.advance threads keeps (fun _ _ _ _ _ => trivial) store ?_ ?_ own ?_
  · rw [t1Allocator]
    exact calling.slots
  · rw [index]
    exact held_keep calling.held keeps fun _ _ _ _ => trivial
  · refine calling.apart.advance threads noCopy span ?_
    intro key entry found inT1
    rw [index] at found
    exact .inl ⟨entry, found, inT1, rfl⟩

/-- Neither does the thread have a slot in hand. -/
theorem CallsMatch.calm (calling : CallsMatch s phases contents)
    (threads : after.threads = Function.update s.threads t pc)
    (index : after.engine.index = s.engine.index)
    (t1Allocator : after.engine.t1Allocator = s.engine.t1Allocator)
    (memory : after.engine.memory = s.engine.memory)
    (acked : ∀ ack ∈ s.engine.acked, ack ∈ after.engine.acked)
    (store : ∀ t2, after.engine.t2Store = some t2 → t2.Sound) (nothing : pc.span = none)
    (own : InCall after.engine pc phase) :
    CallsMatch after (Function.update phases t phase) contents := by
  refine calling.moved threads index t1Allocator memory acked store ?_ ?_ own
  · rintro put ptr rfl
    cases nothing
  · intro ptr length carried
    rw [nothing] at carried
    cases carried

/-- A step that leaves the engine alone, or changes its trackers only. -/
theorem CallsMatch.stay (calling : CallsMatch s phases contents) {engine : Engine}
    (core : SameCore s.engine engine) (t2Store : engine.t2Store = s.engine.t2Store)
    (nothing : pc.span = none) (own : InCall engine pc phase) :
    CallsMatch (s.move t engine pc) (Function.update phases t phase) contents := by
  refine calling.calm rfl core.index core.t1Allocator core.memory ?_ ?_ nothing own
  · intro ack member
    have same : engine.acked = s.engine.acked := by
      unfold Engine.acked
      rw [t2Store]
    exact same ▸ member
  · change ∀ t2, engine.t2Store = some t2 → t2.Sound
    rw [t2Store]
    exact calling.store

/-- The index changes where the call takes effect. No T1 entry comes in that the
thread did not have in hand. -/
theorem CallsMatch.published (calling : CallsMatch s phases contents)
    (threads : after.threads = Function.update s.threads t pc)
    (t1Allocator : after.engine.t1Allocator = s.engine.t1Allocator)
    (memory : after.engine.memory = s.engine.memory)
    (t2Store : after.engine.t2Store = s.engine.t2Store) (nothing : pc.span = none)
    (entries : ∀ key entry, after.engine.index.find key = some entry → entry.tier = kT1Dram →
      (∃ old, s.engine.index.find key = some old ∧ old.tier = kT1Dram ∧
        old.address = entry.address) ∨
        ∃ whole, (s.threads t).span = some (entry.address.toNat, whole))
    (held : Related (Kept s.engine) after.engine.index.find left) (own : InCall after.engine pc phase) :
    CallsMatch after (Function.update phases t phase) left := by
  have acked : after.engine.acked = s.engine.acked := by
    unfold Engine.acked
    rw [t2Store]
  have keeps : Preserves (fun _ => True) s.engine after.engine :=
    preserves_same t1Allocator memory fun ack member => acked ▸ member
  refine calling.advance threads keeps (fun _ _ _ _ _ => trivial) ?_ ?_ ?_ own ?_
  · rw [t2Store]
    exact calling.store
  · rw [t1Allocator]
    exact calling.slots
  · exact held_keep held keeps fun _ _ _ _ => trivial
  · refine calling.apart.advance threads ?_ ?_ entries
    · rintro put ptr rfl
      cases nothing
    · intro ptr length carried
      rw [nothing] at carried
      cases carried

end Steps

/-! ## Slots that are handed out and filled -/

section Slots

variable {e : Engine} {old allocator : SlabAllocator} {size ptr : Nat}

/-- What was reserved stays reserved, and is not what is handed out. -/
theorem Reserved.allocated {p length : Nat} (had : Reserved e p length)
    (isOld : e.t1Allocator = some old) (spec : Allocated old size ptr allocator) :
    Reserved { e with t1Allocator := some allocator } p length := by
  obtain ⟨⟨_, slotSize, isAllocator, isSlot, fits⟩, taken⟩ := had
  rw [isOld] at isAllocator
  cases isAllocator
  refine ⟨⟨allocator, slotSize, rfl, (spec.sameSlots _ _).2 isSlot, fits⟩, ?_⟩
  rintro _ ⟨⟩ free
  exact taken old isOld ((spec.freeIff p).1 free).1

theorem preserves_allocated (isOld : e.t1Allocator = some old)
    (spec : Allocated old size ptr allocator) :
    Preserves (fun _ => True) e { e with t1Allocator := some allocator } := by
  refine ⟨fun _ member => member, fun p length had => had.allocated isOld spec, ?_⟩
  intro p blob _ occupied
  exact ⟨occupied.reserved.allocated isOld spec, occupied.bytes⟩

theorem allocated_reserved (spec : Allocated old size ptr allocator) :
    Reserved { e with t1Allocator := some allocator } ptr size := by
  obtain ⟨slotSize, isSlot, fits, _⟩ := spec.slot
  refine ⟨⟨allocator, slotSize, rfl, (spec.sameSlots _ _).2 isSlot, fits⟩, ?_⟩
  rintro _ ⟨⟩ free
  exact ((spec.freeIff ptr).1 free).2 rfl

/-- Slots do not overlap, so a copy into one leaves the others as they are. -/
theorem preserves_copied {blob : List UInt8} (reserved : Reserved e ptr blob.length)
    (layout : ∀ a, e.t1Allocator = some a → LayoutOk a) :
    Preserves (fun p => p ≠ ptr) e { e with memory := patch e.memory ptr blob } := by
  refine ⟨fun _ member => member, fun p length had => ⟨had.room, had.taken⟩, ?_⟩
  intro p kept different occupied
  refine ⟨⟨occupied.reserved.room, occupied.reserved.taken⟩, ?_⟩
  obtain ⟨allocator, slotSize, isAllocator, isSlot, fits⟩ := occupied.reserved.room
  obtain ⟨_, targetSize, isSame, isTarget, targetFits⟩ := reserved.room
  rw [isAllocator] at isSame
  cases isSame
  have apart := slots_apart (layout allocator isAllocator) isSlot isTarget different
  have unseen : slice (patch e.memory ptr blob) p kept.length = slice e.memory p kept.length :=
    slice_patch_disjoint _ _ _ _ _ (by omega)
  exact unseen.trans occupied.bytes

end Slots

section FreeSlots

variable {s after : EngineSystem} {phases : Nat → Phase ClientOp BlobMap} {contents : BlobMap}
  {t ptr : Nat} {a : SlabAllocator}

theorem CallsMatch.free_not_carried (calling : CallsMatch s phases contents)
    (isAllocator : s.engine.t1Allocator = some a) (free : IsFree a ptr) (u length : Nat) :
    (s.threads u).span ≠ some (ptr, length) := by
  intro carried
  obtain ⟨whole, had⟩ := (calling.calls u).reserved carried
  exact had.taken a isAllocator free

theorem CallsMatch.free_not_indexed (calling : CallsMatch s phases contents)
    (isAllocator : s.engine.t1Allocator = some a) (free : IsFree a ptr) {key : StorageKey}
    {entry : IndexEntry} (found : s.engine.index.find key = some entry)
    (inT1 : entry.tier = kT1Dram) : entry.address.toNat ≠ ptr := by
  rcases calling.held key with ⟨absent, _⟩ | ⟨known, blob, isKnown, _, kept⟩
  · rw [absent] at found
    cases found
  · rw [isKnown] at found
    cases found
    rintro rfl
    exact (kept.in_slot inT1).2.reserved.taken a isAllocator free

/-- A put takes up a slot that no thread has in hand and no entry points to. -/
theorem CopiesApart.copy (apart : CopiesApart s) {put : PutCall}
    (threads : after.threads = Function.update s.threads t (.copy put ptr))
    (index : after.engine.index = s.engine.index)
    (elsewhere : ∀ u length, (s.threads u).span ≠ some (ptr, length))
    (unindexed : ∀ key entry, s.engine.index.find key = some entry → entry.tier = kT1Dram →
      entry.address.toNat ≠ ptr) : CopiesApart after := by
  intro u other p copying
  rw [threads] at copying
  rw [index, threads]
  by_cases same : u = t
  · subst same
    rw [Function.update_self] at copying
    cases copying
    refine ⟨?_, unindexed⟩
    intro v length different
    rw [Function.update_of_ne different]
    exact elsewhere v length
  · rw [Function.update_of_ne same] at copying
    obtain ⟨spans, addresses⟩ := apart u other p copying
    refine ⟨?_, addresses⟩
    intro v length different carried
    by_cases mover : v = t
    · subst mover
      rw [Function.update_self] at carried
      cases carried
      exact elsewhere u _ (by rw [copying]; rfl)
    · rw [Function.update_of_ne mover] at carried
      exact spans v length different carried

end FreeSlots

end AttentionDB
