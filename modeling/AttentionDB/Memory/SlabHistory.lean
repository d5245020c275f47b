import AttentionDB.Lib.GuardedRuns
import AttentionDB.Lib.NodeMap
import AttentionDB.Memory.SlabSlots

/-!
# Histories of the slab allocator

The allocator next to a ledger of what its callers hold. Both routes of a
release come down to the same slot, whatever address inside it was passed, so
every history keeps each class's slots split between its free list and the
ledger.
-/

namespace AttentionDB

open GuardedRuns NodeMaps

set_option autoImplicit false

structure LiveSlot where
  handle : SlabHandle
  ptr : Nat
  size : Nat
  deriving DecidableEq, Repr

structure SlabRun where
  allocator : SlabAllocator
  live : List LiveSlot := []
  deriving DecidableEq, Repr

inductive SlabLabel where
  | allocate (size : Nat)
  | free (handle : Option SlabHandle)
  | freeByPtr (ptr : Nat)

namespace SlabAllocator

def slotBytes (a : SlabAllocator) (l : LiveSlot) : Nat :=
  (a.classes[l.handle.classIndex]?).elim 0 SizeClass.slotSize

def contains (a : SlabAllocator) (ptr : Nat) (l : LiveSlot) : Bool :=
  l.ptr ≤ ptr && ptr < l.ptr + a.slotBytes l

end SlabAllocator

namespace SlabRun

/-- One call. A release is only made for an allocation that is live: by its
handle or by an address inside its slot. The invalid handle and the null
pointer may always be passed. -/
def exec (s : SlabRun) : SlabLabel → Option SlabRun
  | .allocate size =>
      match s.allocator.allocate size with
      | none => some s
      | some (handle, ptr, after) =>
          some { allocator := after, live := { handle, ptr, size } :: s.live }
  | .free none => some { s with allocator := s.allocator.free none }
  | .free (some handle) =>
      if s.live.any (·.handle = handle) then
        some
          { allocator := s.allocator.free (some handle)
            live := s.live.eraseP (·.handle = handle) }
      else none
  | .freeByPtr ptr =>
      if ptr = 0 then some { s with allocator := s.allocator.freeByPtr ptr }
      else if s.live.any (s.allocator.contains ptr) then
        some
          { allocator := s.allocator.freeByPtr ptr
            live := s.live.eraseP (s.allocator.contains ptr) }
      else none

end SlabRun

def slabMachine : Machine SlabRun SlabLabel where
  start s := ∃ config allocBacking a, initClasses config allocBacking = some a ∧
    SlabAllocator.Backed a ∧ s = { allocator := a }
  exec := SlabRun.exec

namespace SlabAllocator

variable {a after : SlabAllocator} {i slot size ptr : Nat} {sc : SizeClass} {handle : SlabHandle}

theorem slot_sizes_with_free_list (a : SlabAllocator) (i : Nat) (change : List Nat → List Nat) :
    (a.withFreeList i change).classes.map SizeClass.slotSize = a.classes.map SizeClass.slotSize := by
  apply List.ext_getElem?
  intro k
  simp only [withFreeList, List.getElem?_map, List.getElem?_modify]
  cases a.classes[k]? with
  | none => rfl
  | some sc =>
      simp only [Option.map_eq_map, Option.map_some]
      split_ifs <;> rfl

theorem slot_bytes_with_free_list (a : SlabAllocator) (i : Nat) (change : List Nat → List Nat) :
    (a.withFreeList i change).slotBytes = a.slotBytes := by
  have bytes : ∀ (other : SlabAllocator) (l : LiveSlot), other.slotBytes l =
      ((other.classes.map SizeClass.slotSize)[l.handle.classIndex]?).getD 0 := by
    intro other l
    rw [List.getElem?_map]
    unfold slotBytes
    cases other.classes[l.handle.classIndex]? <;> rfl
  funext l
  rw [bytes, bytes, slot_sizes_with_free_list]

/-! ## What an allocation picks -/

def Serves (sc : SizeClass) (size : Nat) : Prop := size ≤ sc.slotSize ∧ sc.freeList ≠ []

theorem allocate_cases (allocated : a.allocate size = some (handle, ptr, after)) :
    ∃ i sc slot rest, a.classes[i]? = some sc ∧ sc.freeList = slot :: rest ∧ size ≤ sc.slotSize ∧
      handle = ⟨i, slot⟩ ∧ ptr = sc.slotAddress slot ∧ after = a.withFreeList i List.tail ∧
      ∀ k other, k < i → a.classes[k]? = some other → ¬Serves other size := by
  simp only [allocate, Option.bind_eq_bind, Option.bind_eq_some_iff, Option.some.injEq,
    Prod.mk.injEq] at allocated
  obtain ⟨i, index, sc, found, slot, head, rfl, rfl, rfl⟩ := allocated
  obtain ⟨inList, picked, first⟩ := List.findIdx?_eq_some_iff_getElem.1 index
  obtain ⟨_, value⟩ := List.getElem?_eq_some_iff.1 found
  rw [value] at picked
  simp only [Bool.and_eq_true, decide_eq_true_eq] at picked
  obtain ⟨rest, list⟩ := List.head?_eq_some_iff.1 head
  refine ⟨i, sc, slot, rest, found, list, picked.1, rfl, rfl, rfl, ?_⟩
  intro k other before foundK serves
  obtain ⟨_, valueK⟩ := List.getElem?_eq_some_iff.1 foundK
  have rejected := first k before
  rw [valueK] at rejected
  simp [serves.1, serves.2] at rejected

theorem allocate_none : a.allocate size = none ↔ ∀ sc ∈ a.classes, ¬Serves sc size := by
  constructor
  · intro failed sc member serves
    have picks : ∃ i, a.classes.findIdx? (fun sc => size ≤ sc.slotSize && !sc.freeList.isEmpty) =
        some i := by
      apply Option.isSome_iff_exists.1
      rw [List.findIdx?_isSome, List.any_eq_true]
      exact ⟨sc, member, by simp [serves.1, serves.2]⟩
    rcases picks with ⟨i, index⟩
    obtain ⟨inList, picked, _⟩ := List.findIdx?_eq_some_iff_getElem.1 index
    simp only [Bool.and_eq_true, Bool.not_eq_true', List.isEmpty_eq_false_iff] at picked
    obtain ⟨slot, rest, list⟩ := List.exists_cons_of_ne_nil picked.2
    have found : a.classes[i]? = some a.classes[i] := List.getElem?_eq_getElem inList
    simp [allocate, index, found, list] at failed
  · intro noneServes
    cases result : a.allocate size with
    | none => rfl
    | some answer =>
        obtain ⟨handle, ptr, after⟩ := answer
        obtain ⟨i, sc, slot, rest, found, list, large, _⟩ := allocate_cases result
        exact absurd ⟨large, by simp [list]⟩ (noneServes sc (List.mem_of_getElem? found))

end SlabAllocator

/-! ## The ledger -/

def liveSlots (live : List LiveSlot) (i : Nat) : List Nat :=
  (live.filter (·.handle.classIndex = i)).map (·.handle.slotIndex)

theorem live_slots_cons (l : LiveSlot) (live : List LiveSlot) (i : Nat) :
    liveSlots (l :: live) i =
      if l.handle.classIndex = i then l.handle.slotIndex :: liveSlots live i
      else liveSlots live i := by
  unfold liveSlots
  rw [List.filter_cons]
  split_ifs with same same <;> simp_all

theorem live_slots_perm {live other : List LiveSlot} (same : live.Perm other) (i : Nat) :
    (liveSlots live i).Perm (liveSlots other i) :=
  (same.filter _).map _

open SlabAllocator

/-- Each class's slots are split between its free list and the ledger, and
every entry of the ledger names the address of its slot. -/
structure LedgerOk (s : SlabRun) : Prop where
  layout : LayoutOk s.allocator
  sorted : (s.allocator.classes.map SizeClass.slotSize).Pairwise (· ≤ ·)
  placed : ∀ l ∈ s.live, ∃ sc, s.allocator.classes[l.handle.classIndex]? = some sc ∧
    l.ptr = sc.slotAddress l.handle.slotIndex ∧ l.size ≤ sc.slotSize
  handles : (s.live.map (·.handle)).Nodup
  partition : ∀ (i : Nat) (sc : SizeClass), s.allocator.classes[i]? = some sc →
    (sc.freeList ++ liveSlots s.live i).Perm (List.range sc.numSlots)
  used : s.allocator.usedTotal = (s.live.map s.allocator.slotBytes).sum

namespace LedgerOk

variable {s : SlabRun} {l m : LiveSlot} {sc : SizeClass} {i slot size ptr : Nat}

theorem frees (ok : LedgerOk s) : FreeOk s.allocator where
  nodup i sc found := by
    have whole := (ok.partition i sc found).nodup_iff.2 List.nodup_range
    exact (List.nodup_append.1 whole).1
  inRange i sc found slot member := by
    have listed := (ok.partition i sc found).mem_iff.1 (List.mem_append_left _ member)
    exact List.mem_range.1 listed

theorem live_bound (ok : LedgerOk s) (member : l ∈ s.live)
    (found : s.allocator.classes[l.handle.classIndex]? = some sc) :
    l.handle.slotIndex < sc.numSlots ∧ l.handle.slotIndex ∉ sc.freeList := by
  have inLive : l.handle.slotIndex ∈ liveSlots s.live l.handle.classIndex := by
    unfold liveSlots
    exact List.mem_map_of_mem (List.mem_filter.2 ⟨member, by simp⟩)
  have whole := ok.partition _ sc found
  constructor
  · exact List.mem_range.1 (whole.mem_iff.1 (List.mem_append_right _ inLive))
  · intro isFree
    have nodup := whole.nodup_iff.2 List.nodup_range
    exact (List.nodup_append.1 nodup).2.2 _ isFree _ inLive rfl

theorem slot_bytes (found : s.allocator.classes[l.handle.classIndex]? = some sc) :
    s.allocator.slotBytes l = sc.slotSize := by
  rw [slotBytes, found]
  rfl

/-- Where a live allocation lies, with the class it belongs to. -/
theorem inside (ok : LedgerOk s) (member : l ∈ s.live) :
    ∃ sc, s.allocator.classes[l.handle.classIndex]? = some sc ∧
      l.ptr = sc.slotAddress l.handle.slotIndex ∧ l.size ≤ sc.slotSize ∧ sc.base ≤ l.ptr ∧
      l.ptr + sc.slotSize ≤ sc.base + sc.slotSize * sc.numSlots ∧
      s.allocator.slotBytes l = sc.slotSize := by
  obtain ⟨sc, found, isPtr, large⟩ := ok.placed l member
  have region := slot_address_in_region (ok.live_bound member found).1
  rw [← isPtr] at region
  exact ⟨sc, found, isPtr, large, region.1, region.2, slot_bytes found⟩

theorem is_slot (ok : LedgerOk s) (member : l ∈ s.live) :
    IsSlot s.allocator l.ptr (s.allocator.slotBytes l) := by
  obtain ⟨sc, found, isPtr, _⟩ := ok.placed l member
  exact ⟨_, sc, _, found, (ok.live_bound member found).1, isPtr, slot_bytes found⟩

theorem same_ptr (ok : LedgerOk s) (inL : l ∈ s.live) (inM : m ∈ s.live) (same : l.ptr = m.ptr) :
    l.handle = m.handle := by
  obtain ⟨scL, foundL, ptrL, _⟩ := ok.placed l inL
  obtain ⟨scM, foundM, ptrM, _⟩ := ok.placed m inM
  rw [ptrL, ptrM] at same
  obtain ⟨sameClass, sameSlot⟩ := slot_address_injective ok.layout foundL foundM
    (ok.live_bound inL foundL).1 (ok.live_bound inM foundM).1 same
  cases hl : l.handle
  cases hm : m.handle
  simp_all

theorem apart (ok : LedgerOk s) (inL : l ∈ s.live) (inM : m ∈ s.live)
    (different : l.handle ≠ m.handle) :
    l.ptr + s.allocator.slotBytes l ≤ m.ptr ∨ m.ptr + s.allocator.slotBytes m ≤ l.ptr := by
  apply slots_apart ok.layout (ok.is_slot inL) (ok.is_slot inM)
  intro same
  exact different (ok.same_ptr inL inM same)

/-! ## One call -/

theorem perm {live : List LiveSlot} (ok : LedgerOk s) (same : s.live.Perm live) :
    LedgerOk { s with live } where
  layout := ok.layout
  sorted := ok.sorted
  placed l member := ok.placed l (same.mem_iff.2 member)
  handles := (same.map _).nodup_iff.1 ok.handles
  partition i sc found :=
    ((live_slots_perm same i).symm.append_left sc.freeList).trans (ok.partition i sc found)
  used := by
    rw [ok.used]
    exact (same.map _).sum_eq

/-- An entry of the ledger under a changed free list. -/
theorem placed_with_free_list (ok : LedgerOk s) (i : Nat) (change : List Nat → List Nat)
    (member : l ∈ s.live) : ∃ sc, (s.allocator.withFreeList i change).classes[l.handle.classIndex]? =
      some sc ∧ l.ptr = sc.slotAddress l.handle.slotIndex ∧ l.size ≤ sc.slotSize := by
  obtain ⟨sc, found, isPtr, large⟩ := ok.placed l member
  exact ⟨_, (with_free_list_lookup s.allocator i _ change _).2 ⟨sc, found, rfl⟩, isPtr, large⟩

theorem take {rest : List Nat} (ok : LedgerOk s) (found : s.allocator.classes[i]? = some sc)
    (list : sc.freeList = slot :: rest) (large : size ≤ sc.slotSize) :
    LedgerOk
      { allocator := s.allocator.withFreeList i List.tail
        live := { handle := ⟨i, slot⟩, ptr := sc.slotAddress slot, size } :: s.live } := by
  have spec := take_spec ok.layout ok.frees found list large
  have listed : slot ∈ sc.freeList := by simp [list]
  have bound := ok.frees.inRange i sc found slot listed
  refine
    { layout := spec.layout
      sorted := ?_
      placed := ?_
      handles := ?_
      partition := ?_
      used := ?_ }
  · rw [slot_sizes_with_free_list]
    exact ok.sorted
  · intro l member
    rcases List.mem_cons.1 member with rfl | older
    · exact ⟨_, (with_free_list_lookup s.allocator i i List.tail _).2 ⟨sc, found, rfl⟩, rfl, large⟩
    · exact ok.placed_with_free_list i List.tail older
  · refine List.nodup_cons.2 ⟨?_, ok.handles⟩
    intro again
    obtain ⟨l, member, same⟩ := List.mem_map.1 again
    have isFree : l.handle.slotIndex ∈ sc.freeList := by
      rw [same]
      exact listed
    rw [← show l.handle.classIndex = i by rw [same]] at found
    exact (ok.live_bound member found).2 isFree
  · intro k other foundK
    obtain ⟨old, was, rfl⟩ := (with_free_list_lookup s.allocator i k List.tail other).1 foundK
    have whole := ok.partition k old was
    rw [live_slots_cons]
    by_cases same : i = k
    · subst same
      rw [found] at was
      cases was
      rw [list] at whole
      simp only [if_true, list, List.tail_cons]
      exact List.perm_middle.trans whole
    · simpa [same] using whole
  · obtain ⟨slotSize, isSlot, _, more⟩ := spec.slot
    have sameSize : slotSize = sc.slotSize := by
      rw [← slot_size_at ok.layout isSlot]
      exact slot_size_at ok.layout ⟨i, sc, slot, found, bound, rfl, rfl⟩
    rw [more, ok.used, slot_bytes_with_free_list, List.map_cons, List.sum_cons,
      slot_bytes (l := ⟨⟨i, slot⟩, sc.slotAddress slot, size⟩) found, sameSize, Nat.add_comm]

theorem allocate {after : SlabAllocator} {handle : SlabHandle} (ok : LedgerOk s)
    (allocated : s.allocator.allocate size = some (handle, ptr, after)) :
    LedgerOk { allocator := after, live := { handle, ptr, size } :: s.live } := by
  obtain ⟨i, sc, slot, rest, found, list, large, rfl, rfl, rfl, _⟩ := allocate_cases allocated
  exact ok.take found list large

theorem release_first {live : List LiveSlot} (ok : LedgerOk { s with live := l :: live }) :
    LedgerOk { allocator := s.allocator.free (some l.handle), live } := by
  have inLive : l ∈ l :: live := List.mem_cons_self
  obtain ⟨sc, found, isPtr, _⟩ := ok.placed l inLive
  have bound := ok.live_bound inLive found
  have isSlot := ok.is_slot inLive
  have allocated : ¬IsFree s.allocator l.ptr := by
    rintro ⟨k, other, slot, was, member, same⟩
    rw [isPtr] at same
    obtain ⟨rfl, rfl⟩ := slot_address_injective ok.layout found was bound.1
      (ok.frees.inRange k other was slot member) same
    rw [was] at found
    cases found
    exact bound.2 member
  have released := free_by_ptr_spec ok.layout ok.frees isSlot allocated
  have sameRoute : s.allocator.freeByPtr l.ptr = s.allocator.free (some l.handle) := by
    rw [isPtr]
    exact free_by_ptr_slot ok.layout found bound.1
  rw [sameRoute] at released
  refine
    { layout := released.layout
      sorted := ?_
      placed := ?_
      handles := (List.nodup_cons.1 ok.handles).2
      partition := ?_
      used := ?_ }
  · simp only [free, pushFree, slot_sizes_with_free_list]
    exact ok.sorted
  · intro m member
    exact ok.placed_with_free_list _ _ (List.mem_cons_of_mem _ member)
  · intro k other foundK
    obtain ⟨old, was, rfl⟩ := (with_free_list_lookup s.allocator _ k _ other).1 foundK
    have whole := ok.partition k old was
    rw [live_slots_cons] at whole
    by_cases same : l.handle.classIndex = k
    · simp only [same, if_true] at whole ⊢
      exact List.perm_middle.symm.trans whole
    · simpa [same] using whole
  · have before := ok.used
    rw [List.map_cons, List.sum_cons] at before
    have sameSize : s.allocator.slotSizeAt l.ptr = s.allocator.slotBytes l :=
      slot_size_at ok.layout isSlot
    have less := released.used
    simp only [free, pushFree, slot_bytes_with_free_list]
    simp only [free, pushFree] at less
    change s.allocator.usedTotal =
      s.allocator.slotBytes l + (live.map s.allocator.slotBytes).sum at before
    omega

theorem release (ok : LedgerOk s) {rest : List LiveSlot} (split : s.live.Perm (l :: rest)) :
    LedgerOk { allocator := s.allocator.free (some l.handle), live := rest } :=
  (ok.perm split).release_first

/-- An address inside the slot of a live allocation belongs to no other, and
passing it to `free_by_ptr` releases that slot. -/
theorem contained (ok : LedgerOk s) (member : l ∈ s.live)
    (inSlot : s.allocator.contains ptr l = true) :
    ptr ≠ 0 ∧ s.allocator.freeByPtr ptr = s.allocator.free (some l.handle) ∧
      ∀ m ∈ s.live, s.allocator.contains ptr m = true → m.handle = l.handle := by
  obtain ⟨sc, found, isPtr, _, _, _, bytes⟩ := ok.inside member
  have bounds := is_slot_bounds ok.layout (ok.is_slot member)
  simp only [contains, Bool.and_eq_true, decide_eq_true_eq] at inSlot
  refine ⟨by omega, ?_, ?_⟩
  · rw [bytes, isPtr] at inSlot
    exact free_by_ptr_inside ok.layout found (ok.live_bound member found).1 inSlot.1 inSlot.2
  · intro m inM also
    simp only [contains, Bool.and_eq_true, decide_eq_true_eq] at also
    by_contra different
    have separate := ok.apart inM member different
    omega

theorem handle_unique (ok : LedgerOk s) (inL : l ∈ s.live) (inM : m ∈ s.live)
    (same : m.handle = l.handle) : m = l :=
  List.inj_on_of_nodup_map ok.handles inM inL same

theorem erase_congr {Item : Type*} {p q : Item → Bool} (items : List Item)
    (same : ∀ item ∈ items, p item = q item) : items.eraseP p = items.eraseP q := by
  induction items with
  | nil => rfl
  | cons item items ih =>
      rw [List.eraseP_cons, List.eraseP_cons, same item List.mem_cons_self,
        ih fun other member => same other (List.mem_cons_of_mem _ member)]

/-- Only the entry itself has the address in its slot. -/
theorem same_entry (ok : LedgerOk s) (member : l ∈ s.live)
    (inSlot : s.allocator.contains ptr l = true) (m : LiveSlot) (inM : m ∈ s.live) :
    s.allocator.contains ptr m = decide (m.handle = l.handle) := by
  apply Bool.eq_iff_iff.2
  rw [decide_eq_true_iff]
  constructor
  · exact (ok.contained member inSlot).2.2 m inM
  · intro same
    rw [ok.handle_unique member inM same]
    exact inSlot

/-- Both routes take the same entry off the ledger. -/
theorem same_release (ok : LedgerOk s) (member : l ∈ s.live)
    (inSlot : s.allocator.contains ptr l = true) :
    s.live.eraseP (s.allocator.contains ptr) = s.live.eraseP (·.handle = l.handle) :=
  erase_congr s.live (ok.same_entry member inSlot)

theorem free_by_ptr_is_free (ok : LedgerOk s) (member : l ∈ s.live)
    (inSlot : s.allocator.contains ptr l = true) :
    s.exec (.freeByPtr ptr) = s.exec (.free (some l.handle)) := by
  obtain ⟨notNull, sameFree, _⟩ := ok.contained member inSlot
  have some : s.live.any (s.allocator.contains ptr) = true := List.any_eq_true.2 ⟨l, member, inSlot⟩
  have listed : s.live.any (·.handle = l.handle) = true :=
    List.any_eq_true.2 ⟨l, member, by simp⟩
  simp only [SlabRun.exec, notNull, if_false, some, listed, if_true, sameFree,
    ok.same_release member inSlot]

theorem free_handle (ok : LedgerOk s) {handle : SlabHandle} {after : SlabRun}
    (moved : s.exec (.free (some handle)) = some after) : LedgerOk after := by
  simp only [SlabRun.exec, Option.ite_none_right_eq_some] at moved
  obtain ⟨listed, ⟨⟩⟩ := moved
  obtain ⟨l, member, same⟩ := List.any_eq_true.1 listed
  have isHandle : l.handle = handle := by simpa using same
  subst isHandle
  obtain ⟨gone, before, rest, _, isGone, whole, erased⟩ :=
    List.exists_of_eraseP (p := fun m : LiveSlot => m.handle = l.handle) member (by simp)
  have gonePresent : gone ∈ s.live := by simp [whole]
  have sameEntry : gone = l := ok.handle_unique member gonePresent (by simpa using isGone)
  subst sameEntry
  apply ok.release
  rw [erased, whole]
  exact List.perm_middle

theorem step (ok : LedgerOk s) {label : SlabLabel} {after : SlabRun}
    (moved : s.exec label = some after) : LedgerOk after := by
  cases label with
  | allocate size =>
      simp only [SlabRun.exec] at moved
      split at moved
      · cases moved
        exact ok
      · rename_i handle ptr next allocated
        cases moved
        exact ok.allocate allocated
  | free handle =>
      cases handle with
      | none =>
          cases moved
          exact ok
      | some handle => exact ok.free_handle moved
  | freeByPtr ptr =>
      by_cases null : ptr = 0
      · subst null
        cases moved
        exact ok
      by_cases some : s.live.any (s.allocator.contains ptr) = true
      · obtain ⟨l, member, inSlot⟩ := List.any_eq_true.1 some
        rw [ok.free_by_ptr_is_free member inSlot] at moved
        exact ok.free_handle moved
      · simp [SlabRun.exec, null, some] at moved

end LedgerOk

section Start

variable {config : DramCacheConfig} {allocBacking : Nat → Nat} {a : SlabAllocator}

theorem init_classes_sorted (made : initClasses config allocBacking = some a) :
    (a.classes.map SizeClass.slotSize).Pairwise (· ≤ ·) := by
  simp only [initClasses] at made
  split at made
  · contradiction
  · cases made
    rw [ListSums.map_mapIdx_of_eq (fun i slotSize => initClass _ slotSize (allocBacking i))
      SizeClass.slotSize id fun _ _ => rfl, List.map_id]
    exact List.pairwise_insertionSort _ _

theorem ledger_start (made : initClasses config allocBacking = some a) (backed : Backed a) :
    LedgerOk { allocator := a } where
  layout := init_classes_layout made backed
  sorted := init_classes_sorted made
  placed := by simp
  handles := List.nodup_nil
  partition i sc found := by
    rw [(init_classes_class made found).2.2]
    simp [liveSlots]
  used := by simpa using init_classes_unused made

end Start

theorem reach_ledger {s : SlabRun} (reached : Reach slabMachine s) : LedgerOk s := by
  apply reached.invariant LedgerOk
  · rintro _ ⟨config, allocBacking, a, made, backed, rfl⟩
    exact ledger_start made backed
  · intro before label after ok _ moved
    exact ok.step moved

/-! ## What every history keeps -/

theorem stats_used_bytes (a : SlabAllocator) : a.stats.usedBytes = a.usedBytes := by
  have running := ListSums.foldl_add_mod (fun sc : SizeClass => sc.usedSlots * sc.slotSize) (2 ^ 64)
    a.classes 0 (by decide)
  rw [Nat.zero_add] at running
  exact running

structure SlabCorrect (s : SlabRun) : Prop where
  inside : ∀ l ∈ s.live, ∃ sc, s.allocator.classes[l.handle.classIndex]? = some sc ∧
    l.size ≤ sc.slotSize ∧ s.allocator.slotBytes l = sc.slotSize ∧ sc.base ≤ l.ptr ∧
    l.ptr + sc.slotSize ≤ sc.base + sc.slotSize * sc.numSlots
  disjoint : s.live.Pairwise fun l m =>
    l.ptr + s.allocator.slotBytes l ≤ m.ptr ∨ m.ptr + s.allocator.slotBytes m ≤ l.ptr
  release : ∀ l ∈ s.live, ∀ ptr, l.ptr ≤ ptr → ptr < l.ptr + s.allocator.slotBytes l →
    s.allocator.freeByPtr ptr = s.allocator.free (some l.handle) ∧
      s.exec (.freeByPtr ptr) = s.exec (.free (some l.handle))
  partition : ∀ (i : Nat) (sc : SizeClass), s.allocator.classes[i]? = some sc →
    sc.freeList.Nodup ∧ (sc.freeList ++ liveSlots s.live i).Perm (List.range sc.numSlots)
  smallest : ∀ size handle ptr after, s.allocator.allocate size = some (handle, ptr, after) →
    ∃ sc, s.allocator.classes[handle.classIndex]? = some sc ∧ Serves sc size ∧
      handle.slotIndex ∈ sc.freeList ∧ ptr = sc.slotAddress handle.slotIndex ∧
      ∀ other ∈ s.allocator.classes, Serves other size → sc.slotSize ≤ other.slotSize
  fails : ∀ size, s.allocator.allocate size = none ↔
    ∀ sc ∈ s.allocator.classes, ¬Serves sc size
  used : s.allocator.usedBytes = (s.live.map s.allocator.slotBytes).sum ∧
    s.allocator.stats.usedBytes = (s.live.map s.allocator.slotBytes).sum

namespace LedgerOk

variable {s : SlabRun}

theorem smallest_class (ok : LedgerOk s) {size ptr : Nat} {handle : SlabHandle}
    {after : SlabAllocator} (allocated : s.allocator.allocate size = some (handle, ptr, after)) :
    ∃ sc, s.allocator.classes[handle.classIndex]? = some sc ∧ Serves sc size ∧
      handle.slotIndex ∈ sc.freeList ∧ ptr = sc.slotAddress handle.slotIndex ∧
      ∀ other ∈ s.allocator.classes, Serves other size → sc.slotSize ≤ other.slotSize := by
  obtain ⟨i, sc, slot, rest, found, list, large, rfl, rfl, _, first⟩ := allocate_cases allocated
  refine ⟨sc, found, ⟨large, by simp [list]⟩, by simp [list], rfl, ?_⟩
  intro other member serves
  obtain ⟨k, foundK⟩ := List.mem_iff_getElem?.1 member
  rcases Nat.lt_trichotomy k i with before | rfl | later
  · exact absurd serves (first k other before foundK)
  · rw [found] at foundK
    cases foundK
    exact Nat.le_refl _
  · -- the classes are sorted, so a later one is no smaller
    obtain ⟨inI, valueI⟩ := List.getElem?_eq_some_iff.1 found
    obtain ⟨inK, valueK⟩ := List.getElem?_eq_some_iff.1 foundK
    have ordered := List.pairwise_iff_getElem.1 ok.sorted i k (by simpa using inI)
      (by simpa using inK) later
    simpa [valueI, valueK] using ordered

theorem correct (ok : LedgerOk s) : SlabCorrect s where
  inside l member := by
    obtain ⟨sc, found, _, large, above, below, bytes⟩ := ok.inside member
    exact ⟨sc, found, large, bytes, above, below⟩
  disjoint := by
    have different := List.pairwise_map.1 (List.nodup_iff_pairwise_ne.1 ok.handles)
    exact different.imp_of_mem fun inL inM => ok.apart inL inM
  release l member ptr above below := by
    have inSlot : s.allocator.contains ptr l = true := by
      simp [contains, above, below]
    exact ⟨(ok.contained member inSlot).2.1, ok.free_by_ptr_is_free member inSlot⟩
  partition i sc found := ⟨ok.frees.nodup i sc found, ok.partition i sc found⟩
  smallest _ _ _ _ allocated := ok.smallest_class allocated
  fails _ := allocate_none
  used := by
    rw [stats_used_bytes, used_bytes_exact ok.layout ok.frees, ok.used]
    exact ⟨rfl, rfl⟩

end LedgerOk

/-- In every history of a constructed allocator whose releases name live
allocations, the ledger and the free lists agree about every slot. -/
theorem slab_history_correct {s : SlabRun} (reached : Reach slabMachine s) : SlabCorrect s :=
  (reach_ledger reached).correct

def twoClasses : SlabAllocator :=
  { classes := [initClass 32 16 4096, initClass 32 16 8192], totalBytes := 64 }

theorem two_classes_cases {i : Nat} {sc : SizeClass} (found : twoClasses.classes[i]? = some sc) :
    i = 0 ∧ sc = initClass 32 16 4096 ∨ i = 1 ∧ sc = initClass 32 16 8192 := by
  match i with
  | 0 => exact .inl ⟨rfl, (Option.some.inj found).symm⟩
  | 1 => exact .inr ⟨rfl, (Option.some.inj found).symm⟩
  | i + 2 => simp [twoClasses] at found

theorem two_classes_backed : Backed twoClasses where
  nonnull i sc found := by
    rcases two_classes_cases found with ⟨_, rfl⟩ | ⟨_, rfl⟩ <;> decide
  addressable i sc found := by
    rcases two_classes_cases found with ⟨_, rfl⟩ | ⟨_, rfl⟩ <;> decide
  apart i k si sk foundI foundK different := by
    rcases two_classes_cases foundI with ⟨rfl, rfl⟩ | ⟨rfl, rfl⟩ <;>
      rcases two_classes_cases foundK with ⟨rfl, rfl⟩ | ⟨rfl, rfl⟩ <;>
      first | contradiction | decide

def spilledRun : SlabRun :=
  last slabMachine { allocator := twoClasses } [.allocate 10, .allocate 16, .allocate 1, .freeByPtr 4100]

theorem slab_history_correct_spilled : SlabCorrect spilledRun ∧ spilledRun.live.length = 2 := by
  let config : DramCacheConfig := { sizeBytes := 64, sizeClasses := [16, 16] }
  have made : initClasses config (fun i => 4096 * (i + 1)) = some twoClasses := by decide +kernel
  have start : Reach slabMachine { allocator := twoClasses } :=
    .start ⟨_, _, _, made, two_classes_backed, rfl⟩
  exact ⟨slab_history_correct (start.to_last _ (by decide +kernel)), by decide +kernel⟩

end AttentionDB
