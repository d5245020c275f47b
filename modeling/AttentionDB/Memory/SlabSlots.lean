import AttentionDB.Memory.SlabAllocator
import AttentionDB.Lib.Intervals
import Mathlib.Algebra.Order.BigOperators.Group.List
import Mathlib.Algebra.Order.Group.Nat

/-!
# Slots by address

The engine only keeps the address of a slot. Under the layout that the system
returns (regions apart, addressable and non-null) an address names one slot, so
the allocator is a set of free addresses: `allocate` takes one out and
`freeByPtr` puts one back.
-/

namespace AttentionDB.SlabAllocator

open Intervals

set_option autoImplicit false

structure LayoutOk (a : SlabAllocator) : Prop where
  positive : ∀ (i : Nat) (sc : SizeClass), a.classes[i]? = some sc → 0 < sc.slotSize
  nonnull : ∀ (i : Nat) (sc : SizeClass), a.classes[i]? = some sc → 0 < sc.base
  addressable : ∀ (i : Nat) (sc : SizeClass), a.classes[i]? = some sc →
    sc.base + sc.slotSize * sc.numSlots ≤ 2 ^ 64
  slotsFit : ∀ (i : Nat) (sc : SizeClass), a.classes[i]? = some sc → sc.numSlots ≤ 2 ^ 32
  apart : ∀ (i k : Nat) (si sk : SizeClass), a.classes[i]? = some si → a.classes[k]? = some sk → i ≠ k →
    si.base + si.slotSize * si.numSlots ≤ sk.base ∨ sk.base + sk.slotSize * sk.numSlots ≤ si.base

/-- Every free list names existing slots, each at most once. -/
structure FreeOk (a : SlabAllocator) : Prop where
  nodup : ∀ (i : Nat) (sc : SizeClass), a.classes[i]? = some sc → sc.freeList.Nodup
  inRange : ∀ (i : Nat) (sc : SizeClass), a.classes[i]? = some sc → ∀ slot ∈ sc.freeList, slot < sc.numSlots

def IsSlot (a : SlabAllocator) (ptr size : Nat) : Prop :=
  ∃ (i : Nat) (sc : SizeClass) (slot : Nat), a.classes[i]? = some sc ∧ slot < sc.numSlots ∧
    ptr = sc.slotAddress slot ∧
    size = sc.slotSize

def IsFree (a : SlabAllocator) (ptr : Nat) : Prop :=
  ∃ (i : Nat) (sc : SizeClass) (slot : Nat), a.classes[i]? = some sc ∧ slot ∈ sc.freeList ∧
    ptr = sc.slotAddress slot

def slotSizeAt (a : SlabAllocator) (ptr : Nat) : Nat :=
  ((a.classes.findIdx? (·.holds ptr)).bind (a.classes[·]?)).elim 0 SizeClass.slotSize

/-! ## One address, one slot -/

theorem slot_address_in_region {sc : SizeClass} {slot : Nat} (bound : slot < sc.numSlots) :
    sc.base ≤ sc.slotAddress slot ∧
      sc.slotAddress slot + sc.slotSize ≤ sc.base + sc.slotSize * sc.numSlots := by
  have product : (slot + 1) * sc.slotSize ≤ sc.numSlots * sc.slotSize :=
    Nat.mul_le_mul_right _ bound
  have expanded : (slot + 1) * sc.slotSize = slot * sc.slotSize + sc.slotSize := Nat.succ_mul _ _
  have commuted : sc.slotSize * sc.numSlots = sc.numSlots * sc.slotSize := Nat.mul_comm _ _
  unfold SizeClass.slotAddress
  omega

theorem slot_address_injective {a : SlabAllocator} (layout : LayoutOk a) {i k : Nat}
    {si sk : SizeClass} {s t : Nat} (foundI : a.classes[i]? = some si)
    (foundK : a.classes[k]? = some sk) (boundS : s < si.numSlots) (boundT : t < sk.numSlots)
    (same : si.slotAddress s = sk.slotAddress t) : i = k ∧ s = t := by
  have inI := slot_address_in_region boundS
  have inK := slot_address_in_region boundT
  have positive := layout.positive i si foundI
  have indices : i = k := by
    by_contra different
    have separate := layout.apart i k si sk foundI foundK different
    have positiveK := layout.positive k sk foundK
    omega
  subst indices
  rw [foundI] at foundK
  cases foundK
  refine ⟨rfl, ?_⟩
  have products : s * si.slotSize = t * si.slotSize := by
    unfold SizeClass.slotAddress at same
    omega
  exact Nat.eq_of_mul_eq_mul_right positive products

theorem holds_iff (sc : SizeClass) (ptr : Nat) :
    sc.holds ptr = true ↔ sc.base ≤ ptr ∧ ptr < sc.base + sc.slotSize * sc.numSlots := by
  simp [SizeClass.holds]

/-- The reverse lookup stops at the class of the slot that the address lies in. -/
theorem find_class_inside {a : SlabAllocator} (layout : LayoutOk a) {i slot ptr : Nat}
    {sc : SizeClass} (found : a.classes[i]? = some sc) (bound : slot < sc.numSlots)
    (above : sc.slotAddress slot ≤ ptr) (below : ptr < sc.slotAddress slot + sc.slotSize) :
    a.classes.findIdx? (·.holds ptr) = some i := by
  have inside := slot_address_in_region bound
  obtain ⟨inList, value⟩ := List.getElem?_eq_some_iff.1 found
  rw [List.findIdx?_eq_some_iff_getElem]
  refine ⟨inList, ?_, ?_⟩
  · rw [value, holds_iff]
    omega
  · intro k before holds
    have kFound : a.classes[k]? = some a.classes[k] := List.getElem?_eq_getElem (by omega)
    have separate := layout.apart i k sc _ found kFound (by omega)
    rw [holds_iff] at holds
    omega

theorem slot_size_at {a : SlabAllocator} (layout : LayoutOk a) {ptr size : Nat}
    (slot : IsSlot a ptr size) : a.slotSizeAt ptr = size := by
  obtain ⟨i, sc, s, found, bound, rfl, rfl⟩ := slot
  have below : sc.slotAddress s < sc.slotAddress s + sc.slotSize :=
    Nat.lt_add_of_pos_right (layout.positive i sc found)
  simp [slotSizeAt, find_class_inside layout found bound (Nat.le_refl _) below, found]

theorem is_slot_bounds {a : SlabAllocator} (layout : LayoutOk a) {ptr size : Nat}
    (slot : IsSlot a ptr size) : 0 < ptr ∧ ptr + size ≤ 2 ^ 64 ∧ 0 < size := by
  obtain ⟨i, sc, s, found, bound, rfl, rfl⟩ := slot
  have inside := slot_address_in_region bound
  have nonnull := layout.nonnull i sc found
  have addressable := layout.addressable i sc found
  exact ⟨by omega, by omega, layout.positive i sc found⟩

/-- Two slots at different addresses share no byte. -/
theorem slots_apart {a : SlabAllocator} (layout : LayoutOk a) {p q sizeP sizeQ : Nat}
    (slotP : IsSlot a p sizeP) (slotQ : IsSlot a q sizeQ) (different : p ≠ q) :
    p + sizeP ≤ q ∨ q + sizeQ ≤ p := by
  obtain ⟨i, si, s, foundI, boundS, rfl, rfl⟩ := slotP
  obtain ⟨k, sk, t, foundK, boundT, rfl, rfl⟩ := slotQ
  have inI := slot_address_in_region boundS
  have inK := slot_address_in_region boundT
  by_cases sameClass : i = k
  · subst sameClass
    rw [foundI] at foundK
    cases foundK
    have slots : s ≠ t := by
      rintro rfl
      exact different rfl
    unfold SizeClass.slotAddress
    rcases Nat.lt_or_gt_of_ne slots with less | greater
    · have product : (s + 1) * si.slotSize ≤ t * si.slotSize := Nat.mul_le_mul_right _ less
      have expanded : (s + 1) * si.slotSize = s * si.slotSize + si.slotSize := Nat.succ_mul _ _
      omega
    · have product : (t + 1) * si.slotSize ≤ s * si.slotSize := Nat.mul_le_mul_right _ greater
      have expanded : (t + 1) * si.slotSize = t * si.slotSize + si.slotSize := Nat.succ_mul _ _
      omega
  · have separate := layout.apart i k si sk foundI foundK sameClass
    omega

/-! ## Changing one free list -/

theorem with_free_list_lookup (a : SlabAllocator) (i k : Nat) (change : List Nat → List Nat)
    (sc : SizeClass) : (a.withFreeList i change).classes[k]? = some sc ↔
      ∃ old, a.classes[k]? = some old ∧
        sc = { old with freeList := if i = k then change old.freeList else old.freeList } := by
  simp only [withFreeList, List.getElem?_modify, Option.map_eq_map, Option.map_eq_some_iff]
  constructor
  · rintro ⟨old, found, rfl⟩
    refine ⟨old, found, ?_⟩
    split_ifs <;> rfl
  · rintro ⟨old, found, rfl⟩
    refine ⟨old, found, ?_⟩
    split_ifs <;> rfl

theorem layout_with_free_list {a : SlabAllocator} (i : Nat) (change : List Nat → List Nat)
    (layout : LayoutOk a) : LayoutOk (a.withFreeList i change) := by
  constructor
  · intro k sc found
    obtain ⟨old, was, rfl⟩ := (with_free_list_lookup a i k change sc).1 found
    exact layout.positive k old was
  · intro k sc found
    obtain ⟨old, was, rfl⟩ := (with_free_list_lookup a i k change sc).1 found
    exact layout.nonnull k old was
  · intro k sc found
    obtain ⟨old, was, rfl⟩ := (with_free_list_lookup a i k change sc).1 found
    exact layout.addressable k old was
  · intro k sc found
    obtain ⟨old, was, rfl⟩ := (with_free_list_lookup a i k change sc).1 found
    exact layout.slotsFit k old was
  · intro k l sk sl foundK foundL different
    obtain ⟨oldK, wasK, rfl⟩ := (with_free_list_lookup a i k change sk).1 foundK
    obtain ⟨oldL, wasL, rfl⟩ := (with_free_list_lookup a i l change sl).1 foundL
    exact layout.apart k l oldK oldL wasK wasL different

theorem is_slot_with_free_list (a : SlabAllocator) (i : Nat) (change : List Nat → List Nat)
    (ptr size : Nat) : IsSlot (a.withFreeList i change) ptr size ↔ IsSlot a ptr size := by
  constructor
  · rintro ⟨k, sc, slot, found, bound, rfl, rfl⟩
    obtain ⟨old, was, rfl⟩ := (with_free_list_lookup a i k change sc).1 found
    exact ⟨k, old, slot, was, bound, rfl, rfl⟩
  · rintro ⟨k, sc, slot, found, bound, rfl, rfl⟩
    exact ⟨k, _, slot, (with_free_list_lookup a i k change _).2 ⟨sc, found, rfl⟩, bound, rfl, rfl⟩

theorem is_free_with_free_list {a : SlabAllocator} {i : Nat} {sc : SizeClass}
    (found : a.classes[i]? = some sc) (change : List Nat → List Nat) (ptr : Nat) :
    IsFree (a.withFreeList i change) ptr ↔
      (∃ slot ∈ change sc.freeList, ptr = sc.slotAddress slot) ∨
        ∃ (k : Nat) (other : SizeClass) (slot : Nat), i ≠ k ∧ a.classes[k]? = some other ∧
          slot ∈ other.freeList ∧ ptr = other.slotAddress slot := by
  constructor
  · rintro ⟨k, after, slot, foundK, member, rfl⟩
    obtain ⟨old, was, rfl⟩ := (with_free_list_lookup a i k change after).1 foundK
    by_cases same : i = k
    · subst same
      rw [found] at was
      cases was
      exact .inl ⟨slot, by simpa using member, rfl⟩
    · exact .inr ⟨k, old, slot, same, was, by simpa [same] using member, rfl⟩
  · rintro (⟨slot, member, rfl⟩ | ⟨k, other, slot, different, was, member, rfl⟩)
    · exact ⟨i, _, slot, (with_free_list_lookup a i i change _).2 ⟨sc, found, rfl⟩,
        by simpa using member, rfl⟩
    · exact ⟨k, _, slot, (with_free_list_lookup a i k change _).2 ⟨other, was, rfl⟩,
        by simpa [different] using member, rfl⟩

theorem free_ok_with_free_list {a : SlabAllocator} {i : Nat} {sc : SizeClass}
    {change : List Nat → List Nat} (frees : FreeOk a) (found : a.classes[i]? = some sc)
    (nodup : (change sc.freeList).Nodup) (inRange : ∀ slot ∈ change sc.freeList, slot < sc.numSlots) :
    FreeOk (a.withFreeList i change) := by
  constructor
  · intro k after foundK
    obtain ⟨old, was, rfl⟩ := (with_free_list_lookup a i k change after).1 foundK
    by_cases same : i = k
    · subst same
      rw [found] at was
      cases was
      simpa using nodup
    · simpa [same] using frees.nodup k old was
  · intro k after foundK
    obtain ⟨old, was, rfl⟩ := (with_free_list_lookup a i k change after).1 foundK
    by_cases same : i = k
    · subst same
      rw [found] at was
      cases was
      simpa using inRange
    · simpa [same] using frees.inRange k old was

/-! ## Counting the used bytes -/

def usedTotal (a : SlabAllocator) : Nat :=
  (a.classes.map fun sc => (sc.numSlots - sc.freeList.length) * sc.slotSize).sum

theorem free_list_length_le {a : SlabAllocator} (frees : FreeOk a) {i : Nat} {sc : SizeClass}
    (found : a.classes[i]? = some sc) : sc.freeList.length ≤ sc.numSlots := by
  have subset : sc.freeList ⊆ List.range sc.numSlots := by
    intro slot member
    exact List.mem_range.2 (frees.inRange i sc found slot member)
  have bound := (frees.nodup i sc found).length_le_of_subset subset
  simpa using bound

theorem used_slots_exact {a : SlabAllocator} (layout : LayoutOk a) (frees : FreeOk a) {i : Nat}
    {sc : SizeClass} (found : a.classes[i]? = some sc) :
    sc.usedSlots = sc.numSlots - sc.freeList.length := by
  have short := free_list_length_le frees found
  have fits := layout.slotsFit i sc found
  unfold SizeClass.usedSlots
  omega

theorem regions_total {a : SlabAllocator} (layout : LayoutOk a) :
    (a.classes.map fun sc => sc.slotSize * sc.numSlots).sum < 2 ^ 64 := by
  let region : SizeClass → Intervals.Interval := fun sc => ⟨sc.base, sc.slotSize * sc.numSlots⟩
  have lengths : (a.classes.map fun sc => sc.slotSize * sc.numSlots) =
      (a.classes.map region).map Intervals.Interval.length := by
    simp [region, Function.comp_def]
  have inside : ∀ r ∈ a.classes.map region, 1 ≤ r.start ∧ r.stop ≤ 2 ^ 64 := by
    intro r member
    obtain ⟨sc, inList, rfl⟩ := List.mem_map.1 member
    obtain ⟨i, found⟩ := List.mem_iff_getElem?.1 inList
    exact ⟨layout.nonnull i sc found, layout.addressable i sc found⟩
  have apart : (a.classes.map region).Pairwise Intervals.Interval.Apart := by
    rw [List.pairwise_map, List.pairwise_iff_getElem]
    intro i k boundI boundK before
    exact layout.apart i k _ _ (List.getElem?_eq_getElem boundI) (List.getElem?_eq_getElem boundK)
      (by omega)
  rw [lengths]
  have total := sum_lengths_le _ 1 (2 ^ 64) inside apart
  omega

/-- With sound free lists neither the subtraction nor the sum wraps. -/
theorem used_bytes_exact {a : SlabAllocator} (layout : LayoutOk a) (frees : FreeOk a) :
    a.usedBytes = a.usedTotal := by
  have slots : (a.classes.map fun sc => sc.usedSlots * sc.slotSize) =
      a.classes.map fun sc => (sc.numSlots - sc.freeList.length) * sc.slotSize := by
    apply List.map_congr_left
    intro sc member
    obtain ⟨i, found⟩ := List.mem_iff_getElem?.1 member
    rw [used_slots_exact layout frees found]
  have bounded : a.usedTotal ≤ (a.classes.map fun sc => sc.slotSize * sc.numSlots).sum := by
    apply List.sum_le_sum
    intro sc _
    rw [Nat.mul_comm sc.slotSize]
    exact Nat.mul_le_mul_right _ (Nat.sub_le _ _)
  have total := regions_total layout
  unfold usedBytes
  rw [slots]
  exact Nat.mod_eq_of_lt (by unfold usedTotal at bounded; omega)

/-- Where every slot is free no byte is in use. -/
theorem all_free_unused {a : SlabAllocator} (layout : LayoutOk a) (frees : FreeOk a)
    (allFree : ∀ ptr size, IsSlot a ptr size → IsFree a ptr) : a.usedTotal = 0 := by
  unfold usedTotal
  apply List.sum_eq_zero
  intro used member
  rcases List.mem_map.1 member with ⟨sc, inList, rfl⟩
  obtain ⟨i, found⟩ := List.mem_iff_getElem?.1 inList
  have listed : List.range sc.numSlots ⊆ sc.freeList := by
    intro slot inRange
    have bound := List.mem_range.1 inRange
    rcases allFree _ _ ⟨i, sc, slot, found, bound, rfl, rfl⟩ with ⟨k, other, free, was, isFree, same⟩
    have freeBound := frees.inRange k other was free isFree
    rcases slot_address_injective layout found was bound freeBound same with ⟨rfl, rfl⟩
    rw [found] at was
    cases was
    exact isFree
  have enough := List.nodup_range.length_le_of_subset listed
  rw [List.length_range] at enough
  rw [Nat.sub_eq_zero_of_le enough, Nat.zero_mul]

theorem slot_size_at_with_free_list (a : SlabAllocator) (i : Nat) (change : List Nat → List Nat)
    (ptr : Nat) : (a.withFreeList i change).slotSizeAt ptr = a.slotSizeAt ptr := by
  have sameIndex : (a.withFreeList i change).classes.findIdx? (·.holds ptr) =
      a.classes.findIdx? (·.holds ptr) := by
    have sameHolds : (a.withFreeList i change).classes.map (·.holds ptr) =
        a.classes.map (·.holds ptr) := by
      apply List.ext_getElem?
      intro k
      simp only [withFreeList, List.getElem?_map, List.getElem?_modify]
      cases a.classes[k]? with
      | none => rfl
      | some sc =>
          simp only [Option.map_eq_map, Option.map_some]
          split_ifs <;> rfl
    have viaMap : ∀ classes : List SizeClass, classes.findIdx? (·.holds ptr) =
        (classes.map (·.holds ptr)).findIdx? id := by
      intro classes
      simp [List.findIdx?_map]
    rw [viaMap, viaMap, sameHolds]
  unfold slotSizeAt
  rw [sameIndex]
  cases a.classes.findIdx? (·.holds ptr) with
  | none => rfl
  | some k =>
      simp only [Option.bind_some, withFreeList, List.getElem?_modify]
      cases a.classes[k]? with
      | none => rfl
      | some sc =>
          simp only [Option.map_eq_map, Option.map_some, Option.elim_some]
          split_ifs <;> rfl

/-! ## The three calls, by address -/

/-- What a successful `allocate` does: it hands out a free slot that is large
enough, and only that slot stops being free. -/
structure Allocated (a : SlabAllocator) (size ptr : Nat) (after : SlabAllocator) : Prop where
  wasFree : IsFree a ptr
  slot : ∃ slotSize, IsSlot a ptr slotSize ∧ size ≤ slotSize ∧
    after.usedTotal = a.usedTotal + slotSize
  sameSlots : ∀ q s, IsSlot after q s ↔ IsSlot a q s
  sameSizes : ∀ q, after.slotSizeAt q = a.slotSizeAt q
  sameCapacity : after.totalCapacity = a.totalCapacity
  layout : LayoutOk after
  frees : FreeOk after
  freeIff : ∀ q, IsFree after q ↔ IsFree a q ∧ q ≠ ptr

/-- Taking the back of the free list of any class that is large enough. -/
theorem take_spec {a : SlabAllocator} {i slot size : Nat} {sc : SizeClass} {free : List Nat}
    (layout : LayoutOk a) (frees : FreeOk a) (found : a.classes[i]? = some sc)
    (list : sc.freeList = slot :: free) (large : size ≤ sc.slotSize) :
    Allocated a size (sc.slotAddress slot) (a.withFreeList i List.tail) := by
  have nodup := frees.nodup i sc found
  have inRange := frees.inRange i sc found
  rw [list] at nodup inRange
  obtain ⟨notAgain, restNodup⟩ := List.nodup_cons.1 nodup
  have bound : slot < sc.numSlots := inRange slot (by simp)
  refine
    { wasFree := ⟨i, sc, slot, found, by simp [list], rfl⟩
      slot := ⟨sc.slotSize, ⟨i, sc, slot, found, bound, rfl, rfl⟩, large, ?_⟩
      sameSlots := is_slot_with_free_list a i List.tail
      sameSizes := slot_size_at_with_free_list a i List.tail
      sameCapacity := rfl
      layout := layout_with_free_list i List.tail layout
      frees := free_ok_with_free_list frees found (by simpa [list] using restNodup)
        (by intro s member; exact inRange s (by simp [list] at member; simp [member]))
      freeIff := ?_ }
  · have sums := ListSums.sum_map_modify
      (fun sc : SizeClass => (sc.numSlots - sc.freeList.length) * sc.slotSize)
      (fun sc => { sc with freeList := sc.freeList.tail }) a.classes i sc found
    have short := free_list_length_le frees found
    simp only [list, List.tail_cons, List.length_cons] at sums short
    have more : sc.numSlots - free.length = sc.numSlots - (free.length + 1) + 1 := by omega
    rw [more, Nat.succ_mul] at sums
    simp only [usedTotal, withFreeList]
    omega
  · intro q
    rw [is_free_with_free_list found]
    constructor
    · rintro (⟨s, member, rfl⟩ | ⟨k, other, s, different, was, member, rfl⟩)
      · have inRest : s ∈ free := by simpa [list] using member
        refine ⟨⟨i, sc, s, found, by simp [list, inRest], rfl⟩, ?_⟩
        intro same
        obtain ⟨_, rfl⟩ := slot_address_injective layout found found
          (inRange s (by simp [inRest])) bound same
        exact notAgain inRest
      · refine ⟨⟨k, other, s, was, member, rfl⟩, ?_⟩
        intro same
        obtain ⟨rfl, _⟩ := slot_address_injective layout was found
          (frees.inRange k other was s member) bound same
        exact different rfl
    · rintro ⟨⟨k, other, s, was, member, rfl⟩, notPtr⟩
      by_cases same : i = k
      · subst same
        rw [found] at was
        cases was
        rw [list] at member
        rcases List.mem_cons.1 member with rfl | inRest
        · exact absurd rfl notPtr
        · exact .inl ⟨s, by simpa [list] using inRest, rfl⟩
      · exact .inr ⟨k, other, s, same, was, member, rfl⟩

theorem allocate_spec {a after : SlabAllocator} {size ptr : Nat} {handle : SlabHandle}
    (layout : LayoutOk a) (frees : FreeOk a)
    (allocated : a.allocate size = some (handle, ptr, after)) : Allocated a size ptr after := by
  simp only [allocate, Option.bind_eq_bind, Option.bind_eq_some_iff, Option.some.injEq,
    Prod.mk.injEq] at allocated
  obtain ⟨i, index, sc, found, slot, head, rfl, rfl, rfl⟩ := allocated
  obtain ⟨free, list⟩ := List.head?_eq_some_iff.1 head
  have large : size ≤ sc.slotSize := by
    obtain ⟨inList, picked, _⟩ := List.findIdx?_eq_some_iff_getElem.1 index
    obtain ⟨_, value⟩ := List.getElem?_eq_some_iff.1 found
    rw [value] at picked
    simp only [Bool.and_eq_true, decide_eq_true_eq] at picked
    exact picked.1
  exact take_spec layout frees found list large

/-- What `free_by_ptr` does with the start of an allocated slot: that slot,
and only that one, becomes free. -/
structure Released (a : SlabAllocator) (ptr : Nat) (after : SlabAllocator) : Prop where
  used : after.usedTotal + a.slotSizeAt ptr = a.usedTotal
  sameSlots : ∀ q s, IsSlot after q s ↔ IsSlot a q s
  sameSizes : ∀ q, after.slotSizeAt q = a.slotSizeAt q
  sameCapacity : after.totalCapacity = a.totalCapacity
  layout : LayoutOk after
  frees : FreeOk after
  freeIff : ∀ q, IsFree after q ↔ IsFree a q ∨ q = ptr

/-- The division finds the slot from any address in it. -/
theorem slot_at_offset {a : SlabAllocator} (layout : LayoutOk a) {i slot ptr : Nat}
    {sc : SizeClass} (found : a.classes[i]? = some sc) (bound : slot < sc.numSlots)
    (above : sc.slotAddress slot ≤ ptr) (below : ptr < sc.slotAddress slot + sc.slotSize) :
    (ptr - sc.base) / sc.slotSize % 2 ^ 32 = slot := by
  have fits := layout.slotsFit i sc found
  have offset : ptr - sc.base = slot * sc.slotSize + (ptr - sc.slotAddress slot) := by
    unfold SizeClass.slotAddress at above ⊢
    omega
  have quotient : (ptr - sc.base) / sc.slotSize = slot := by
    rw [offset, Nat.mul_comm, Nat.mul_add_div (layout.positive i sc found),
      Nat.div_eq_of_lt (by omega), Nat.add_zero]
  rw [quotient]
  exact Nat.mod_eq_of_lt (by omega)

/-- The reverse lookup finds the class and the slot from any address in it. -/
theorem free_by_ptr_inside {a : SlabAllocator} (layout : LayoutOk a) {i slot ptr : Nat}
    {sc : SizeClass} (found : a.classes[i]? = some sc) (bound : slot < sc.numSlots)
    (above : sc.slotAddress slot ≤ ptr) (below : ptr < sc.slotAddress slot + sc.slotSize) :
    a.freeByPtr ptr = a.pushFree i slot := by
  have nonnull := layout.nonnull i sc found
  have holding := find_class_inside layout found bound above below
  have notNull : ptr ≠ 0 := by
    unfold SizeClass.slotAddress at above
    omega
  simp only [freeByPtr, notNull, if_false, holding, found,
    slot_at_offset layout found bound above below]

theorem free_by_ptr_slot {a : SlabAllocator} (layout : LayoutOk a) {i slot : Nat} {sc : SizeClass}
    (found : a.classes[i]? = some sc) (bound : slot < sc.numSlots) :
    a.freeByPtr (sc.slotAddress slot) = a.pushFree i slot := by
  have positive := layout.positive i sc found
  exact free_by_ptr_inside layout found bound (Nat.le_refl _) (Nat.lt_add_of_pos_right positive)

theorem free_by_ptr_spec {a : SlabAllocator} {ptr size : Nat} (layout : LayoutOk a)
    (frees : FreeOk a) (slot : IsSlot a ptr size) (allocated : ¬IsFree a ptr) :
    Released a ptr (a.freeByPtr ptr) := by
  have sizeAt := slot_size_at layout slot
  obtain ⟨i, sc, s, found, bound, rfl, rfl⟩ := slot
  rw [free_by_ptr_slot layout found bound]
  have notListed : s ∉ sc.freeList := by
    intro member
    exact allocated ⟨i, sc, s, found, member, rfl⟩
  have nodup : (s :: sc.freeList).Nodup := List.nodup_cons.2 ⟨notListed, frees.nodup i sc found⟩
  have inRange : ∀ t ∈ s :: sc.freeList, t < sc.numSlots := by
    intro t member
    rcases List.mem_cons.1 member with rfl | old
    · exact bound
    · exact frees.inRange i sc found t old
  have freesAfter : FreeOk (a.pushFree i s) := free_ok_with_free_list frees found nodup inRange
  refine
    { used := ?_
      sameSlots := is_slot_with_free_list a i (s :: ·)
      sameSizes := slot_size_at_with_free_list a i (s :: ·)
      sameCapacity := rfl
      layout := layout_with_free_list i (s :: ·) layout
      frees := freesAfter
      freeIff := ?_ }
  · have sums := ListSums.sum_map_modify
      (fun sc : SizeClass => (sc.numSlots - sc.freeList.length) * sc.slotSize)
      (fun sc => { sc with freeList := s :: sc.freeList }) a.classes i sc found
    have short := free_list_length_le freesAfter
      ((with_free_list_lookup a i i (s :: ·) _).2 ⟨sc, found, rfl⟩)
    simp only [if_true, List.length_cons] at short sums
    have more : sc.numSlots - sc.freeList.length = sc.numSlots - (sc.freeList.length + 1) + 1 := by
      omega
    rw [more, Nat.succ_mul] at sums
    rw [sizeAt]
    simp only [usedTotal, pushFree, withFreeList]
    omega
  · intro q
    rw [pushFree, is_free_with_free_list found]
    constructor
    · rintro (⟨t, member, rfl⟩ | ⟨k, other, t, different, was, member, rfl⟩)
      · rcases List.mem_cons.1 member with rfl | old
        · exact .inr rfl
        · exact .inl ⟨i, sc, t, found, old, rfl⟩
      · exact .inl ⟨k, other, t, was, member, rfl⟩
    · rintro (⟨k, other, t, was, member, rfl⟩ | rfl)
      · by_cases same : i = k
        · subst same
          rw [found] at was
          cases was
          exact .inl ⟨t, by simp [member], rfl⟩
        · exact .inr ⟨k, other, t, same, was, member, rfl⟩
      · exact .inl ⟨s, by simp, rfl⟩

/-! ## Free lists that may repeat a slot -/

/-- What is left of the two invariants when a slot may be released twice. -/
structure SlotsOk (a : SlabAllocator) : Prop where
  layout : LayoutOk a
  inRange : ∀ (i : Nat) (sc : SizeClass), a.classes[i]? = some sc →
    ∀ slot ∈ sc.freeList, slot < sc.numSlots

theorem slots_ok_with_free_list {a : SlabAllocator} {i : Nat} {change : List Nat → List Nat}
    (ok : SlotsOk a) (inRange : ∀ sc, a.classes[i]? = some sc →
      ∀ slot ∈ change sc.freeList, slot < sc.numSlots) : SlotsOk (a.withFreeList i change) where
  layout := layout_with_free_list i change ok.layout
  inRange := by
    intro k after found
    rcases (with_free_list_lookup a i k change after).1 found with ⟨old, was, rfl⟩
    by_cases same : i = k
    · subst same
      simpa using inRange old was
    · simpa [same] using ok.inRange k old was

/-- `allocate` hands out a slot that is large enough and moves none. -/
theorem allocate_slots {a after : SlabAllocator} {size ptr : Nat} {handle : SlabHandle}
    (ok : SlotsOk a) (allocated : a.allocate size = some (handle, ptr, after)) :
    SlotsOk after ∧ (∃ slotSize, IsSlot a ptr slotSize ∧ size ≤ slotSize) ∧
      ∀ q s, IsSlot after q s ↔ IsSlot a q s := by
  simp only [allocate, Option.bind_eq_bind, Option.bind_eq_some_iff, Option.some.injEq,
    Prod.mk.injEq] at allocated
  rcases allocated with ⟨i, index, sc, found, slot, head, rfl, rfl, rfl⟩
  have listed : slot ∈ sc.freeList := List.mem_of_head? head
  have large : size ≤ sc.slotSize := by
    rcases List.findIdx?_eq_some_iff_getElem.1 index with ⟨_, picked, _⟩
    rcases List.getElem?_eq_some_iff.1 found with ⟨_, value⟩
    rw [value] at picked
    simp only [Bool.and_eq_true, decide_eq_true_eq] at picked
    exact picked.1
  refine ⟨slots_ok_with_free_list ok ?_, ⟨sc.slotSize, ?_, large⟩, is_slot_with_free_list a i List.tail⟩
  · intro other same s member
    exact ok.inRange i other same s (List.mem_of_mem_tail member)
  · exact ⟨i, sc, slot, found, ok.inRange i sc found slot listed, rfl, rfl⟩

/-- Whatever address is released, the free lists name existing slots. -/
theorem free_by_ptr_slots {a : SlabAllocator} (ok : SlotsOk a) (ptr : Nat) :
    SlotsOk (a.freeByPtr ptr) ∧ ∀ q s, IsSlot (a.freeByPtr ptr) q s ↔ IsSlot a q s := by
  unfold freeByPtr
  split
  · exact ⟨ok, fun _ _ => Iff.rfl⟩
  · split
    · exact ⟨ok, fun _ _ => Iff.rfl⟩
    · rename_i i index
      split
      · exact ⟨ok, fun _ _ => Iff.rfl⟩
      · rename_i sc found
        refine ⟨slots_ok_with_free_list ok ?_, is_slot_with_free_list a i _⟩
        intro other same slot member
        rw [found] at same
        cases same
        rcases List.mem_cons.1 member with rfl | old
        · rcases List.findIdx?_eq_some_iff_getElem.1 index with ⟨_, holds, _⟩
          rcases List.getElem?_eq_some_iff.1 found with ⟨_, value⟩
          rw [value, holds_iff] at holds
          have positive := ok.layout.positive i sc found
          have inside : (ptr - sc.base) / sc.slotSize < sc.numSlots := by
            rw [Nat.div_lt_iff_lt_mul positive, Nat.mul_comm]
            omega
          exact Nat.lt_of_le_of_lt (Nat.mod_le _ _) inside
        · exact ok.inRange i sc found slot old

/-! ## What the constructor leaves -/

/-- What the system promises about the regions it returns: none is null, each
lies in the address space, and no two share a byte. -/
structure Backed (a : SlabAllocator) : Prop where
  nonnull : ∀ (i : Nat) (sc : SizeClass), a.classes[i]? = some sc → 0 < sc.base
  addressable : ∀ (i : Nat) (sc : SizeClass), a.classes[i]? = some sc →
    sc.base + sc.slotSize * sc.numSlots ≤ 2 ^ 64
  apart : ∀ (i k : Nat) (si sk : SizeClass), a.classes[i]? = some si → a.classes[k]? = some sk →
    i ≠ k → si.base + si.slotSize * si.numSlots ≤ sk.base ∨
      sk.base + sk.slotSize * sk.numSlots ≤ si.base

section Constructed

variable {config : DramCacheConfig} {allocBacking : Nat → Nat} {a : SlabAllocator}

theorem init_classes_class (made : initClasses config allocBacking = some a) {i : Nat}
    {sc : SizeClass} (found : a.classes[i]? = some sc) :
    0 < sc.slotSize ∧ sc.numSlots < 2 ^ 31 ∧ sc.freeList = (List.range sc.numSlots).reverse := by
  simp only [initClasses] at made
  split at made
  · contradiction
  · rename_i accepted
    push Not at accepted
    rcases accepted with ⟨_, noZero, few⟩
    cases made
    simp only [List.getElem?_mapIdx, Option.map_eq_some_iff] at found
    rcases found with ⟨slotSize, listed, rfl⟩
    have member := List.mem_of_getElem? listed
    have positive : slotSize ≠ 0 := by
      rintro rfl
      exact noZero member
    exact ⟨Nat.pos_of_ne_zero positive, few slotSize member, rfl⟩

theorem init_classes_layout (made : initClasses config allocBacking = some a) (backed : Backed a) :
    LayoutOk a where
  positive _ _ found := (init_classes_class made found).1
  nonnull := backed.nonnull
  addressable := backed.addressable
  slotsFit _ _ found := by
    have few := (init_classes_class made found).2.1
    omega
  apart := backed.apart

theorem init_classes_free (made : initClasses config allocBacking = some a) : FreeOk a where
  nodup _ _ found := by
    rw [(init_classes_class made found).2.2]
    exact List.nodup_reverse.2 List.nodup_range
  inRange _ _ found := by
    rw [(init_classes_class made found).2.2]
    intro slot member
    simpa using member

theorem init_classes_unused (made : initClasses config allocBacking = some a) : a.usedTotal = 0 := by
  apply List.sum_eq_zero
  intro used member
  rcases List.mem_map.1 member with ⟨sc, inList, rfl⟩
  rcases List.mem_iff_getElem?.1 inList with ⟨i, found⟩
  rw [(init_classes_class made found).2.2]
  simp

theorem init_classes_all_free (made : initClasses config allocBacking = some a) {ptr size : Nat}
    (slot : IsSlot a ptr size) : IsFree a ptr := by
  rcases slot with ⟨i, sc, s, found, bound, rfl, rfl⟩
  refine ⟨i, sc, s, found, ?_, rfl⟩
  rw [(init_classes_class made found).2.2]
  simpa using bound

end Constructed

end AttentionDB.SlabAllocator
