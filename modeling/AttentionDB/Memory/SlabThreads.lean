import AttentionDB.Memory.SlabHistory
import Mathlib.Logic.Function.Basic

/-!
# Slab calls between threads

Every size class has a lock of its own. A call that walks the classes gives
the lock up between two of them, and `free_by_ptr` looks the address up before
it takes any. The other threads run in those gaps. The ledger is kept in two
parts here: what the callers hold, and the releases that were called and have
not put their slot back yet.
-/

namespace AttentionDB

open GuardedRuns

set_option autoImplicit false

inductive SlabPc where
  | idle
  /-- `allocate` is about to look at class `i`. -/
  | scan (size i : Nat)
  /-- A release knows its slot and is about to lock the class. -/
  | release (handle : SlabHandle)
  /-- `used_bytes` has counted the classes before `i`. -/
  | sum (i total : Nat)
  /-- `stats` has counted the classes it lists. -/
  | stats (seen : SlabAllocator.Stats)
  deriving DecidableEq, Repr

structure SlabThreads where
  allocator : SlabAllocator
  threads : Nat → SlabPc := fun _ => .idle
  live : List LiveSlot := []
  leaving : List LiveSlot := []
  /-- What `used_bytes` and `stats` have answered. -/
  totals : List Nat := []
  reports : List SlabAllocator.Stats := []

inductive SlabCall where
  | allocate (t size : Nat)
  | free (t : Nat) (handle : Option SlabHandle)
  | freeByPtr (t ptr : Nat)
  | usedBytes (t : Nat)
  | stats (t : Nat)
  | step (t : Nat)

namespace SlabAllocator

/-- The first half of `free_by_ptr`. It reads what construction fixed, and takes no lock. -/
def reverseLookup (a : SlabAllocator) (ptr : Nat) : Option SlabHandle := do
  let i ← a.classes.findIdx? (·.holds ptr)
  let sc ← a.classes[i]?
  some ⟨i, (ptr - sc.base) / sc.slotSize % 2 ^ 32⟩

theorem reverse_lookup_inside {a : SlabAllocator} (layout : LayoutOk a) {i slot ptr : Nat}
    {sc : SizeClass} (found : a.classes[i]? = some sc) (bound : slot < sc.numSlots)
    (above : sc.slotAddress slot ≤ ptr) (below : ptr < sc.slotAddress slot + sc.slotSize) :
    a.reverseLookup ptr = some ⟨i, slot⟩ := by
  simp only [reverseLookup, Option.bind_eq_bind, find_class_inside layout found bound above below,
    Option.bind_some, found, slot_at_offset layout found bound above below]

end SlabAllocator

namespace SlabThreads

def move (s : SlabThreads) (t : Nat) (pc : SlabPc) : SlabThreads :=
  { s with threads := Function.update s.threads t pc }

/-- A release is called for an allocation that is live, as in the sequential
histories. From here on the caller no longer holds it. -/
def leave (s : SlabThreads) (t : Nat) (handle : SlabHandle) (mine : LiveSlot → Bool) :
    Option SlabThreads := do
  let l ← s.live.find? mine
  some { s.move t (.release handle) with live := s.live.eraseP mine, leaving := l :: s.leaving }

def scanClass (s : SlabThreads) (t size i : Nat) : SlabThreads :=
  match s.allocator.classes[i]? with
  | none => s.move t .idle
  | some sc =>
      if sc.slotSize < size then s.move t (.scan size (i + 1))
      else
        match sc.freeList with
        | [] => s.move t (.scan size (i + 1))
        | slot :: _ =>
            { s.move t .idle with
              allocator := s.allocator.withFreeList i List.tail
              live := { handle := ⟨i, slot⟩, ptr := sc.slotAddress slot, size } :: s.live }

def pushBack (s : SlabThreads) (t : Nat) (handle : SlabHandle) : SlabThreads :=
  { s.move t .idle with
    allocator := s.allocator.free (some handle)
    leaving := s.leaving.eraseP (·.handle = handle) }

def sumClass (s : SlabThreads) (t i total : Nat) : SlabThreads :=
  match s.allocator.classes[i]? with
  | none => { s.move t .idle with totals := total :: s.totals }
  | some sc => s.move t (.sum (i + 1) ((total + sc.usedSlots * sc.slotSize) % 2 ^ 64))

def statsClass (s : SlabThreads) (t : Nat) (seen : SlabAllocator.Stats) : SlabThreads :=
  match s.allocator.classes[seen.classes.length]? with
  | none => { s.move t .idle with reports := seen :: s.reports }
  | some sc =>
      s.move t (.stats
        { seen with
          classes := seen.classes ++
            [{ slotSize := sc.slotSize, totalSlots := sc.numSlots, usedSlots := sc.usedSlots }]
          usedBytes := (seen.usedBytes + sc.usedSlots * sc.slotSize) % 2 ^ 64 })

/-- An idle thread makes a call, or a thread inside one runs its next critical
section. Null pointers, invalid handles and foreign addresses return at once. -/
def exec (s : SlabThreads) : SlabCall → Option SlabThreads
  | .allocate t size => if s.threads t = .idle then some (s.move t (.scan size 0)) else none
  | .free t handle =>
      if s.threads t = .idle then
        match handle with
        | none => some s
        | some handle => s.leave t handle (·.handle = handle)
      else none
  | .freeByPtr t ptr =>
      if s.threads t = .idle then
        if ptr = 0 then some s
        else
          match s.allocator.reverseLookup ptr with
          | none => some s
          | some handle => s.leave t handle (s.allocator.contains ptr)
      else none
  | .usedBytes t => if s.threads t = .idle then some (s.move t (.sum 0 0)) else none
  | .stats t =>
      if s.threads t = .idle then
        some (s.move t (.stats
          { totalBytes := s.allocator.totalBytes
            usedBytes := 0
            numClasses := s.allocator.classes.length
            classes := [] }))
      else none
  | .step t =>
      match s.threads t with
      | .idle => none
      | .scan size i => some (s.scanClass t size i)
      | .release handle => some (s.pushBack t handle)
      | .sum i total => some (s.sumClass t i total)
      | .stats seen => some (s.statsClass t seen)

def ledger (s : SlabThreads) : SlabRun :=
  { allocator := s.allocator, live := s.live ++ s.leaving }

end SlabThreads

def slabThreadMachine : Machine SlabThreads SlabCall where
  start s := ∃ config allocBacking a, initClasses config allocBacking = some a ∧
    SlabAllocator.Backed a ∧ s = { allocator := a }
  exec := SlabThreads.exec

namespace SlabAllocator

variable {a after : SlabAllocator}

def shape (a : SlabAllocator) : List (Nat × Nat) :=
  a.classes.map fun sc => (sc.slotSize, sc.numSlots)

def regionsBefore (a : SlabAllocator) (i : Nat) : Nat :=
  ((a.shape.take i).map fun size => size.1 * size.2).sum

theorem shape_with_free_list (a : SlabAllocator) (i : Nat) (change : List Nat → List Nat) :
    (a.withFreeList i change).shape = a.shape := by
  apply List.ext_getElem?
  intro k
  simp only [shape, withFreeList, List.getElem?_map, List.getElem?_modify]
  cases a.classes[k]? with
  | none => rfl
  | some sc =>
      simp only [Option.map_eq_map, Option.map_some]
      split_ifs <;> rfl

theorem shape_length (a : SlabAllocator) : a.shape.length = a.classes.length :=
  List.length_map _

theorem regions_before_shape (same : after.shape = a.shape) (i : Nat) :
    after.regionsBefore i = a.regionsBefore i := by
  simp only [regionsBefore, same]

theorem regions_before_succ {i : Nat} {sc : SizeClass} (found : a.classes[i]? = some sc) :
    a.regionsBefore (i + 1) = a.regionsBefore i + sc.slotSize * sc.numSlots := by
  have listed : a.shape[i]? = some (sc.slotSize, sc.numSlots) := by
    simp [shape, found]
  unfold regionsBefore
  rw [List.take_add_one, listed, Option.toList_some, List.map_append, List.sum_append]
  simp

theorem regions_before_le (a : SlabAllocator) (i : Nat) :
    a.regionsBefore i ≤ a.regionsBefore a.classes.length := by
  have all : a.shape.take a.classes.length = a.shape :=
    List.take_of_length_le (Nat.le_of_eq a.shape_length)
  unfold regionsBefore
  rw [all]
  exact ((List.take_sublist i a.shape).map _).sum_le_sum fun _ _ => Nat.zero_le _

theorem regions_before_all (a : SlabAllocator) :
    a.regionsBefore a.classes.length = (a.classes.map fun sc => sc.slotSize * sc.numSlots).sum := by
  have all : a.shape.take a.classes.length = a.shape :=
    List.take_of_length_le (Nat.le_of_eq a.shape_length)
  unfold regionsBefore
  rw [all, shape, List.map_map]
  rfl

theorem regions_before_small (layout : LayoutOk a) (i : Nat) : a.regionsBefore i < 2 ^ 64 := by
  have total := regions_total layout
  have part := regions_before_le a i
  rw [regions_before_all] at part
  omega

/-- A class adds no more than its region, so the count does not wrap. -/
theorem count_class (layout : LayoutOk a) (frees : FreeOk a) {i total : Nat} {sc : SizeClass}
    (found : a.classes[i]? = some sc) (counted : total ≤ a.regionsBefore i) :
    sc.usedSlots ≤ sc.numSlots ∧
      (total + sc.usedSlots * sc.slotSize) % 2 ^ 64 = total + sc.usedSlots * sc.slotSize ∧
      total + sc.usedSlots * sc.slotSize ≤ a.regionsBefore (i + 1) := by
  have few : sc.usedSlots ≤ sc.numSlots := by
    rw [used_slots_exact layout frees found]
    exact Nat.sub_le _ _
  have region : sc.usedSlots * sc.slotSize ≤ sc.slotSize * sc.numSlots := by
    rw [Nat.mul_comm sc.slotSize]
    exact Nat.mul_le_mul_right _ few
  have small := regions_before_small layout (i + 1)
  have next := regions_before_succ found
  exact ⟨few, Nat.mod_eq_of_lt (by omega), by omega⟩

/-- A report is about the first classes, and its total is the exact sum of
what it says about them. -/
structure StatsOk (a : SlabAllocator) (seen : Stats) : Prop where
  whole : seen.totalBytes = a.totalBytes ∧ seen.numClasses = a.classes.length
  sizes : (seen.classes.map fun c => (c.slotSize, c.totalSlots)) = a.shape.take seen.classes.length
  used : ∀ c ∈ seen.classes, c.usedSlots ≤ c.totalSlots
  sum : seen.usedBytes = (seen.classes.map fun c => c.usedSlots * c.slotSize).sum

theorem StatsOk.same_shape {seen : Stats} (ok : StatsOk a seen) (same : after.shape = a.shape)
    (sameTotal : after.totalBytes = a.totalBytes) : StatsOk after seen where
  whole := by
    rw [sameTotal, ← after.shape_length, same, a.shape_length]
    exact ok.whole
  sizes := by
    rw [same]
    exact ok.sizes
  used := ok.used
  sum := ok.sum

theorem StatsOk.bounded {seen : Stats} (ok : StatsOk a seen) :
    seen.usedBytes ≤ a.regionsBefore seen.classes.length := by
  have mapped : (seen.classes.map fun c => c.slotSize * c.totalSlots) =
      (a.shape.take seen.classes.length).map fun size => size.1 * size.2 := by
    rw [← ok.sizes, List.map_map]
    rfl
  unfold regionsBefore
  rw [ok.sum, ← mapped]
  apply List.sum_le_sum
  intro c member
  rw [Nat.mul_comm c.slotSize]
  exact Nat.mul_le_mul_right _ (ok.used c member)

theorem StatsOk.next {seen : Stats} {sc : SizeClass} (ok : StatsOk a seen) (layout : LayoutOk a)
    (frees : FreeOk a) (found : a.classes[seen.classes.length]? = some sc) :
    StatsOk a
      { seen with
        classes := seen.classes ++
          [{ slotSize := sc.slotSize, totalSlots := sc.numSlots, usedSlots := sc.usedSlots }]
        usedBytes := (seen.usedBytes + sc.usedSlots * sc.slotSize) % 2 ^ 64 } := by
  obtain ⟨few, exactSum, _⟩ := count_class layout frees found ok.bounded
  have listed : a.shape[seen.classes.length]? = some (sc.slotSize, sc.numSlots) := by
    simp [shape, found]
  refine { whole := ok.whole, sizes := ?_, used := ?_, sum := ?_ }
  · rw [List.map_append, ok.sizes, List.length_append, List.length_singleton, List.take_add_one,
      listed]
    rfl
  · intro c member
    rcases List.mem_append.1 member with old | new
    · exact ok.used c old
    · rw [List.mem_singleton.1 new]
      exact few
  · simp only [exactSum, List.map_append, List.sum_append, ← ok.sum, List.map_cons, List.map_nil,
      List.sum_cons, List.sum_nil, Nat.add_zero]

end SlabAllocator

open SlabAllocator

/-! ## The invariant -/

def SlabPc.Holds (a : SlabAllocator) (leaving : List LiveSlot) : SlabPc → Prop
  | .idle | .scan _ _ => True
  | .release handle => ∃ l ∈ leaving, l.handle = handle
  | .sum i total => total ≤ a.regionsBefore i
  | .stats seen => StatsOk a seen

theorem SlabPc.Holds.frame {a after : SlabAllocator} {leaving remaining : List LiveSlot}
    {pc : SlabPc} (holds : pc.Holds a leaving) (same : after.shape = a.shape)
    (sameTotal : after.totalBytes = a.totalBytes)
    (stays : ∀ handle, pc = .release handle → ∀ l ∈ leaving, l.handle = handle → l ∈ remaining) :
    pc.Holds after remaining := by
  cases pc with
  | idle => trivial
  | scan size i => trivial
  | release handle =>
      obtain ⟨l, member, isHandle⟩ := holds
      exact ⟨l, stays handle rfl l member isHandle, isHandle⟩
  | sum i total =>
      change total ≤ after.regionsBefore i
      rw [regions_before_shape same]
      exact holds
  | stats seen => exact StatsOk.same_shape holds same sameTotal

/-- Every slot is free, held by a caller or about to come back, and no two
threads bring back the same one. -/
structure SlabThreadsInv (s : SlabThreads) : Prop where
  ledger : LedgerOk s.ledger
  threads : ∀ t, (s.threads t).Holds s.allocator s.leaving
  alone : ∀ t u handle, s.threads t = .release handle → s.threads u = .release handle → t = u
  capacity : s.allocator.totalBytes = s.allocator.regionsBefore s.allocator.classes.length
  totals : ∀ total ∈ s.totals, total ≤ s.allocator.totalBytes
  reports : ∀ seen ∈ s.reports, StatsOk s.allocator seen ∧
    seen.classes.length = s.allocator.classes.length

theorem find_splits {Item : Type*} {p : Item → Bool} {items : List Item} {item : Item}
    (found : items.find? p = some item) : items.Perm (item :: items.eraseP p) := by
  induction items with
  | nil => simp at found
  | cons first rest ih =>
      by_cases picked : p first = true
      · simp only [List.find?_cons, picked, Option.some.injEq] at found
        subst found
        rw [List.eraseP_cons_of_pos picked]
      · have notPicked : p first = false := by simpa using picked
        simp only [List.find?_cons, notPicked] at found
        rw [List.eraseP_cons_of_neg picked]
        exact ((ih found).cons first).trans (List.Perm.swap _ _ _)

namespace SlabThreadsInv

variable {s : SlabThreads} {t : Nat} {pc : SlabPc}

theorem frees (inv : SlabThreadsInv s) : FreeOk s.allocator := inv.ledger.frees

/-- Whether a thread stops releasing or was not releasing, the releases that
are left belong to different slots. -/
theorem alone_after (inv : SlabThreadsInv s) (t : Nat) (pc : SlabPc)
    (notRelease : ∀ handle, pc ≠ .release handle) :
    ∀ u v handle, Function.update s.threads t pc u = .release handle →
      Function.update s.threads t pc v = .release handle → u = v := by
  have before : ∀ u handle, Function.update s.threads t pc u = .release handle →
      s.threads u = .release handle := by
    intro u handle atU
    by_cases same : u = t
    · subst same
      exact absurd (by simpa using atU) (notRelease handle)
    · simpa [same] using atU
  intro u v handle atU atV
  exact inv.alone u v handle (before u handle atU) (before v handle atV)

/-- One thread's step, where the others keep what they know. -/
theorem threads_after {after : SlabAllocator} {remaining : List LiveSlot}
    (inv : SlabThreadsInv s) (sameShape : after.shape = s.allocator.shape)
    (sameTotal : after.totalBytes = s.allocator.totalBytes) (mine : pc.Holds after remaining)
    (stays : ∀ u handle, u ≠ t → s.threads u = .release handle →
      ∀ l ∈ s.leaving, l.handle = handle → l ∈ remaining) (u : Nat) :
    (Function.update s.threads t pc u).Holds after remaining := by
  by_cases same : u = t
  · subst same
    simpa using mine
  · rw [Function.update_of_ne same]
    exact (inv.threads u).frame sameShape sameTotal fun handle atU => stays u handle same atU

/-- A thread moves on without touching a slot. -/
theorem move (inv : SlabThreadsInv s) (t : Nat) (pc : SlabPc) (holds : pc.Holds s.allocator s.leaving)
    (notRelease : ∀ handle, pc ≠ .release handle) : SlabThreadsInv (s.move t pc) where
  ledger := inv.ledger
  threads := inv.threads_after rfl rfl holds fun _ _ _ _ _ member _ => member
  alone := inv.alone_after t pc notRelease
  capacity := inv.capacity
  totals := inv.totals
  reports := inv.reports

theorem capacity_after {after : SlabAllocator} (inv : SlabThreadsInv s)
    (sameShape : after.shape = s.allocator.shape)
    (sameTotal : after.totalBytes = s.allocator.totalBytes) :
    after.totalBytes = after.regionsBefore after.classes.length := by
  rw [sameTotal, inv.capacity, regions_before_shape sameShape, ← after.shape_length, sameShape,
    s.allocator.shape_length]

theorem reports_after {after : SlabAllocator} (inv : SlabThreadsInv s)
    (sameShape : after.shape = s.allocator.shape)
    (sameTotal : after.totalBytes = s.allocator.totalBytes) :
    ∀ seen ∈ s.reports, StatsOk after seen ∧ seen.classes.length = after.classes.length := by
  intro seen member
  obtain ⟨ok, all⟩ := inv.reports seen member
  refine ⟨ok.same_shape sameShape sameTotal, ?_⟩
  rw [all, ← after.shape_length, sameShape, s.allocator.shape_length]

/-- A release starts: the slot changes hands, and no other thread is bringing
back the same one. -/
theorem leave {handle : SlabHandle} {mine : LiveSlot → Bool} {after : SlabThreads}
    (inv : SlabThreadsInv s) (names : ∀ l ∈ s.live, mine l = true → l.handle = handle)
    (left : s.leave t handle mine = some after) : SlabThreadsInv after := by
  simp only [SlabThreads.leave, Option.bind_eq_bind, Option.bind_eq_some_iff,
    Option.some.injEq] at left
  obtain ⟨l, found, rfl⟩ := left
  have split := find_splits found
  have isHandle : l.handle = handle := names l (List.mem_of_find?_eq_some found) (List.find?_some found)
  have fresh : ∀ u, s.threads u ≠ .release handle := by
    intro u atU
    obtain ⟨other, member, sameHandle⟩ : ∃ other ∈ s.leaving, other.handle = handle := by
      have holds := inv.threads u
      rw [atU] at holds
      exact holds
    have nodup := inv.ledger.handles
    simp only [SlabThreads.ledger, List.map_append] at nodup
    have inLive : l.handle ∈ s.live.map (·.handle) :=
      List.mem_map_of_mem (List.mem_of_find?_eq_some found)
    have inLeaving : l.handle ∈ s.leaving.map (·.handle) := by
      rw [isHandle, ← sameHandle]
      exact List.mem_map_of_mem member
    exact (List.nodup_append.1 nodup).2.2 _ inLive _ inLeaving rfl
  refine
    { ledger := ?_
      threads := inv.threads_after rfl rfl ⟨l, List.mem_cons_self, isHandle⟩
        fun _ _ _ _ other member _ => List.mem_cons_of_mem _ member
      alone := ?_
      capacity := inv.capacity
      totals := inv.totals
      reports := inv.reports }
  · have moved : (s.live ++ s.leaving).Perm (s.live.eraseP mine ++ l :: s.leaving) := by
      refine (split.append_right s.leaving).trans ?_
      rw [List.cons_append]
      exact List.perm_middle.symm
    exact inv.ledger.perm moved
  · intro u v other atU atV
    simp only [SlabThreads.move] at atU atV
    by_cases sameU : u = t <;> by_cases sameV : v = t
    · rw [sameU, sameV]
    · subst sameU
      simp only [Function.update_self, SlabPc.release.injEq] at atU
      subst atU
      rw [Function.update_of_ne sameV] at atV
      exact absurd atV (fresh v)
    · subst sameV
      simp only [Function.update_self, SlabPc.release.injEq] at atV
      subst atV
      rw [Function.update_of_ne sameU] at atU
      exact absurd atU (fresh u)
    · rw [Function.update_of_ne sameU] at atU
      rw [Function.update_of_ne sameV] at atV
      exact inv.alone u v other atU atV

/-- The lookup of an address in the slot of a live allocation. -/
theorem lookup_live (inv : SlabThreadsInv s) {l : LiveSlot} {ptr : Nat} (member : l ∈ s.live)
    (inSlot : s.allocator.contains ptr l = true) : s.allocator.reverseLookup ptr = some l.handle := by
  have held : l ∈ s.ledger.live := List.mem_append_left _ member
  obtain ⟨sc, found, isPtr, _, _, _, bytes⟩ := inv.ledger.inside held
  have bound := inv.ledger.live_bound held found
  simp only [contains, Bool.and_eq_true, decide_eq_true_eq] at inSlot
  have bytesHere : s.allocator.slotBytes l = sc.slotSize := bytes
  rw [bytesHere, isPtr] at inSlot
  exact reverse_lookup_inside inv.ledger.layout found bound.1 inSlot.1 inSlot.2

theorem scan_class (inv : SlabThreadsInv s) (size i : Nat) :
    SlabThreadsInv (s.scanClass t size i) := by
  unfold SlabThreads.scanClass
  split
  · exact inv.move _ _ trivial fun _ => nofun
  · rename_i sc found
    split
    · exact inv.move _ _ trivial fun _ => nofun
    · rename_i large
      split
      · exact inv.move _ _ trivial fun _ => nofun
      · rename_i slot rest list
        have sameShape : (s.allocator.withFreeList i List.tail).shape = s.allocator.shape :=
          shape_with_free_list _ _ _
        exact
          { ledger := inv.ledger.take found list (Nat.le_of_not_lt large)
            threads := inv.threads_after sameShape rfl trivial fun _ _ _ _ _ member _ => member
            alone := inv.alone_after t .idle fun _ => nofun
            capacity := inv.capacity_after sameShape rfl
            totals := inv.totals
            reports := inv.reports_after sameShape rfl }

theorem push_back (inv : SlabThreadsInv s) {handle : SlabHandle}
    (releasing : s.threads t = .release handle) : SlabThreadsInv (s.pushBack t handle) := by
  obtain ⟨given, isGiven, sameGiven⟩ : ∃ l ∈ s.leaving, l.handle = handle := by
    have holds := inv.threads t
    rw [releasing] at holds
    exact holds
  obtain ⟨l, found⟩ : ∃ l, s.leaving.find? (·.handle = handle) = some l := by
    apply Option.isSome_iff_exists.1
    rw [List.find?_isSome]
    exact ⟨given, isGiven, by simpa using sameGiven⟩
  have isHandle : l.handle = handle := by simpa using List.find?_some found
  have split : s.ledger.live.Perm (l :: (s.live ++ s.leaving.eraseP (·.handle = handle))) :=
    ((find_splits found).append_left s.live).trans List.perm_middle
  have sameShape : (s.allocator.free (some handle)).shape = s.allocator.shape :=
    shape_with_free_list _ _ _
  refine
    { ledger := ?_
      threads := inv.threads_after sameShape rfl trivial ?_
      alone := inv.alone_after t .idle fun _ => nofun
      capacity := inv.capacity_after sameShape rfl
      totals := inv.totals
      reports := inv.reports_after sameShape rfl }
  · have released := inv.ledger.release split
    rw [isHandle] at released
    exact released
  · intro u other different atU m member isOther
    -- another thread brings back another slot
    have otherSlot : other ≠ handle := by
      rintro rfl
      exact different (inv.alone u t other atU releasing)
    have stays : ¬decide (m.handle = handle) = true := by simpa [isOther] using otherSlot
    exact (List.mem_eraseP_of_neg (p := fun l : LiveSlot => decide (l.handle = handle)) stays).2 member

theorem sum_class (inv : SlabThreadsInv s) {i total : Nat} (summing : s.threads t = .sum i total) :
    SlabThreadsInv (s.sumClass t i total) := by
  have counted : total ≤ s.allocator.regionsBefore i := by
    have holds := inv.threads t
    rw [summing] at holds
    exact holds
  unfold SlabThreads.sumClass
  split
  · have moved := inv.move t .idle trivial fun _ => nofun
    refine { moved with totals := ?_ }
    intro answer member
    rcases List.mem_cons.1 member with rfl | old
    · have part := regions_before_le s.allocator i
      have whole := inv.capacity
      exact counted.trans (part.trans (Nat.le_of_eq whole.symm))
    · exact inv.totals answer old
  · rename_i sc found
    refine inv.move _ _ ?_ fun _ => nofun
    obtain ⟨_, exactSum, bound⟩ := count_class inv.ledger.layout inv.frees found counted
    change (total + sc.usedSlots * sc.slotSize) % 2 ^ 64 ≤ s.allocator.regionsBefore (i + 1)
    rw [exactSum]
    exact bound

theorem stats_class (inv : SlabThreadsInv s) {seen : Stats} (counting : s.threads t = .stats seen) :
    SlabThreadsInv (s.statsClass t seen) := by
  have ok : StatsOk s.allocator seen := by
    have holds := inv.threads t
    rw [counting] at holds
    exact holds
  unfold SlabThreads.statsClass
  split
  · rename_i past
    have moved := inv.move t .idle trivial fun _ => nofun
    refine { moved with reports := ?_ }
    intro answer member
    rcases List.mem_cons.1 member with rfl | old
    · have sizes := congrArg List.length ok.sizes
      rw [List.length_map, List.length_take, shape_length] at sizes
      have all : answer.classes.length ≤ s.allocator.classes.length := by omega
      exact ⟨ok, Nat.le_antisymm all (List.getElem?_eq_none_iff.1 past)⟩
    · exact inv.reports answer old
  · rename_i sc found
    exact inv.move _ _ (ok.next inv.ledger.layout inv.frees found) fun _ => nofun

theorem step (inv : SlabThreadsInv s) {label : SlabCall} {after : SlabThreads}
    (moved : s.exec label = some after) : SlabThreadsInv after := by
  cases label with
  | allocate t size =>
      simp only [SlabThreads.exec, Option.ite_none_right_eq_some, Option.some.injEq] at moved
      rw [← moved.2]
      exact inv.move _ _ trivial fun _ => nofun
  | free t handle =>
      simp only [SlabThreads.exec, Option.ite_none_right_eq_some] at moved
      cases handle with
      | none =>
          cases moved.2
          exact inv
      | some handle => exact inv.leave (fun l _ names => by simpa using names) moved.2
  | freeByPtr t ptr =>
      simp only [SlabThreads.exec, Option.ite_none_right_eq_some] at moved
      obtain ⟨_, moved⟩ := moved
      split at moved
      · cases moved
        exact inv
      · rename_i notNull
        split at moved
        · cases moved
          exact inv
        · rename_i handle lookup
          refine inv.leave ?_ moved
          intro l member inSlot
          rw [inv.lookup_live member inSlot] at lookup
          exact Option.some.inj lookup
  | usedBytes t =>
      simp only [SlabThreads.exec, Option.ite_none_right_eq_some, Option.some.injEq] at moved
      rw [← moved.2]
      exact inv.move _ _ (Nat.zero_le _) fun _ => nofun
  | stats t =>
      simp only [SlabThreads.exec, Option.ite_none_right_eq_some, Option.some.injEq] at moved
      rw [← moved.2]
      refine inv.move _ _ ?_ fun _ => nofun
      exact { whole := ⟨rfl, rfl⟩, sizes := rfl, used := by simp, sum := rfl }
  | step t =>
      simp only [SlabThreads.exec] at moved
      split at moved
      · contradiction
      · cases moved
        exact inv.scan_class _ _
      · rename_i releasing
        cases moved
        exact inv.push_back releasing
      · rename_i summing
        cases moved
        exact inv.sum_class summing
      · rename_i counting
        cases moved
        exact inv.stats_class counting

end SlabThreadsInv

theorem SlabAllocator.init_classes_total {config : DramCacheConfig} {allocBacking : Nat → Nat}
    {a : SlabAllocator} (made : initClasses config allocBacking = some a) :
    a.totalBytes = (a.classes.map fun sc => sc.slotSize * sc.numSlots).sum := by
  simp only [initClasses] at made
  split at made
  · contradiction
  · cases made
    rfl

theorem reach_slab_threads {s : SlabThreads} (reached : Reach slabThreadMachine s) :
    SlabThreadsInv s := by
  apply reached.invariant SlabThreadsInv
  · rintro _ ⟨config, allocBacking, a, made, backed, rfl⟩
    exact
      { ledger := ledger_start made backed
        threads := fun _ => trivial
        alone := fun _ _ _ => nofun
        capacity := by
          rw [regions_before_all]
          exact init_classes_total made
        totals := by simp
        reports := by simp }
  · intro before label after inv _ moved
    exact inv.step moved

/-! ## A call that nobody interrupts -/

namespace SlabAllocator

variable {a : SlabAllocator} {size : Nat} {front back : List SizeClass} {sc : SizeClass}

theorem class_after (split : a.classes = front ++ sc :: back) : a.classes[front.length]? = some sc := by
  simp [split]

theorem allocate_first {slot : Nat} {rest : List Nat} (split : a.classes = front ++ sc :: back)
    (passed : ∀ other ∈ front, ¬Serves other size) (large : size ≤ sc.slotSize)
    (list : sc.freeList = slot :: rest) : a.allocate size =
      some (⟨front.length, slot⟩, sc.slotAddress slot, a.withFreeList front.length List.tail) := by
  have index : a.classes.findIdx? (fun sc => size ≤ sc.slotSize && !sc.freeList.isEmpty) =
      some front.length := by
    have none : front.findIdx? (fun sc => size ≤ sc.slotSize && !sc.freeList.isEmpty) = none := by
      rw [List.findIdx?_eq_none_iff]
      intro other member
      have rejected := passed other member
      simpa [Serves] using rejected
    rw [split, List.findIdx?_append, none, List.findIdx?_cons]
    simp [large, list]
  simp only [allocate, Option.bind_eq_bind, index, Option.bind_some, class_after split, list,
    List.head?_cons]

end SlabAllocator

namespace SlabThreads

variable {s : SlabThreads} {t : Nat}

/-- The thread calls, and takes `steps` critical sections in a row. -/
def uninterrupted (s : SlabThreads) (call : SlabCall) (t steps : Nat) : SlabThreads :=
  last slabThreadMachine s (call :: List.replicate steps (.step t))

theorem move_move (s : SlabThreads) (t : Nat) (first second : SlabPc) :
    (s.move t first).move t second = s.move t second := by
  simp [move]

theorem move_idle (idle : s.threads t = .idle) : s.move t .idle = s := by
  have same : Function.update s.threads t .idle = s.threads := by
    rw [← idle, Function.update_eq_self]
  unfold move
  rw [same]

/-- One critical section, and then the others. -/
theorem last_step (s after : SlabThreads) (t steps : Nat) (moved : s.exec (.step t) = some after) :
    last slabThreadMachine s (List.replicate (steps + 1) (.step t)) =
      last slabThreadMachine after (List.replicate steps (.step t)) := by
  have stepped : next slabThreadMachine s (.step t) = after := by
    unfold next
    rw [show slabThreadMachine.exec s (.step t) = some after from moved, Option.getD_some]
  rw [List.replicate_succ, last, List.foldl_cons, stepped, last]

theorem scan_alone (size : Nat) (front back : List SizeClass)
    (scanning : s.threads t = .scan size front.length) (split : s.allocator.classes = front ++ back)
    (passed : ∀ other ∈ front, ¬Serves other size) :
    ∃ steps, last slabThreadMachine s (List.replicate steps (.step t)) =
      match s.allocator.allocate size with
      | none => s.move t .idle
      | some (handle, ptr, after) =>
          { s.move t .idle with allocator := after, live := { handle, ptr, size } :: s.live } := by
  induction back generalizing s front with
  | nil =>
      have failed : s.allocator.allocate size = none := by
        rw [allocate_none, split, List.append_nil]
        exact passed
      have past : s.allocator.classes[front.length]? = none := by simp [split]
      have moved : s.exec (.step t) = some (s.move t .idle) := by
        simp only [exec, scanning, scanClass, past]
      refine ⟨1, ?_⟩
      rw [last_step s _ t 0 moved, failed]
      rfl
  | cons sc back ih =>
      have found := class_after split
      by_cases serves : Serves sc size
      · obtain ⟨slot, rest, list⟩ := List.exists_cons_of_ne_nil serves.2
        have moved : s.exec (.step t) = some
            { s.move t .idle with
              allocator := s.allocator.withFreeList front.length List.tail
              live :=
                { handle := ⟨front.length, slot⟩, ptr := sc.slotAddress slot, size } :: s.live } := by
          simp only [exec, scanning, scanClass, found, Nat.not_lt.2 serves.1, if_false, list]
        refine ⟨1, ?_⟩
        rw [last_step s _ t 0 moved, allocate_first split passed serves.1 list]
        rfl
      · have moved : s.exec (.step t) = some (s.move t (.scan size (front.length + 1))) := by
          simp only [exec, scanning, scanClass, found]
          by_cases small : sc.slotSize < size
          · rw [if_pos small]
          · have empty : sc.freeList = [] := by
              by_contra some
              exact serves ⟨Nat.le_of_not_lt small, some⟩
            rw [if_neg small, empty]
        have farther : ∀ other ∈ front ++ [sc], ¬Serves other size := by
          intro other member
          rcases List.mem_append.1 member with earlier | this
          · exact passed other earlier
          · rw [List.mem_singleton.1 this]
            exact serves
        obtain ⟨steps, rest⟩ := ih (s := s.move t (.scan size (front.length + 1))) (front ++ [sc])
          (by simp [move]) (by simpa [move] using split) farther
        refine ⟨steps + 1, ?_⟩
        rw [last_step s _ t steps moved, rest, move_move]
        rfl

def counted (classes : List SizeClass) : Nat :=
  classes.foldl (fun total sc => (total + sc.usedSlots * sc.slotSize) % 2 ^ 64) 0

theorem counted_snoc (front : List SizeClass) (sc : SizeClass) :
    counted (front ++ [sc]) = (counted front + sc.usedSlots * sc.slotSize) % 2 ^ 64 := by
  exact List.foldl_concat _ _ _ _

theorem sum_alone (front back : List SizeClass)
    (summing : s.threads t = .sum front.length (counted front))
    (split : s.allocator.classes = front ++ back) :
    ∃ steps, last slabThreadMachine s (List.replicate steps (.step t)) =
      { s.move t .idle with totals := s.allocator.usedBytes :: s.totals } := by
  induction back generalizing s front with
  | nil =>
      have total : counted front = s.allocator.usedBytes := by
        rw [← stats_used_bytes, SlabAllocator.stats, split, List.append_nil]
        rfl
      have past : s.allocator.classes[front.length]? = none := by simp [split]
      have moved : s.exec (.step t) =
          some { s.move t .idle with totals := s.allocator.usedBytes :: s.totals } := by
        simp only [exec, summing, sumClass, past, total]
      exact ⟨1, last_step s _ t 0 moved⟩
  | cons sc back ih =>
      have moved : s.exec (.step t) =
          some (s.move t (.sum (front.length + 1) (counted (front ++ [sc])))) := by
        simp only [exec, summing, sumClass, class_after split, counted_snoc]
      obtain ⟨steps, rest⟩ := ih (s := s.move t (.sum (front.length + 1) (counted (front ++ [sc]))))
        (front ++ [sc]) (by simp [move]) (by simpa [move] using split)
      refine ⟨steps + 1, ?_⟩
      rw [last_step s _ t steps moved, rest, move_move]
      rfl

def reported (a : SlabAllocator) (front : List SizeClass) : SlabAllocator.Stats :=
  { totalBytes := a.totalBytes
    usedBytes := counted front
    numClasses := a.classes.length
    classes := front.map fun sc =>
      { slotSize := sc.slotSize, totalSlots := sc.numSlots, usedSlots := sc.usedSlots } }

theorem stats_alone (front back : List SizeClass)
    (counting : s.threads t = .stats (reported s.allocator front))
    (split : s.allocator.classes = front ++ back) :
    ∃ steps, last slabThreadMachine s (List.replicate steps (.step t)) =
      { s.move t .idle with reports := s.allocator.stats :: s.reports } := by
  induction back generalizing s front with
  | nil =>
      have whole : reported s.allocator front = s.allocator.stats := by
        rw [List.append_nil] at split
        simp only [reported, SlabAllocator.stats, split, counted]
      have past : s.allocator.classes[front.length]? = none := by simp [split]
      have moved : s.exec (.step t) =
          some { s.move t .idle with reports := s.allocator.stats :: s.reports } := by
        rw [← whole]
        simp only [exec, counting, statsClass, reported, List.length_map, past]
      exact ⟨1, last_step s _ t 0 moved⟩
  | cons sc back ih =>
      have moved : s.exec (.step t) =
          some (s.move t (.stats (reported s.allocator (front ++ [sc])))) := by
        simp only [exec, counting, statsClass, reported, List.length_map, class_after split,
          counted_snoc, List.map_append, List.map_cons, List.map_nil]
      obtain ⟨steps, rest⟩ := ih (s := s.move t (.stats (reported s.allocator (front ++ [sc]))))
        (front ++ [sc]) (by simp [move]) (by simpa [move] using split)
      refine ⟨steps + 1, ?_⟩
      rw [last_step s _ t steps moved, rest, move_move]
      rfl

/-- A call that no other thread interrupts is the call of the sequential
histories. -/
structure CallsAlone (s : SlabThreads) : Prop where
  allocate : ∀ t size, s.threads t = .idle →
    ∃ steps, s.uninterrupted (.allocate t size) t steps =
      match s.allocator.allocate size with
      | none => s
      | some (handle, ptr, after) =>
          { s with allocator := after, live := { handle, ptr, size } :: s.live }
  release : ∀ t, s.threads t = .idle → ∀ l ∈ s.live, ∀ ptr, s.allocator.contains ptr l = true →
    s.uninterrupted (.freeByPtr t ptr) t 1 =
        { s with
          allocator := s.allocator.freeByPtr ptr
          live := s.live.eraseP (s.allocator.contains ptr) } ∧
      s.uninterrupted (.freeByPtr t ptr) t 1 = s.uninterrupted (.free t (some l.handle)) t 1
  usedBytes : ∀ t, s.threads t = .idle → ∃ steps, s.uninterrupted (.usedBytes t) t steps =
    { s with totals := s.allocator.usedBytes :: s.totals }
  stats : ∀ t, s.threads t = .idle → ∃ steps, s.uninterrupted (.stats t) t steps =
    { s with reports := s.allocator.stats :: s.reports }

theorem uninterrupted_starts {call : SlabCall} {after : SlabThreads} (t steps : Nat)
    (starts : s.exec call = some after) : s.uninterrupted call t steps =
      last slabThreadMachine after (List.replicate steps (.step t)) := by
  have stepped : next slabThreadMachine s call = after := by
    unfold next
    rw [show slabThreadMachine.exec s call = some after from starts, Option.getD_some]
  rw [uninterrupted, last, List.foldl_cons, stepped, last]

/-- A release that nobody interrupts, by either route. -/
theorem release_alone {handle : SlabHandle} {mine : LiveSlot → Bool} {l : LiveSlot}
    (call : SlabCall) (idle : s.threads t = .idle) (found : s.live.find? mine = some l)
    (isHandle : l.handle = handle) (starts : s.exec call = s.leave t handle mine) :
    s.uninterrupted call t 1 =
      { s with allocator := s.allocator.free (some handle), live := s.live.eraseP mine } := by
  let left : SlabThreads :=
    { s.move t (.release handle) with live := s.live.eraseP mine, leaving := l :: s.leaving }
  have leaves : s.exec call = some left := by
    rw [starts, leave, found]
    rfl
  have moved : left.exec (.step t) = some (left.pushBack t handle) := by
    simp [exec, left, move]
  have back : left.threads = Function.update s.threads t (.release handle) := rfl
  rw [uninterrupted_starts t 1 leaves, last_step left _ t 0 moved]
  have same : Function.update s.threads t .idle = s.threads := by
    rw [← idle, Function.update_eq_self]
  simp [last, pushBack, left, move, same, isHandle]

end SlabThreads

namespace SlabThreadsInv

variable {s : SlabThreads}

theorem calls_alone (inv : SlabThreadsInv s) : s.CallsAlone where
  allocate t size idle := by
    have starts : s.exec (.allocate t size) = some (s.move t (.scan size 0)) := by
      simp only [SlabThreads.exec, idle, if_true]
    obtain ⟨steps, alone⟩ := SlabThreads.scan_alone (s := s.move t (.scan size 0)) (t := t) size []
      s.allocator.classes (by simp [SlabThreads.move]) rfl (by simp)
    refine ⟨steps, ?_⟩
    rw [SlabThreads.uninterrupted_starts t steps starts, alone, SlabThreads.move_move,
      SlabThreads.move_idle idle]
    rfl
  release t idle l member ptr inSlot := by
    have held : l ∈ s.ledger.live := List.mem_append_left _ member
    have same : ∀ m ∈ s.live, s.allocator.contains ptr m = decide (m.handle = l.handle) := by
      intro m inM
      exact inv.ledger.same_entry held inSlot m (List.mem_append_left _ inM)
    have notNull : ptr ≠ 0 := (inv.ledger.contained held inSlot).1
    have route : s.allocator.freeByPtr ptr = s.allocator.free (some l.handle) :=
      (inv.ledger.contained held inSlot).2.1
    obtain ⟨m, found⟩ : ∃ m, s.live.find? (s.allocator.contains ptr) = some m := by
      apply Option.isSome_iff_exists.1
      rw [List.find?_isSome]
      exact ⟨l, member, inSlot⟩
    obtain ⟨n, listed⟩ : ∃ n, s.live.find? (·.handle = l.handle) = some n := by
      apply Option.isSome_iff_exists.1
      rw [List.find?_isSome]
      exact ⟨l, member, by simp⟩
    have isM : m.handle = l.handle := by
      have picked := List.find?_some found
      rw [same m (List.mem_of_find?_eq_some found)] at picked
      simpa using picked
    have isN : n.handle = l.handle := by simpa using List.find?_some listed
    have byPtr := SlabThreads.release_alone (.freeByPtr t ptr) idle found isM (by
      simp only [SlabThreads.exec, idle, if_true, notNull, if_false, inv.lookup_live member inSlot])
    have byHandle := SlabThreads.release_alone (.free t (some l.handle)) idle listed isN (by
      simp only [SlabThreads.exec, idle, if_true])
    rw [byPtr, byHandle, route, LedgerOk.erase_congr s.live same]
    exact ⟨rfl, rfl⟩
  usedBytes t idle := by
    have starts : s.exec (.usedBytes t) = some (s.move t (.sum 0 0)) := by
      simp only [SlabThreads.exec, idle, if_true]
    obtain ⟨steps, alone⟩ := SlabThreads.sum_alone (s := s.move t (.sum 0 0)) (t := t) []
      s.allocator.classes (by simp [SlabThreads.move, SlabThreads.counted]) rfl
    refine ⟨steps, ?_⟩
    rw [SlabThreads.uninterrupted_starts t steps starts, alone, SlabThreads.move_move,
      SlabThreads.move_idle idle]
    rfl
  stats t idle := by
    have starts : s.exec (.stats t) =
        some (s.move t (.stats (SlabThreads.reported s.allocator []))) := by
      simp only [SlabThreads.exec, idle, if_true]
      rfl
    obtain ⟨steps, alone⟩ := SlabThreads.stats_alone
      (s := s.move t (.stats (SlabThreads.reported s.allocator []))) (t := t) []
      s.allocator.classes (by simp [SlabThreads.move]) rfl
    refine ⟨steps, ?_⟩
    rw [SlabThreads.uninterrupted_starts t steps starts, alone, SlabThreads.move_move,
      SlabThreads.move_idle idle]
    rfl

end SlabThreadsInv

/-- Whatever the threads are in the middle of, the slots that are out and the
free lists agree, every release in flight brings back a slot of its own, and
no answer was distorted by the calls that ran meanwhile. -/
structure SlabThreadsCorrect (s : SlabThreads) : Prop where
  slots : SlabCorrect { allocator := s.allocator, live := s.live ++ s.leaving }
  releases : ∀ t handle, s.threads t = .release handle →
    (∃ l ∈ s.leaving, l.handle = handle) ∧ ∀ u, s.threads u = .release handle → u = t
  totals : ∀ total ∈ s.totals, total ≤ s.allocator.totalCapacity
  reports : ∀ seen ∈ s.reports,
    seen.totalBytes = s.allocator.totalCapacity ∧ seen.usedBytes ≤ s.allocator.totalCapacity ∧
      seen.numClasses = s.allocator.classes.length ∧
      seen.usedBytes = (seen.classes.map fun c => c.usedSlots * c.slotSize).sum ∧
      (seen.classes.map fun c => (c.slotSize, c.totalSlots)) =
        (s.allocator.classes.map fun sc => (sc.slotSize, sc.numSlots)) ∧
      ∀ c ∈ seen.classes, c.usedSlots ≤ c.totalSlots
  alone : s.CallsAlone

/-- The lock of a size class is enough: in every interleaving no two live
allocations share a byte and no slot is lost or handed out twice. -/
theorem slab_threads_correct {s : SlabThreads} (reached : Reach slabThreadMachine s) :
    SlabThreadsCorrect s := by
  have inv := reach_slab_threads reached
  refine
    { slots := inv.ledger.correct
      releases := ?_
      totals := inv.totals
      reports := ?_
      alone := inv.calls_alone }
  · intro t handle releasing
    have holds := inv.threads t
    rw [releasing] at holds
    exact ⟨holds, fun u atU => inv.alone u t handle atU releasing⟩
  · intro seen member
    obtain ⟨ok, all⟩ := inv.reports seen member
    have bounded := ok.bounded
    rw [all, ← inv.capacity] at bounded
    have sizes := ok.sizes
    rw [all, ← s.allocator.shape_length, List.take_length] at sizes
    exact ⟨ok.whole.1, bounded, ok.whole.2, ok.sum, sizes, ok.used⟩

def interleavedRun : SlabThreads :=
  last slabThreadMachine { allocator := twoClasses }
    [.allocate 0 10, .step 0, .allocate 2 16, .step 2, .usedBytes 1, .step 1,
      .freeByPtr 0 4100, .allocate 2 1, .step 2, .step 2, .step 1, .step 1]

theorem slab_threads_correct_interleaved :
    SlabThreadsCorrect interleavedRun ∧ interleavedRun.totals = [48] ∧
      interleavedRun.leaving.length = 1 := by
  let config : DramCacheConfig := { sizeBytes := 64, sizeClasses := [16, 16] }
  have made : initClasses config (fun i => 4096 * (i + 1)) = some twoClasses := by decide +kernel
  have start : Reach slabThreadMachine { allocator := twoClasses } :=
    .start ⟨_, _, _, made, two_classes_backed, rfl⟩
  exact ⟨slab_threads_correct (start.to_last _ (by decide +kernel)), by decide +kernel,
    by decide +kernel⟩

end AttentionDB
