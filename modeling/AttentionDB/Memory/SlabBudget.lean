import AttentionDB.Memory.SlabSlots

/-!
# The budget of the constructor

`init_classes` divides the budget into equal shares and every share by its slot
size. A class that is larger than its share still gets one slot. The loop is
kept here with everything that ends it early, and with the total it counts.
-/

namespace AttentionDB

set_option autoImplicit false

/-- What ends `init_classes` before its last class: the exception for an empty
list, a division by zero, the exception of `alloc_backing`, and the overflow of
the `int` that `std::iota` counts with. -/
inductive InitError where
  | invalidArgument
  | divisionByZero
  | badAlloc
  | iotaOverflow
  deriving DecidableEq, Repr

structure InitState where
  classes : List SizeClass := []
  totalBytes : Nat := 0
  error : Option InitError := none
  deriving DecidableEq, Repr

/-- One iteration. `allocBacking i bytes` is the address of the region for the
`i`-th class, or nothing when the system has none. -/
def initStep (bytesPerClass : Nat) (allocBacking : Nat → Nat → Option Nat) (s : InitState)
    (slotSize : Nat) : InitState :=
  if s.error ≠ none then s
  else if slotSize = 0 then { s with error := some .divisionByZero }
  else
    let numSlots := classSlots bytesPerClass slotSize
    let regionSize := slotSize * numSlots % 2 ^ 64
    match allocBacking s.classes.length regionSize with
    | none => { s with error := some .badAlloc }
    | some base =>
        { classes := s.classes ++ [initClass bytesPerClass slotSize base]
          totalBytes := (s.totalBytes + regionSize) % 2 ^ 64
          error := if 2 ^ 31 ≤ numSlots then some .iotaOverflow else none }

def sortedClasses (config : DramCacheConfig) : List Nat :=
  (config.sizeClasses.map UInt64.toNat).insertionSort (· ≤ ·)

def bytesPerClass (config : DramCacheConfig) : Nat :=
  config.sizeBytes.toNat / (sortedClasses config).length

def initRun (config : DramCacheConfig) (allocBacking : Nat → Nat → Option Nat) : InitState :=
  if sortedClasses config = [] then { error := some .invalidArgument }
  else (sortedClasses config).foldl (initStep (bytesPerClass config) allocBacking) {}

/-! ## One class and its share -/

def regionBytes (share slotSize : Nat) : Nat := slotSize * classSlots share slotSize

/-- A region stays within the share, or it is a single slot. -/
theorem region_bytes_le (share slotSize : Nat) :
    regionBytes share slotSize ≤ share + (slotSize - share) := by
  unfold regionBytes classSlots
  split
  · omega
  · have whole := Nat.mul_div_le share slotSize
    omega

theorem region_bytes_word {share slotSize : Nat} (small : share < 2 ^ 64) (word : slotSize < 2 ^ 64) :
    regionBytes share slotSize < 2 ^ 64 := by
  unfold regionBytes classSlots
  split
  · omega
  · have whole := Nat.mul_div_le share slotSize
    omega

def excess (share : Nat) (sizes : List Nat) : Nat := (sizes.map (· - share)).sum

/-! ## The loop -/

section Loop

variable {share : Nat} {allocBacking : Nat → Nat → Option Nat} {s : InitState} {slotSize : Nat}

theorem init_step_total :
    (initStep share allocBacking s slotSize).totalBytes ≤ s.totalBytes + regionBytes share slotSize := by
  unfold initStep
  split
  · exact Nat.le_add_right _ _
  · split
    · exact Nat.le_add_right _ _
    · dsimp only
      split
      · exact Nat.le_add_right _ _
      · refine (Nat.mod_le _ _).trans ?_
        exact Nat.add_le_add_left (Nat.mod_le _ _) _

theorem init_loop_total (sizes : List Nat) (s : InitState) :
    (sizes.foldl (initStep share allocBacking) s).totalBytes ≤
      s.totalBytes + sizes.length * share + excess share sizes := by
  induction sizes generalizing s with
  | nil => simp [excess]
  | cons slotSize sizes ih =>
      have rest := ih (initStep share allocBacking s slotSize)
      have first : (initStep share allocBacking s slotSize).totalBytes ≤ _ := init_step_total
      have region := region_bytes_le share slotSize
      have length : (sizes.length + 1) * share = sizes.length * share + share := Nat.succ_mul _ _
      simp only [List.foldl_cons, List.length_cons, excess, List.map_cons, List.sum_cons] at rest ⊢
      omega

theorem init_step_divides (positive : 0 < slotSize) (clean : s.error ≠ some .divisionByZero) :
    (initStep share allocBacking s slotSize).error ≠ some .divisionByZero := by
  unfold initStep
  split
  · exact clean
  · rw [if_neg (by omega)]
    dsimp only
    split
    · simp
    · simp only
      split <;> simp

theorem init_loop_divides (sizes : List Nat) (positive : ∀ slotSize ∈ sizes, 0 < slotSize)
    (s : InitState) (clean : s.error ≠ some .divisionByZero) :
    (sizes.foldl (initStep share allocBacking) s).error ≠ some .divisionByZero := by
  induction sizes generalizing s with
  | nil => exact clean
  | cons slotSize sizes ih =>
      rw [List.foldl_cons]
      apply ih
      · intro other member
        exact positive other (List.mem_cons_of_mem _ member)
      · exact init_step_divides (positive slotSize List.mem_cons_self) clean

/-- Without an early end the loop lays out every class in its turn. -/
theorem init_loop_classes (address : Nat → Nat) (sizes : List Nat) (s : InitState)
    (words : ∀ slotSize ∈ sizes, 0 < slotSize ∧ slotSize < 2 ^ 64) (small : share < 2 ^ 64)
    (few : ∀ slotSize ∈ sizes, classSlots share slotSize < 2 ^ 31) (clean : s.error = none) :
    sizes.foldl (initStep share fun i _ => some (address i)) s =
      { classes := s.classes ++
          sizes.mapIdx fun i slotSize => initClass share slotSize (address (s.classes.length + i))
        totalBytes := (sizes.foldl (fun total slotSize => (total + regionBytes share slotSize) % 2 ^ 64)
          s.totalBytes)
        error := none } := by
  induction sizes generalizing s with
  | nil =>
      cases s
      simp_all
  | cons slotSize sizes ih =>
      have word := words slotSize List.mem_cons_self
      have notOver : ¬2 ^ 31 ≤ classSlots share slotSize := by
        have bound := few slotSize List.mem_cons_self
        omega
      have one : initStep share (fun i _ => some (address i)) s slotSize =
          { classes := s.classes ++ [initClass share slotSize (address s.classes.length)]
            totalBytes := (s.totalBytes + regionBytes share slotSize) % 2 ^ 64
            error := none } := by
        have region : slotSize * classSlots share slotSize % 2 ^ 64 = regionBytes share slotSize :=
          Nat.mod_eq_of_lt (region_bytes_word small word.2)
        unfold initStep
        rw [if_neg (by simp [clean]), if_neg (by omega)]
        simp only [region, notOver, if_false]
      rw [List.foldl_cons, one, ih]
      · simp [List.mapIdx_cons, Nat.add_comm, Nat.add_left_comm]
      · exact fun other member => words other (List.mem_cons_of_mem _ member)
      · exact fun other member => few other (List.mem_cons_of_mem _ member)
      · rfl

end Loop

/-! ## The whole constructor -/

section Constructor

variable (config : DramCacheConfig) (allocBacking : Nat → Nat → Option Nat)

theorem shares_within_budget : (sortedClasses config).length * bytesPerClass config ≤
    config.sizeBytes.toNat :=
  Nat.mul_div_le _ _

theorem mem_sorted_classes {slotSize : Nat} :
    slotSize ∈ sortedClasses config ↔ ∃ size ∈ config.sizeClasses, size.toNat = slotSize := by
  unfold sortedClasses
  rw [List.mem_insertionSort, List.mem_map]

/-- The finer constructor on the configurations that `initClasses` accepts. -/
theorem init_run_classes {address : Nat → Nat} {a : SlabAllocator}
    (made : initClasses config address = some a) :
    initRun config (fun i _ => some (address i)) =
      { classes := a.classes, totalBytes := a.totalCapacity % 2 ^ 64, error := none } := by
  have whole : initClasses config address =
      if sortedClasses config = [] ∨ 0 ∈ sortedClasses config ∨
        ∃ slotSize ∈ sortedClasses config, 2 ^ 31 ≤ classSlots (bytesPerClass config) slotSize then none
      else
        let classes := (sortedClasses config).mapIdx fun i slotSize =>
          initClass (bytesPerClass config) slotSize (address i)
        some { classes, totalBytes := (classes.map fun sc => sc.slotSize * sc.numSlots).sum } := rfl
  rw [whole] at made
  split at made
  · contradiction
  · rename_i accepted
    push Not at accepted
    rcases accepted with ⟨nonempty, noZero, few⟩
    cases made
    have words : ∀ slotSize ∈ sortedClasses config, 0 < slotSize ∧ slotSize < 2 ^ 64 := by
      intro slotSize member
      obtain ⟨size, _, rfl⟩ := (mem_sorted_classes config).1 member
      have word := size.toNat_lt
      refine ⟨Nat.pos_of_ne_zero ?_, word⟩
      intro zero
      rw [zero] at member
      exact noZero member
    have small : bytesPerClass config < 2 ^ 64 :=
      Nat.lt_of_le_of_lt (Nat.div_le_self _ _) config.sizeBytes.toNat_lt
    unfold initRun
    rw [if_neg nonempty, init_loop_classes address _ _ words small few rfl,
      ListSums.foldl_add_mod _ _ _ _ (by decide), Nat.zero_add, SlabAllocator.totalCapacity,
      ListSums.map_mapIdx_of_eq (fun i slotSize => initClass _ slotSize (address i))
        (fun sc => sc.slotSize * sc.numSlots) (regionBytes (bytesPerClass config)) fun _ _ => rfl]
    simp

/-- With positive classes the constructor never divides by zero, and the
regions exceed the budget by no more than the classes exceed their shares. -/
theorem capacity_within_shares (positive : ∀ slotSize ∈ config.sizeClasses, slotSize ≠ 0) :
    (initRun config allocBacking).error ≠ some .divisionByZero ∧
      (initRun config allocBacking).totalBytes ≤
        config.sizeBytes.toNat + excess (bytesPerClass config) (sortedClasses config) ∧
      ((∀ slotSize ∈ config.sizeClasses, slotSize.toNat ≤ bytesPerClass config) →
        (initRun config allocBacking).totalBytes ≤ config.sizeBytes.toNat) := by
  have divides : (initRun config allocBacking).error ≠ some .divisionByZero := by
    unfold initRun
    split
    · simp
    · apply init_loop_divides _ _ _ (by simp)
      intro slotSize member
      obtain ⟨size, listed, rfl⟩ := (mem_sorted_classes config).1 member
      apply Nat.pos_of_ne_zero
      intro zero
      exact positive size listed (UInt64.toNat_inj.1 zero)
  have bound : (initRun config allocBacking).totalBytes ≤
      config.sizeBytes.toNat + excess (bytesPerClass config) (sortedClasses config) := by
    have shares := shares_within_budget config
    unfold initRun
    split
    · exact Nat.zero_le _
    · have loop : ((sortedClasses config).foldl (initStep (bytesPerClass config) allocBacking)
          {}).totalBytes ≤ _ := init_loop_total (sortedClasses config) {}
      dsimp only at loop
      omega
  refine ⟨divides, bound, ?_⟩
  intro fits
  have none : excess (bytesPerClass config) (sortedClasses config) = 0 := by
    apply List.sum_eq_zero
    intro share member
    obtain ⟨slotSize, inList, rfl⟩ := List.mem_map.1 member
    obtain ⟨size, listed, rfl⟩ := (mem_sorted_classes config).1 inList
    exact Nat.sub_eq_zero_of_le (fits size listed)
  omega

end Constructor

/-- The engine's own size classes in a cache of one gigabyte. -/
theorem capacity_within_shares_gigabyte :
    let config : DramCacheConfig := { sizeBytes := 2 ^ 30 }
    (initRun config fun i _ => some (2 ^ 30 * (i + 1))).totalBytes ≤ 2 ^ 30 := by
  intro config
  have positive : config.sizeClasses.all (· ≠ 0) = true := by decide +kernel
  have small : config.sizeClasses.all (·.toNat ≤ bytesPerClass config) = true := by decide +kernel
  simp only [List.all_eq_true, decide_eq_true_eq] at positive small
  exact (capacity_within_shares config _ positive).2.2 small

/-- A cache of one megabyte for slots of four. -/
theorem single_slot_exceeds_budget :
    let config : DramCacheConfig := { sizeBytes := 2 ^ 20, sizeClasses := [2 ^ 22] }
    (initRun config fun _ _ => some 4096).error = none ∧
      (initRun config fun _ _ => some 4096).totalBytes = 2 ^ 22 ∧
      ¬(initRun config fun _ _ => some 4096).totalBytes ≤ config.sizeBytes.toNat := by
  decide +kernel

end AttentionDB
