import AttentionDB.Core.Types
import Mathlib.Data.Rat.Floor

/-!
# Cost-weighted segmented LRU

Two lists, each with a map from keys to list nodes. A node keeps its identity
while it moves inside its list, as `std::list` iterators do, and the maps hold
node identities: nothing but the code keeps the four structures in step.
-/

namespace AttentionDB

set_option autoImplicit false

structure EvictionEntry where
  key : StorageKey
  recomputeCost : UInt32
  chunkIndex : UInt32
  lastAccessUs : Nat
  deriving DecidableEq, Repr

/-- A list node: the identity that an iterator holds, and the element. -/
structure EvictionNode where
  id : Nat
  entry : EvictionEntry
  deriving DecidableEq, Repr

abbrev EvictionList := List EvictionNode

abbrev IterMap := AList fun _ : StorageKey => Nat

/-! ## The limit of the protected list -/

/-- The nearest integer, the even one of two. -/
def roundedQuotient (n d : Nat) : Nat :=
  if 2 * (n % d) < d ∨ 2 * (n % d) = d ∧ n / d % 2 = 0 then n / d else n / d + 1

/-- `n / d` in steps of `2 ^ exponent`. -/
def scaledBy (exponent : Int) (n d : Nat) : Nat × Nat :=
  (n * 2 ^ (-exponent).toNat, d * 2 ^ exponent.toNat)

/-- The exponent that leaves 53 bits before the point. -/
def doubleExponent (n d : Nat) : Int :=
  let exponent : Int := n.log2 - d.log2 - 53
  let scaled := scaledBy exponent n d
  if 2 ^ 53 * scaled.2 ≤ scaled.1 then exponent + 1 else exponent

/-- The double nearest to `n / d`, without what is behind the point. -/
def truncatedDouble (n d : Nat) : Nat :=
  let exponent := doubleExponent n d
  let scaled := scaledBy exponent n d
  roundedQuotient scaled.1 scaled.2 * 2 ^ exponent.toNat / 2 ^ (-exponent).toNat

/-- `static_cast<size_t>(n * ratio)` as a product of doubles. -/
def doubleShare (n : Nat) (ratio : Rat) : Nat :=
  truncatedDouble (truncatedDouble n 1 * ratio.num.toNat) ratio.den

example : doubleShare 100 (5224175567749775 / 2 ^ 54) = 28 := by decide +kernel

/-- The same product of exact numbers. -/
def exactShare (n : Nat) (ratio : Rat) : Nat := (n * ratio).floor.toNat

/-- `share` is the arithmetic of the limit, that of doubles unless said otherwise. -/
structure CwSlruConfig where
  protectedRatio : Rat := 1 / 4
  protectionThreshold : UInt32 := 100
  maxEntries : Nat := 0
  share : Nat → Rat → Nat := doubleShare

structure CwSlru where
  config : CwSlruConfig
  protectedList : EvictionList := []
  probationaryList : EvictionList := []
  protectedMap : IterMap := ∅
  probationaryMap : IterMap := ∅
  nextNode : Nat := 0

namespace EvictionList

def node (list : EvictionList) (id : Nat) : Option EvictionNode := list.find? (·.id = id)

def eraseNode (list : EvictionList) (id : Nat) : EvictionList := list.eraseP (·.id = id)

def moveToFront (list : EvictionList) (id : Nat) : EvictionList :=
  match EvictionList.node list id with
  | some found => found :: EvictionList.eraseNode list id
  | none => list

def refresh (list : EvictionList) (id : Nat) (recomputeCost : UInt32) (now : Nat) : EvictionList :=
  list.map fun found =>
    if found.id = id then
      { found with entry := { found.entry with recomputeCost, lastAccessUs := now } }
    else found

/-- One step of the scan: suffix chunks first, then cheap ones. -/
def betterVictim (best it : EvictionNode) : EvictionNode :=
  if best.entry.chunkIndex < it.entry.chunkIndex then it
  else if it.entry.chunkIndex = best.entry.chunkIndex ∧
      it.entry.recomputeCost < best.entry.recomputeCost then it
  else best

/-- `find_best_victim`: the scan walks from the back over at most eight nodes. -/
def findBestVictim (list : EvictionList) : Option EvictionNode :=
  match list.reverse with
  | [] => none
  | last :: rest => some (((last :: rest).take 8).foldl betterVictim last)

end EvictionList

namespace CwSlru

open EvictionList

/-- The limit that `demote_protected_overflow` computes. -/
def maxProtected (s : CwSlru) : Nat :=
  if 0 < s.config.maxEntries then s.config.share s.config.maxEntries s.config.protectedRatio
  else
    s.config.share (s.protectedList.length + s.probationaryList.length) s.config.protectedRatio

/-- The loop of `demote_protected_overflow`; the fuel is the protected size,
which every iteration lowers by one. -/
def demoteLoop (limit : Nat) : Nat → CwSlru → CwSlru
  | 0, s => s
  | fuel + 1, s =>
      if limit < s.protectedList.length then
        match s.protectedList.getLast? with
        | none => s
        | some back =>
            let demoted : EvictionNode := { id := s.nextNode, entry := back.entry }
            demoteLoop limit fuel
              { s with
                protectedMap := s.protectedMap.erase back.entry.key
                protectedList := s.protectedList.dropLast
                probationaryList := demoted :: s.probationaryList
                probationaryMap := s.probationaryMap.insert back.entry.key demoted.id
                nextNode := s.nextNode + 1 }
      else s

def demoteProtectedOverflow (s : CwSlru) : CwSlru :=
  demoteLoop s.maxProtected s.protectedList.length s

/-- The branch both notifications start with: a protected key is refreshed and
moved to the front of its list. -/
def touchProtected (s : CwSlru) (id : Nat) (recomputeCost : UInt32) (now : Nat) : CwSlru :=
  { s with protectedList := moveToFront (refresh s.protectedList id recomputeCost now) id }

def onAccess (s : CwSlru) (key : StorageKey) (recomputeCost : UInt32) (now : Nat) : CwSlru :=
  match s.protectedMap.lookup key with
  | some id => s.touchProtected id recomputeCost now
  | none =>
      match s.probationaryMap.lookup key with
      | none => s
      | some id =>
          let s := { s with probationaryList := refresh s.probationaryList id recomputeCost now }
          if s.config.protectionThreshold ≤ recomputeCost then
            match node s.probationaryList id with
            | none => s
            | some found =>
                let promoted : EvictionNode := { id := s.nextNode, entry := found.entry }
                demoteProtectedOverflow
                  { s with
                    probationaryList := eraseNode s.probationaryList id
                    probationaryMap := s.probationaryMap.erase key
                    protectedList := promoted :: s.protectedList
                    protectedMap := s.protectedMap.insert key promoted.id
                    nextNode := s.nextNode + 1 }
          else { s with probationaryList := moveToFront s.probationaryList id }

def onInsert (s : CwSlru) (key : StorageKey) (recomputeCost chunkIndex : UInt32) (now : Nat) : CwSlru :=
  match s.protectedMap.lookup key with
  | some id => s.touchProtected id recomputeCost now
  | none =>
      match s.probationaryMap.lookup key with
      | some id =>
          { s with
            probationaryList :=
              moveToFront (refresh s.probationaryList id recomputeCost now) id }
      | none =>
          let entry : EvictionEntry := { key, recomputeCost, chunkIndex, lastAccessUs := now }
          { s with
            probationaryList := { id := s.nextNode, entry } :: s.probationaryList
            probationaryMap := s.probationaryMap.insert key s.nextNode
            nextNode := s.nextNode + 1 }

def onRemove (s : CwSlru) (key : StorageKey) : CwSlru :=
  match s.protectedMap.lookup key with
  | some id =>
      { s with
        protectedList := eraseNode s.protectedList id
        protectedMap := s.protectedMap.erase key }
  | none =>
      match s.probationaryMap.lookup key with
      | none => s
      | some id =>
          { s with
            probationaryList := eraseNode s.probationaryList id
            probationaryMap := s.probationaryMap.erase key }

/-- `evict`: a victim of the probationary list while that has any, and of the
protected list after that. -/
def evict (s : CwSlru) : Option StorageKey × CwSlru :=
  match findBestVictim s.probationaryList with
  | some victim =>
      (some victim.entry.key,
        { s with
          probationaryMap := s.probationaryMap.erase victim.entry.key
          probationaryList := eraseNode s.probationaryList victim.id })
  | none =>
      match findBestVictim s.protectedList with
      | some victim =>
          (some victim.entry.key,
            { s with
              protectedMap := s.protectedMap.erase victim.entry.key
              protectedList := eraseNode s.protectedList victim.id })
      | none => (none, s)

def protectedSize (s : CwSlru) : Nat := s.protectedList.length

def probationarySize (s : CwSlru) : Nat := s.probationaryList.length

def totalSize (s : CwSlru) : Nat := s.protectedList.length + s.probationaryList.length

end CwSlru

/-! ## Eviction makes progress -/

namespace EvictionList

theorem best_victim_mem {list : EvictionList} {victim : EvictionNode}
    (best : findBestVictim list = some victim) : victim ∈ list := by
  unfold findBestVictim at best
  split at best
  · contradiction
  · rename_i last rest reversed
    have whole : ∀ node ∈ (last :: rest).take 8, node ∈ list := by
      intro node member
      have inReverse : node ∈ list.reverse := by
        rw [reversed]
        exact List.mem_of_mem_take member
      exact List.mem_reverse.1 inReverse
    have lastIn : last ∈ list := by
      apply List.mem_reverse.1
      rw [reversed]
      exact List.mem_cons_self
    have scan : ∀ (window : List EvictionNode) (start : EvictionNode), start ∈ list →
        (∀ node ∈ window, node ∈ list) → window.foldl betterVictim start ∈ list := by
      intro window
      induction window with
      | nil =>
          intro start inList _
          exact inList
      | cons it window ih =>
          intro start inList all
          have itIn := all it (by simp)
          have stepIn : betterVictim start it ∈ list := by
            unfold betterVictim
            split_ifs <;> assumption
          exact ih _ stepIn (fun node member => all node (by simp [member]))
    cases best
    exact scan _ last lastIn whole

theorem best_victim_none {list : EvictionList} (best : findBestVictim list = none) : list = [] := by
  unfold findBestVictim at best
  split at best
  · rename_i reversed
    simpa using reversed
  · contradiction

theorem erase_node_length {list : EvictionList} {victim : EvictionNode} (member : victim ∈ list) :
    (eraseNode list victim.id).length + 1 = list.length := by
  have shorter := List.length_eraseP_of_mem (p := fun n : EvictionNode => n.id = victim.id)
    member (by simp)
  have positive := List.length_pos_of_mem member
  unfold eraseNode
  omega

end EvictionList

open EvictionList in
/-- Every victim leaves the tracker, so a loop that asks for victims ends. -/
theorem evict_total_size (s : CwSlru) : match s.evict with
    | (some _, after) => after.totalSize + 1 = s.totalSize
    | (none, after) => after = s ∧ s.totalSize = 0 := by
  unfold CwSlru.evict
  cases probationary : findBestVictim s.probationaryList with
  | some victim =>
      have shorter := erase_node_length (best_victim_mem probationary)
      simp only [CwSlru.totalSize]
      omega
  | none =>
      cases whole : findBestVictim s.protectedList with
      | some victim =>
          have shorter := erase_node_length (best_victim_mem whole)
          simp only [CwSlru.totalSize]
          omega
      | none =>
          have left := best_victim_none probationary
          have right := best_victim_none whole
          simp [CwSlru.totalSize, left, right]

end AttentionDB
