import AttentionDB.Eviction.CwSlru
import AttentionDB.Lib.GuardedRuns
import AttentionDB.Lib.NodeMap
import Mathlib.Data.Finset.Card

/-!
# The tracker as a set of keys

Each list of the tracker and its map describe the same keys, and the two lists
share none. Under that invariant the four calls are changes of one set: the
promotion and the demotion loop move keys between the lists and nothing else.
-/

namespace AttentionDB

open GuardedRuns NodeMaps

set_option autoImplicit false

namespace EvictionList

abbrev nodeKey (node : EvictionNode) : StorageKey := node.entry.key

def keys (list : EvictionList) : List StorageKey := list.map nodeKey

def ids (list : EvictionList) : List Nat := list.map EvictionNode.id

/-- The map sends exactly the keys of the list to their nodes. -/
abbrev Mapped (list : EvictionList) (map : IterMap) : Prop :=
  Indexes nodeKey EvictionNode.id list map

variable {list rest : EvictionList} {map : IterMap} {id : Nat} {recomputeCost : UInt32} {now : Nat}
  {found : EvictionNode}

theorem keys_perm {other : EvictionList} (same : list.Perm other) : (keys list).Perm (keys other) :=
  same.map nodeKey

theorem ids_perm {other : EvictionList} (same : list.Perm other) : (ids list).Perm (ids other) :=
  same.map EvictionNode.id

theorem node_erase_perm (foundAt : node list id = some found) :
    list.Perm (found :: eraseNode list id) :=
  find_erase_perm foundAt

theorem move_to_front_perm (list : EvictionList) (id : Nat) : (moveToFront list id).Perm list := by
  unfold moveToFront
  split
  · rename_i found answer
    exact (node_erase_perm answer).symm
  · exact List.Perm.refl list

/-! ## Stores through an iterator -/

@[simp] theorem keys_refresh (list : EvictionList) (id : Nat) (recomputeCost : UInt32) (now : Nat) :
    keys (refresh list id recomputeCost now) = keys list := by
  unfold keys refresh
  rw [List.map_map]
  apply List.map_congr_left
  intro node _
  simp only [Function.comp]
  split <;> rfl

@[simp] theorem ids_refresh (list : EvictionList) (id : Nat) (recomputeCost : UInt32) (now : Nat) :
    ids (refresh list id recomputeCost now) = ids list := by
  unfold ids refresh
  rw [List.map_map]
  apply List.map_congr_left
  intro node _
  simp only [Function.comp]
  split <;> rfl

theorem Mapped.refreshed (ok : Mapped list map) : Mapped (refresh list id recomputeCost now) map := by
  apply Indexes.update ok
  · intro node
    split <;> rfl
  · intro node
    split <;> rfl

/-- The node that a map answer leads to after its element was refreshed. -/
theorem Mapped.node_refreshed (ok : Mapped list map) {key : StorageKey}
    (held : map.lookup key = some id) :
    ∃ found, node (refresh list id recomputeCost now) id = some found ∧ found.entry.key = key ∧
      found.entry.recomputeCost = recomputeCost := by
  rcases (ok.lookup key id).1 held with ⟨old, member, rfl, rfl⟩
  have refreshed : Mapped (refresh list old.id recomputeCost now) map := ok.refreshed
  let entry := { old.entry with recomputeCost, lastAccessUs := now }
  let found : EvictionNode := { old with entry }
  have inList : found ∈ refresh list old.id recomputeCost now := by
    apply List.mem_map.2
    exact ⟨old, member, by simp [found, entry]⟩
  have reached : node (refresh list old.id recomputeCost now) found.id = some found :=
    find_by_id refreshed.ids inList
  exact ⟨found, reached, rfl, rfl⟩

end EvictionList

namespace CwSlru

open EvictionList

def allKeys (s : CwSlru) : List StorageKey := keys s.protectedList ++ keys s.probationaryList

/-- The abstract state of the tracker. -/
def tracked (s : CwSlru) : Finset StorageKey := s.allKeys.toFinset

/-- The four structures are in step, and node identities are fresh. -/
structure RepOk (s : CwSlru) : Prop where
  protectedOk : Mapped s.protectedList s.protectedMap
  probationaryOk : Mapped s.probationaryList s.probationaryMap
  apart : ∀ key ∈ keys s.protectedList, key ∉ keys s.probationaryList
  protectedIds : ∀ id ∈ ids s.protectedList, id < s.nextNode
  probationaryIds : ∀ id ∈ ids s.probationaryList, id < s.nextNode

variable {s after : CwSlru} {key : StorageKey} {recomputeCost chunkIndex : UInt32} {now : Nat}

theorem mem_tracked : key ∈ s.tracked ↔
    key ∈ keys s.protectedList ∨ key ∈ keys s.probationaryList := by
  simp [tracked, allKeys]

theorem RepOk.nodup (ok : RepOk s) : s.allKeys.Nodup :=
  List.Nodup.append ok.protectedOk.keys ok.probationaryOk.keys fun _ inLeft inRight =>
    ok.apart _ inLeft inRight

theorem all_keys_length (s : CwSlru) : s.allKeys.length = s.totalSize := by
  simp [allKeys, totalSize, keys]

theorem RepOk.card (ok : RepOk s) : s.tracked.card = s.totalSize := by
  rw [tracked, List.toFinset_card_of_nodup ok.nodup, all_keys_length]

theorem RepOk.protected_iff (ok : RepOk s) :
    key ∈ keys s.protectedList ↔ ∃ id, s.protectedMap.lookup key = some id := by
  constructor
  · intro listed
    rcases List.mem_map.1 listed with ⟨node, member, rfl⟩
    exact ⟨_, ok.protectedOk.lookup_member member⟩
  · rintro ⟨id, held⟩
    by_contra absent
    rw [ok.protectedOk.lookup_none.2 absent] at held
    contradiction

/-- The lists are rearranged and their elements rewritten, but every node
stays in its list. -/
theorem RepOk.rearrange {protectedList probationaryList : EvictionList} (ok : RepOk s)
    (left : Mapped protectedList s.protectedMap) (right : Mapped probationaryList s.probationaryMap)
    (leftKeys : (keys protectedList).Perm (keys s.protectedList))
    (leftIds : (ids protectedList).Perm (ids s.protectedList))
    (rightKeys : (keys probationaryList).Perm (keys s.probationaryList))
    (rightIds : (ids probationaryList).Perm (ids s.probationaryList)) :
    RepOk { s with protectedList, probationaryList } where
  protectedOk := left
  probationaryOk := right
  apart := by
    intro key inLeft inRight
    exact ok.apart key (leftKeys.mem_iff.1 inLeft) (rightKeys.mem_iff.1 inRight)
  protectedIds := by
    intro id member
    exact ok.protectedIds id (leftIds.mem_iff.1 member)
  probationaryIds := by
    intro id member
    exact ok.probationaryIds id (rightIds.mem_iff.1 member)

/-! ## Four elementary moves

A promotion and a demotion are a drop from one list and a push to the other. -/

variable {rest : EvictionList} {gone : EvictionNode} {entry : EvictionEntry}

theorem RepOk.drop_protected (ok : RepOk s) (split : s.protectedList.Perm (gone :: rest)) :
    RepOk { s with protectedList := rest, protectedMap := s.protectedMap.erase gone.entry.key } where
  protectedOk := ok.protectedOk.remove split
  probationaryOk := ok.probationaryOk
  apart := by
    intro key inLeft
    exact ok.apart key ((keys_perm split).mem_iff.2 (List.mem_cons_of_mem _ inLeft))
  protectedIds := by
    intro id member
    exact ok.protectedIds id ((ids_perm split).mem_iff.2 (List.mem_cons_of_mem _ member))
  probationaryIds := ok.probationaryIds

theorem RepOk.drop_probationary (ok : RepOk s) (split : s.probationaryList.Perm (gone :: rest)) :
    RepOk { s with
      probationaryList := rest
      probationaryMap := s.probationaryMap.erase gone.entry.key } where
  protectedOk := ok.protectedOk
  probationaryOk := ok.probationaryOk.remove split
  apart := by
    intro key inLeft inRight
    exact ok.apart key inLeft ((keys_perm split).mem_iff.2 (List.mem_cons_of_mem _ inRight))
  protectedIds := ok.protectedIds
  probationaryIds := by
    intro id member
    exact ok.probationaryIds id ((ids_perm split).mem_iff.2 (List.mem_cons_of_mem _ member))

theorem fresh_id {list : EvictionList} {bound : Nat} (below : ∀ id ∈ ids list, id < bound) :
    bound ∉ list.map EvictionNode.id := by
  intro member
  exact absurd (below bound member) (Nat.lt_irrefl bound)

theorem ids_push {list : EvictionList} {bound : Nat} (below : ∀ id ∈ ids list, id < bound) :
    ∀ id ∈ ids ({ id := bound, entry } :: list), id < bound + 1 := by
  intro id member
  rcases List.mem_cons.1 member with same | older
  · exact same ▸ Nat.lt_succ_self bound
  · exact Nat.lt_succ_of_lt (below id older)

theorem ids_grow {list : EvictionList} {bound : Nat} (below : ∀ id ∈ ids list, id < bound) :
    ∀ id ∈ ids list, id < bound + 1 := by
  intro id member
  exact Nat.lt_succ_of_lt (below id member)

theorem RepOk.push_protected (ok : RepOk s) (new : entry.key ∉ s.tracked) :
    RepOk { s with
      protectedList := { id := s.nextNode, entry } :: s.protectedList
      protectedMap := s.protectedMap.insert entry.key s.nextNode
      nextNode := s.nextNode + 1 } := by
  rw [mem_tracked] at new
  push Not at new
  refine
    { protectedOk := ok.protectedOk.push new.1 (fresh_id ok.protectedIds)
      probationaryOk := ok.probationaryOk
      apart := ?_
      protectedIds := ids_push ok.protectedIds
      probationaryIds := ids_grow ok.probationaryIds }
  intro key inLeft
  rcases List.mem_cons.1 inLeft with same | older
  · rw [same]
    exact new.2
  · exact ok.apart key older

theorem RepOk.push_probationary (ok : RepOk s) (new : entry.key ∉ s.tracked) :
    RepOk { s with
      probationaryList := { id := s.nextNode, entry } :: s.probationaryList
      probationaryMap := s.probationaryMap.insert entry.key s.nextNode
      nextNode := s.nextNode + 1 } := by
  rw [mem_tracked] at new
  push Not at new
  refine
    { protectedOk := ok.protectedOk
      probationaryOk := ok.probationaryOk.push new.2 (fresh_id ok.probationaryIds)
      apart := ?_
      protectedIds := ids_grow ok.protectedIds
      probationaryIds := ids_push ok.probationaryIds }
  intro key inLeft inRight
  rcases List.mem_cons.1 inRight with same | older
  · rw [same] at inLeft
    exact new.1 inLeft
  · exact ok.apart key inLeft older

/-- What was dropped is not tracked any more. -/
theorem RepOk.dropped_untracked {before : CwSlru} (ok : RepOk before)
    (split : before.allKeys.Perm (key :: s.allKeys)) : key ∉ s.tracked := by
  rw [tracked, List.mem_toFinset]
  exact (List.nodup_cons.1 (split.nodup_iff.1 ok.nodup)).1

/-! ## The demotion loop -/

/-- The protected list is cut at its end; what is cut off moves to the
probationary list. -/
structure Demoted (s after : CwSlru) : Prop where
  config : after.config = s.config
  cut : after.protectedList <+: s.protectedList
  conserved : after.allKeys.Perm s.allKeys
  rep : RepOk after

theorem getLast_split {list : EvictionList} {back : EvictionNode} (last : list.getLast? = some back) :
    list = list.dropLast ++ [back] := by
  rcases List.getLast?_eq_some_iff.1 last with ⟨front, rfl⟩
  simp

theorem demote_loop_spec (limit fuel : Nat) (ok : RepOk s) : Demoted s (demoteLoop limit fuel s) := by
  induction fuel generalizing s with
  | zero => exact { config := rfl, cut := List.prefix_rfl, conserved := .refl _, rep := ok }
  | succ fuel ih =>
      rw [demoteLoop]
      split
      · split
        · exact { config := rfl, cut := List.prefix_rfl, conserved := .refl _, rep := ok }
        · rename_i back last
          have front := getLast_split last
          have split : s.protectedList.Perm (back :: s.protectedList.dropLast) := by
            conv_lhs => rw [front]
            exact List.perm_append_singleton back _
          have dropped := ok.drop_protected split
          have moved : s.allKeys.Perm (back.entry.key ::
              (keys s.protectedList.dropLast ++ keys s.probationaryList)) :=
            (keys_perm split).append_right _
          have pushed := dropped.push_probationary (ok.dropped_untracked moved)
          have later := ih pushed
          refine
            { config := later.config
              cut := later.cut.trans (List.dropLast_prefix _)
              conserved := later.conserved.trans ?_
              rep := later.rep }
          exact List.perm_middle.trans moved.symm
      · exact { config := rfl, cut := List.prefix_rfl, conserved := .refl _, rep := ok }

/-- With fuel for every protected node the loop stops at the limit. -/
theorem demote_loop_length (limit fuel : Nat) (enough : s.protectedList.length ≤ fuel) :
    (demoteLoop limit fuel s).protectedList.length = min s.protectedList.length limit := by
  induction fuel generalizing s with
  | zero =>
      rw [demoteLoop]
      omega
  | succ fuel ih =>
      rw [demoteLoop]
      split
      · rename_i exceeds
        split
        · rename_i last
          rw [List.getLast?_eq_none_iff] at last
          simp [last] at exceeds
        · rw [ih]
          · simp only [List.length_dropLast]
            omega
          · simp only [List.length_dropLast]
            omega
      · omega

theorem demote_spec (ok : RepOk s) : Demoted s s.demoteProtectedOverflow :=
  demote_loop_spec _ _ ok

theorem demote_length (s : CwSlru) :
    s.demoteProtectedOverflow.protectedList.length = min s.protectedList.length s.maxProtected :=
  demote_loop_length _ _ (Nat.le_refl _)

end CwSlru

end AttentionDB
