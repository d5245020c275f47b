import AttentionDB.Eviction.TrackerCalls
import Mathlib.Data.List.Pairwise
import Mathlib.Logic.Function.Basic

/-!
# The order of the two lists

The calls splice nodes and push entries, and the demotion loop pops the back of
one list onto the front of the other. Here every call is described by the lists
of entries it leaves, in their order. Under a clock that never runs backwards
the protected list is sorted by its last touches, so what a promotion demotes
are the protected entries that were touched least recently.
-/

namespace AttentionDB

open GuardedRuns NodeMaps

set_option autoImplicit false

namespace EvictionList

def entries (list : EvictionList) : List EvictionEntry := list.map EvictionNode.entry

def touched (old : EvictionEntry) (recomputeCost : UInt32) (now : Nat) : EvictionEntry :=
  { old with recomputeCost, lastAccessUs := now }

variable {list front back : EvictionList} {map : IterMap} {node : EvictionNode} {key : StorageKey}

/-! ## One node in its place -/

theorem apart_of_ids (unique : (ids (front ++ node :: back)).Nodup) :
    ∀ other ∈ front ++ back, other.id ≠ node.id := by
  intro other member same
  have moved : (front ++ node :: back).Perm (node :: (front ++ back)) := List.perm_middle
  have apart := List.nodup_cons.1 ((ids_perm moved).nodup_iff.1 unique)
  apply apart.1
  rw [← same]
  exact List.mem_map_of_mem member

theorem erase_node_split (unique : (ids (front ++ node :: back)).Nodup) :
    eraseNode (front ++ node :: back) node.id = front ++ back := by
  have apart := apart_of_ids unique
  unfold eraseNode
  rw [List.eraseP_append_right]
  · rw [List.eraseP_cons_of_pos (by simp)]
  · intro other member
    simpa using apart other (List.mem_append_left _ member)

theorem refresh_apart {id : Nat} (recomputeCost : UInt32) (now : Nat)
    (apart : ∀ other ∈ list, other.id ≠ id) : refresh list id recomputeCost now = list := by
  unfold refresh
  rw [List.map_congr_left (g := fun other => other)]
  · exact List.map_id _
  · intro other member
    rw [if_neg (apart other member)]

theorem refresh_split (unique : (ids (front ++ node :: back)).Nodup) (recomputeCost : UInt32)
    (now : Nat) :
    refresh (front ++ node :: back) node.id recomputeCost now =
      front ++ { node with entry := touched node.entry recomputeCost now } :: back := by
  have apart := apart_of_ids unique
  have left : refresh front node.id recomputeCost now = front :=
    refresh_apart _ _ fun other member => apart other (List.mem_append_left _ member)
  have right : refresh back node.id recomputeCost now = back :=
    refresh_apart _ _ fun other member => apart other (List.mem_append_right _ member)
  unfold refresh at left right ⊢
  rw [List.map_append, List.map_cons, left, right, if_pos rfl]
  rfl

theorem node_split (unique : (ids (front ++ node :: back)).Nodup) :
    EvictionList.node (front ++ node :: back) node.id = some node :=
  find_by_id unique (List.mem_append_right _ List.mem_cons_self)

/-- Refreshing a node and splicing it to the front changes no other place. -/
theorem touch_split (unique : (ids (front ++ node :: back)).Nodup) (recomputeCost : UInt32)
    (now : Nat) :
    moveToFront (refresh (front ++ node :: back) node.id recomputeCost now) node.id =
      { node with entry := touched node.entry recomputeCost now } :: (front ++ back) := by
  let fresh : EvictionNode := { node with entry := touched node.entry recomputeCost now }
  have uniqueFresh : (ids (front ++ fresh :: back)).Nodup := by
    simpa [ids, fresh] using unique
  have reached : EvictionList.node (front ++ fresh :: back) node.id = some fresh :=
    node_split uniqueFresh
  have erased : eraseNode (front ++ fresh :: back) node.id = front ++ back :=
    erase_node_split uniqueFresh
  rw [refresh_split unique]
  unfold moveToFront
  rw [reached, erased]

/-- Where the node is that the map leads to. -/
theorem Mapped.split (ok : Mapped list map) {id : Nat} (held : map.lookup key = some id) :
    ∃ front node back, list = front ++ node :: back ∧ node.entry.key = key ∧ node.id = id := by
  rcases (ok.lookup key id).1 held with ⟨node, member, isKey, isId⟩
  rcases List.append_of_mem member with ⟨front, back, whole⟩
  exact ⟨front, node, back, whole, isKey, isId⟩

theorem Mapped.apart (ok : Mapped (front ++ node :: back) map) :
    ∀ other ∈ front ++ back, other.entry.key ≠ node.entry.key := by
  intro other member same
  have moved : (front ++ node :: back).Perm (node :: (front ++ back)) := List.perm_middle
  have apart := List.nodup_cons.1 ((keys_perm moved).nodup_iff.1 ok.keys)
  apply apart.1
  change node.entry.key ∈ (front ++ back).map nodeKey
  rw [← same]
  exact List.mem_map_of_mem member

theorem erase_node_sublist (list : EvictionList) (id : Nat) : (eraseNode list id).Sublist list :=
  List.eraseP_sublist

end EvictionList

namespace CwSlru

open EvictionList

variable {s after : CwSlru} {key : StorageKey} {recomputeCost chunkIndex : UInt32} {now : Nat}

/-! ## The demotion loop -/

/-- What exceeds the limit moves over as a block: each iteration takes the back
of what is left and puts it before what was taken earlier. -/
theorem demote_loop_order (limit fuel : Nat) (enough : s.protectedList.length ≤ fuel) :
    entries (demoteLoop limit fuel s).protectedList = (entries s.protectedList).take limit ∧
      entries (demoteLoop limit fuel s).probationaryList =
        (entries s.protectedList).drop limit ++ entries s.probationaryList := by
  induction fuel generalizing s with
  | zero =>
      have empty : s.protectedList = [] := List.length_eq_zero_iff.1 (Nat.le_zero.1 enough)
      simp [demoteLoop, empty, entries]
  | succ fuel ih =>
      rw [demoteLoop]
      split
      · rename_i exceeds
        split
        · rename_i none
          rw [List.getLast?_eq_none_iff.1 none] at exceeds
          simp at exceeds
        · rename_i back last
          have whole : entries s.protectedList =
              entries s.protectedList.dropLast ++ [back.entry] := by
            conv_lhs => rw [getLast_split last]
            simp [entries]
          have room : limit ≤ (entries s.protectedList.dropLast).length := by
            simp only [entries, List.length_map, List.length_dropLast]
            omega
          have fits : s.protectedList.dropLast.length ≤ fuel := by
            simp only [List.length_dropLast]
            omega
          let demoted : EvictionNode := { id := s.nextNode, entry := back.entry }
          rcases ih (s := { s with
            protectedMap := s.protectedMap.erase back.entry.key
            protectedList := s.protectedList.dropLast
            probationaryList := demoted :: s.probationaryList
            probationaryMap := s.probationaryMap.insert back.entry.key demoted.id
            nextNode := s.nextNode + 1 }) fits with ⟨kept, moved⟩
          rw [whole, List.take_append_of_le_length room, List.drop_append_of_le_length room]
          refine ⟨kept, moved.trans ?_⟩
          simp [entries, demoted]
      · rename_i within
        have short : (entries s.protectedList).length ≤ limit := by
          simp only [entries, List.length_map]
          omega
        rw [List.take_of_length_le short, List.drop_eq_nil_of_le short]
        exact ⟨rfl, rfl⟩

theorem demote_order (s : CwSlru) :
    entries s.demoteProtectedOverflow.protectedList =
        (entries s.protectedList).take s.maxProtected ∧
      entries s.demoteProtectedOverflow.probationaryList =
        (entries s.protectedList).drop s.maxProtected ++ entries s.probationaryList :=
  demote_loop_order _ _ (Nat.le_refl _)

/-! ## The calls, in terms of places -/

inductive AccessOrder (s : CwSlru) (key : StorageKey) (recomputeCost : UInt32) (now : Nat) :
    CwSlru → Prop where
  | refreshed (front : EvictionList) (found : EvictionNode) (back : EvictionList)
      (whole : s.protectedList = front ++ found :: back) (isKey : found.entry.key = key) :
      AccessOrder s key recomputeCost now
        { s with
          protectedList :=
            { found with entry := touched found.entry recomputeCost now } :: (front ++ back) }
  | promoted (front : EvictionList) (found : EvictionNode) (back : EvictionList)
      (whole : s.probationaryList = front ++ found :: back) (isKey : found.entry.key = key)
      (high : s.config.protectionThreshold ≤ recomputeCost) :
      AccessOrder s key recomputeCost now
        (s.promote (front ++ back) (touched found.entry recomputeCost now)).demoteProtectedOverflow
  | touched (front : EvictionList) (found : EvictionNode) (back : EvictionList)
      (whole : s.probationaryList = front ++ found :: back) (isKey : found.entry.key = key)
      (low : recomputeCost < s.config.protectionThreshold) :
      AccessOrder s key recomputeCost now
        { s with
          probationaryList :=
            { found with entry := touched found.entry recomputeCost now } :: (front ++ back) }
  | unknown (absent : key ∉ s.tracked) : AccessOrder s key recomputeCost now s

theorem on_access_order (ok : RepOk s) (key : StorageKey) (recomputeCost : UInt32) (now : Nat) :
    AccessOrder s key recomputeCost now (s.onAccess key recomputeCost now) := by
  unfold onAccess
  split
  · rename_i id held
    rcases ok.protectedOk.split held with ⟨front, found, back, whole, isKey, rfl⟩
    have unique := ok.protectedOk.ids
    rw [whole] at unique
    unfold touchProtected
    rw [whole, touch_split unique]
    exact .refreshed front found back whole isKey
  · rename_i left
    split
    · rename_i right
      exact .unknown (ok.untracked left right)
    · rename_i id held
      rcases ok.probationaryOk.split held with ⟨front, found, back, whole, isKey, rfl⟩
      have unique := ok.probationaryOk.ids
      rw [whole] at unique
      simp only
      split
      · rename_i high
        let fresh : EvictionNode :=
          { found with entry := touched found.entry recomputeCost now }
        have uniqueFresh : (ids (front ++ fresh :: back)).Nodup := by
          simpa [ids, fresh] using unique
        have reached : node (front ++ fresh :: back) found.id = some fresh :=
          node_split uniqueFresh
        have erased : eraseNode (front ++ fresh :: back) found.id = front ++ back :=
          erase_node_split uniqueFresh
        rw [whole, refresh_split unique, reached]
        subst isKey
        change AccessOrder s found.entry.key recomputeCost now (demoteProtectedOverflow
          { s with
            probationaryList := eraseNode (front ++ fresh :: back) found.id
            probationaryMap := s.probationaryMap.erase found.entry.key
            protectedList := { id := s.nextNode, entry := fresh.entry } :: s.protectedList
            protectedMap := s.protectedMap.insert found.entry.key s.nextNode
            nextNode := s.nextNode + 1 })
        rw [erased]
        exact .promoted front found back whole rfl high
      · rename_i low
        rw [whole, touch_split unique]
        exact .touched front found back whole isKey (UInt32.not_le.1 low)

inductive InsertOrder (s : CwSlru) (key : StorageKey) (recomputeCost chunkIndex : UInt32)
    (now : Nat) : CwSlru → Prop where
  | refreshed (front : EvictionList) (found : EvictionNode) (back : EvictionList)
      (whole : s.protectedList = front ++ found :: back) (isKey : found.entry.key = key) :
      InsertOrder s key recomputeCost chunkIndex now
        { s with
          protectedList :=
            { found with entry := touched found.entry recomputeCost now } :: (front ++ back) }
  | touched (front : EvictionList) (found : EvictionNode) (back : EvictionList)
      (whole : s.probationaryList = front ++ found :: back) (isKey : found.entry.key = key) :
      InsertOrder s key recomputeCost chunkIndex now
        { s with
          probationaryList :=
            { found with entry := touched found.entry recomputeCost now } :: (front ++ back) }
  | inserted (absent : key ∉ s.tracked) :
      InsertOrder s key recomputeCost chunkIndex now
        (s.track { key, recomputeCost, chunkIndex, lastAccessUs := now })

theorem on_insert_order (ok : RepOk s) (key : StorageKey) (recomputeCost chunkIndex : UInt32)
    (now : Nat) :
    InsertOrder s key recomputeCost chunkIndex now
      (s.onInsert key recomputeCost chunkIndex now) := by
  unfold onInsert
  split
  · rename_i id held
    rcases ok.protectedOk.split held with ⟨front, found, back, whole, isKey, rfl⟩
    have unique := ok.protectedOk.ids
    rw [whole] at unique
    unfold touchProtected
    rw [whole, touch_split unique]
    exact .refreshed front found back whole isKey
  · rename_i left
    split
    · rename_i id held
      rcases ok.probationaryOk.split held with ⟨front, found, back, whole, isKey, rfl⟩
      have unique := ok.probationaryOk.ids
      rw [whole] at unique
      rw [whole, touch_split unique]
      exact .touched front found back whole isKey
    · rename_i right
      exact .inserted (ok.untracked left right)

/-! ## What a notification leaves of the protected list -/

/-- At most the notified key is new in the protected list, and then it stands
in front; the others keep their places. -/
inductive FrontChange (list : List EvictionEntry) (key : StorageKey) (now : Nat) :
    List EvictionEntry → Prop where
  | kept {shorter : List EvictionEntry} (sub : shorter.Sublist list)
      (absent : ∀ entry ∈ shorter, entry.key ≠ key) : FrontChange list key now shorter
  | front {whole rest : List EvictionEntry} (newest : EvictionEntry) (isKey : newest.key = key)
      (isNow : newest.lastAccessUs = now) (sub : rest.Sublist list)
      (absent : ∀ entry ∈ rest, entry.key ≠ key) (cut : whole.Sublist (newest :: rest)) :
      FrontChange list key now whole

theorem entry_keys (list : EvictionList) : (entries list).map EvictionEntry.key = keys list := by
  simp [entries, keys, nodeKey]

theorem absent_entries {list : EvictionList} (absent : key ∉ keys list) :
    ∀ entry ∈ entries list, entry.key ≠ key := by
  intro entry member same
  rw [← entry_keys, ← same] at absent
  exact absent (List.mem_map_of_mem member)

theorem RepOk.not_protected (ok : RepOk s) {front back : EvictionList} {found : EvictionNode}
    (whole : s.probationaryList = front ++ found :: back) (isKey : found.entry.key = key) :
    key ∉ keys s.protectedList := by
  intro inLeft
  apply ok.apart key inLeft
  rw [whole, ← isKey]
  exact List.mem_map_of_mem (List.mem_append_right _ List.mem_cons_self)

theorem FrontChange.unchanged (absent : key ∉ keys s.protectedList) :
    FrontChange (entries s.protectedList) key now (entries s.protectedList) :=
  .kept (List.Sublist.refl _) (absent_entries absent)

theorem FrontChange.moved (ok : RepOk s) {front back : EvictionList} {found : EvictionNode}
    (recomputeCost : UInt32) (whole : s.protectedList = front ++ found :: back)
    (isKey : found.entry.key = key) :
    FrontChange (entries s.protectedList) key now
      (touched found.entry recomputeCost now :: entries (front ++ back)) := by
  have mapped := ok.protectedOk
  rw [whole] at mapped
  refine .front (touched found.entry recomputeCost now) isKey rfl ?_ ?_ (List.Sublist.refl _)
  · rw [whole]
    apply List.Sublist.map
    exact (List.Sublist.refl front).append (List.sublist_cons_self found back)
  · intro entry member
    rcases List.mem_map.1 member with ⟨node, inList, rfl⟩
    rw [← isKey]
    exact mapped.apart node inList

theorem access_front_change (ok : RepOk s)
    (order : AccessOrder s key recomputeCost now after) :
    FrontChange (entries s.protectedList) key now (entries after.protectedList) := by
  cases order with
  | refreshed front found back whole isKey => exact FrontChange.moved ok recomputeCost whole isKey
  | promoted front found back whole isKey high =>
      have absent := ok.not_protected whole isKey
      refine .front (touched found.entry recomputeCost now) isKey rfl (List.Sublist.refl _)
        (absent_entries absent) ?_
      rw [(demote_order _).1]
      exact List.take_sublist _ _
  | touched front found back whole isKey low =>
      exact FrontChange.unchanged (ok.not_protected whole isKey)
  | unknown absent =>
      apply FrontChange.unchanged
      intro listed
      exact absent (mem_tracked.2 (.inl listed))

theorem insert_front_change (ok : RepOk s)
    (order : InsertOrder s key recomputeCost chunkIndex now after) :
    FrontChange (entries s.protectedList) key now (entries after.protectedList) := by
  cases order with
  | refreshed front found back whole isKey => exact FrontChange.moved ok recomputeCost whole isKey
  | touched front found back whole isKey =>
      exact FrontChange.unchanged (ok.not_protected whole isKey)
  | inserted absent =>
      apply FrontChange.unchanged
      intro listed
      exact absent (mem_tracked.2 (.inl listed))

theorem remove_sublist (s : CwSlru) (key : StorageKey) :
    (s.onRemove key).protectedList.Sublist s.protectedList := by
  unfold onRemove
  split
  · exact erase_node_sublist _ _
  · split <;> exact List.Sublist.refl _

theorem evict_sublist (s : CwSlru) : s.evict.2.protectedList.Sublist s.protectedList := by
  unfold evict
  split
  · exact List.Sublist.refl _
  · split
    · exact erase_node_sublist _ _
    · exact List.Sublist.refl _

/-! ## Recency -/

/-- The order of last touches: by the clock, and where the clock did not move,
by the calls themselves. -/
def Fresher (lastTouch : StorageKey → Nat) (a b : EvictionEntry) : Prop :=
  b.lastAccessUs ≤ a.lastAccessUs ∧ lastTouch b.key < lastTouch a.key

end CwSlru

/-- A tracker, what its clock last showed, how many notifications it has had,
and by which of them each key was touched last. -/
structure TimedTracker where
  tracker : CwSlru
  clock : Nat := 0
  calls : Nat := 0
  lastTouch : StorageKey → Nat := fun _ => 0

/-- The key that a call touches, and what the clock shows to it. -/
def SlruLabel.touch : SlruLabel → Option (StorageKey × Nat)
  | .onInsert key _ _ now | .onAccess key _ now => some (key, now)
  | .onRemove _ | .evict => none

/-- Any sequence of calls under a clock that does not run backwards. -/
def timedMachine : Machine TimedTracker SlruLabel where
  start t := ∃ config, t = { tracker := { config } }
  exec t label :=
    match label.touch with
    | none => some { t with tracker := t.tracker.call label }
    | some (key, now) =>
        if t.clock ≤ now then
          some
            { tracker := t.tracker.call label
              clock := now
              calls := t.calls + 1
              lastTouch := Function.update t.lastTouch key t.calls }
        else none

namespace TimedTracker

open CwSlru EvictionList

/-- The protected list is sorted by last touches, and none lies ahead. -/
structure RecencyInv (t : TimedTracker) : Prop where
  rep : RepOk t.tracker
  sorted : (entries t.tracker.protectedList).Pairwise (Fresher t.lastTouch)
  past : ∀ entry ∈ entries t.tracker.protectedList,
    entry.lastAccessUs ≤ t.clock ∧ t.lastTouch entry.key < t.calls

variable {t after : TimedTracker} {key : StorageKey} {now : Nat} {label : SlruLabel}

theorem fresher_update {list : List EvictionEntry} {lastTouch : StorageKey → Nat} (calls : Nat)
    (absent : ∀ entry ∈ list, entry.key ≠ key) (sorted : list.Pairwise (Fresher lastTouch)) :
    list.Pairwise (Fresher (Function.update lastTouch key calls)) := by
  apply sorted.imp_of_mem
  intro a b inA inB fresher
  unfold Fresher at fresher ⊢
  rwa [Function.update_of_ne (absent a inA), Function.update_of_ne (absent b inB)]

theorem past_update {list : List EvictionEntry} (forward : t.clock ≤ now)
    (absent : ∀ entry ∈ list, entry.key ≠ key)
    (past : ∀ entry ∈ list, entry.lastAccessUs ≤ t.clock ∧ t.lastTouch entry.key < t.calls) :
    ∀ entry ∈ list, entry.lastAccessUs ≤ now ∧
      Function.update t.lastTouch key t.calls entry.key < t.calls := by
  intro entry member
  rcases past entry member with ⟨access, touch⟩
  rw [Function.update_of_ne (absent entry member)]
  exact ⟨access.trans forward, touch⟩

/-- The step lemma of a notification: the touched key is the freshest. -/
theorem RecencyInv.notify {list : List EvictionEntry} (inv : RecencyInv t) (forward : t.clock ≤ now)
    (change : FrontChange (entries t.tracker.protectedList) key now list) :
    list.Pairwise (Fresher (Function.update t.lastTouch key t.calls)) ∧
      ∀ entry ∈ list, entry.lastAccessUs ≤ now ∧
        Function.update t.lastTouch key t.calls entry.key < t.calls + 1 := by
  cases change with
  | kept sub absent =>
      have sorted := fresher_update t.calls absent (inv.sorted.sublist sub)
      have past := past_update forward absent fun entry member => inv.past entry (sub.subset member)
      refine ⟨sorted, ?_⟩
      intro entry member
      exact ⟨(past entry member).1, Nat.lt_succ_of_lt (past entry member).2⟩
  | front newest isKey isNow sub absent cut =>
      have sorted := fresher_update t.calls absent (inv.sorted.sublist sub)
      have past := past_update forward absent fun entry member => inv.past entry (sub.subset member)
      have touch : Function.update t.lastTouch key t.calls newest.key = t.calls := by
        rw [isKey, Function.update_self]
      constructor
      · apply List.Pairwise.sublist cut
        refine List.pairwise_cons.2 ⟨?_, sorted⟩
        intro entry member
        unfold Fresher
        rw [isNow, touch]
        exact past entry member
      · intro entry member
        rcases List.mem_cons.1 (cut.subset member) with rfl | older
        · rw [touch]
          exact ⟨isNow.le, Nat.lt_succ_self t.calls⟩
        · exact ⟨(past entry older).1, Nat.lt_succ_of_lt (past entry older).2⟩

theorem RecencyInv.shrink {tracker : CwSlru} (inv : RecencyInv t) (rep : RepOk tracker)
    (sub : tracker.protectedList.Sublist t.tracker.protectedList) :
    RecencyInv { t with tracker } where
  rep := rep
  sorted := inv.sorted.sublist (sub.map _)
  past := by
    intro entry member
    exact inv.past entry ((sub.map _).subset member)

theorem recency_step (inv : RecencyInv t) (moved : timedMachine.exec t label = some after) :
    RecencyInv after := by
  have rep := call_rep_ok inv.rep label
  cases label with
  | onInsert key recomputeCost chunkIndex now =>
      simp only [timedMachine, SlruLabel.touch, Option.ite_none_right_eq_some] at moved
      rcases moved with ⟨forward, ⟨⟩⟩
      have order := on_insert_order inv.rep key recomputeCost chunkIndex now
      rcases inv.notify forward (insert_front_change inv.rep order) with ⟨sorted, past⟩
      exact { rep, sorted, past }
  | onAccess key recomputeCost now =>
      simp only [timedMachine, SlruLabel.touch, Option.ite_none_right_eq_some] at moved
      rcases moved with ⟨forward, ⟨⟩⟩
      have order := on_access_order inv.rep key recomputeCost now
      rcases inv.notify forward (access_front_change inv.rep order) with ⟨sorted, past⟩
      exact { rep, sorted, past }
  | onRemove key =>
      cases moved
      exact inv.shrink rep (remove_sublist t.tracker key)
  | evict =>
      cases moved
      exact inv.shrink rep (evict_sublist t.tracker)

theorem reach_recency (reached : Reach timedMachine t) : RecencyInv t := by
  apply reached.invariant RecencyInv
  · rintro _ ⟨config, rfl⟩
    exact
      { rep := rep_ok_start config
        sorted := List.Pairwise.nil
        past := by simp [entries] }
  · intro before label after inv _ moved
    exact recency_step inv moved

/-! ## Promotions -/

/-- A promotion moves entries between the lists and loses none, so the limit is
the same before it and after it. -/
theorem promote_max_protected {s : CwSlru} {front back : EvictionList} {found : EvictionNode}
    (whole : s.probationaryList = front ++ found :: back) (entry : EvictionEntry) :
    (s.promote (front ++ back) entry).maxProtected = s.maxProtected := by
  have total : (s.protectedList.length + 1) + (front ++ back).length =
      s.protectedList.length + s.probationaryList.length := by
    rw [whole]
    simp only [List.length_append, List.length_cons]
    omega
  unfold maxProtected
  simp only [promote, List.length_cons, total]

/-- What a promotion does to both lists. `moved` is the tail of the protected
list that exceeds the limit once the promoted entry stands in front of it. -/
def PromotesInOrder (t after : TimedTracker) (key : StorageKey) (recomputeCost : UInt32)
    (now : Nat) : Prop :=
  ∃ (front : List EvictionEntry) (old : EvictionEntry) (back kept moved : List EvictionEntry),
    entries t.tracker.probationaryList = front ++ old :: back ∧ old.key = key ∧
      kept ++ moved = touched old recomputeCost now :: entries t.tracker.protectedList ∧
      moved.length = (t.tracker.protectedSize + 1) - t.tracker.maxProtected ∧
      entries after.tracker.protectedList = kept ∧
      entries after.tracker.probationaryList = moved ++ (front ++ back) ∧
      ∀ stays ∈ kept, ∀ goes ∈ moved, Fresher after.lastTouch stays goes

theorem promotes_in_order {recomputeCost : UInt32} (inv : RecencyInv t)
    (held : key ∈ keys t.tracker.probationaryList)
    (high : t.tracker.config.protectionThreshold ≤ recomputeCost)
    (moved : timedMachine.exec t (.onAccess key recomputeCost now) = some after) :
    PromotesInOrder t after key recomputeCost now := by
  simp only [timedMachine, SlruLabel.touch, Option.ite_none_right_eq_some] at moved
  rcases moved with ⟨forward, ⟨⟩⟩
  have order := on_access_order inv.rep key recomputeCost now
  change PromotesInOrder t
    { tracker := t.tracker.onAccess key recomputeCost now
      clock := now
      calls := t.calls + 1
      lastTouch := Function.update t.lastTouch key t.calls } key recomputeCost now
  generalize t.tracker.onAccess key recomputeCost now = tracker at order
  cases order with
  | refreshed front found back whole isKey =>
      have inLeft : key ∈ keys t.tracker.protectedList := by
        rw [whole, ← isKey]
        exact List.mem_map_of_mem (List.mem_append_right _ List.mem_cons_self)
      exact absurd held (inv.rep.apart key inLeft)
  | promoted front found back whole isKey _ =>
      let newest := touched found.entry recomputeCost now
      let limit := t.tracker.maxProtected
      let promoted := newest :: entries t.tracker.protectedList
      -- the promoted entry in front of a sorted list it is not in
      have absent := absent_entries (inv.rep.not_protected whole isKey)
      have change : FrontChange (entries t.tracker.protectedList) key now promoted :=
        .front newest isKey rfl (List.Sublist.refl _) absent (List.Sublist.refl _)
      have sorted := (inv.notify forward change).1
      have cut : promoted.take limit ++ promoted.drop limit = promoted := List.take_append_drop _ _
      have demoted := demote_order (t.tracker.promote (front ++ back) newest)
      rw [promote_max_protected whole] at demoted
      refine ⟨entries front, found.entry, entries back, promoted.take limit, promoted.drop limit,
        ?_, isKey, cut, ?_, demoted.1, ?_, ?_⟩
      · rw [whole]
        simp [entries]
      · simp [promoted, limit, entries, protectedSize]
      · rw [demoted.2]
        simp [promoted, newest, limit, promote, entries]
      · rw [← cut] at sorted
        intro stays inKept goes inMoved
        exact (List.pairwise_append.1 sorted).2.2 stays inKept goes inMoved
  | touched front found back whole isKey low =>
      exact absurd high (UInt32.not_le.2 low)
  | unknown absent => exact absurd (mem_tracked.2 (.inr held)) absent

end TimedTracker

open TimedTracker CwSlru EvictionList

/-- Under a clock that does not run backwards the protected list is sorted by
last access in every reachable state, and a promotion moves exactly the
least recently touched entries above the limit, in their order, to the front
of the probationary list. -/
theorem promotion_demotes_least_recent {t : TimedTracker} (reached : Reach timedMachine t) :
    ((entries t.tracker.protectedList).Pairwise fun a b => b.lastAccessUs ≤ a.lastAccessUs) ∧
      ∀ key recomputeCost now after, key ∈ keys t.tracker.probationaryList →
        t.tracker.config.protectionThreshold ≤ recomputeCost →
        timedMachine.exec t (.onAccess key recomputeCost now) = some after →
        PromotesInOrder t after key recomputeCost now := by
  have inv := reach_recency reached
  constructor
  · exact inv.sorted.imp fun fresher => fresher.1
  · intro key recomputeCost now after held high moved
    exact promotes_in_order inv held high moved

def demotingTracker : TimedTracker :=
  last timedMachine { tracker := { config := { protectedRatio := 1 / 2 } } }
    [.onInsert (slruKey 1) 200 0 1, .onInsert (slruKey 2) 200 0 2, .onInsert (slruKey 3) 200 0 3,
      .onInsert (slruKey 4) 200 0 4, .onAccess (slruKey 1) 200 5, .onAccess (slruKey 2) 200 5]

theorem promotion_demotes_least_recent_at_limit :
    (keys demotingTracker.tracker.protectedList = [slruKey 2, slruKey 1]) ∧
      PromotesInOrder demotingTracker
        (next timedMachine demotingTracker (.onAccess (slruKey 3) 200 6)) (slruKey 3) 200 6 := by
  have start : Reach timedMachine { tracker := { config := { protectedRatio := 1 / 2 } } } :=
    .start ⟨_, rfl⟩
  have reached : Reach timedMachine demotingTracker := start.to_last _ (by decide +kernel)
  have moved : timedMachine.exec demotingTracker (.onAccess (slruKey 3) 200 6) =
      some (next timedMachine demotingTracker (.onAccess (slruKey 3) 200 6)) :=
    exec_next (by decide +kernel)
  exact ⟨by decide +kernel, (promotion_demotes_least_recent reached).2 (slruKey 3) 200 6 _
    (by decide +kernel) (by decide +kernel) moved⟩

end AttentionDB
