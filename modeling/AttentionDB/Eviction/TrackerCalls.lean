import AttentionDB.Eviction.TrackerRep

/-!
# What the calls of the tracker do

One inversion lemma for each call, in terms of keys and nodes instead of maps
and iterators, and from it what the call does to the set of tracked keys. The
tracker refines a finite set: an insertion, nothing, a removal, and the removal
of the key that is returned.
-/

namespace AttentionDB

open GuardedRuns NodeMaps EvictionList

set_option autoImplicit false

namespace CwSlru

variable {s after : CwSlru} {key : StorageKey} {recomputeCost chunkIndex : UInt32} {now : Nat}

def touchProbationary (s : CwSlru) (id : Nat) (recomputeCost : UInt32) (now : Nat) : CwSlru :=
  { s with probationaryList := moveToFront (refresh s.probationaryList id recomputeCost now) id }

def promote (s : CwSlru) (rest : EvictionList) (entry : EvictionEntry) : CwSlru :=
  { s with
    probationaryList := rest
    probationaryMap := s.probationaryMap.erase entry.key
    protectedList := { id := s.nextNode, entry } :: s.protectedList
    protectedMap := s.protectedMap.insert entry.key s.nextNode
    nextNode := s.nextNode + 1 }

def track (s : CwSlru) (entry : EvictionEntry) : CwSlru :=
  { s with
    probationaryList := { id := s.nextNode, entry } :: s.probationaryList
    probationaryMap := s.probationaryMap.insert entry.key s.nextNode
    nextNode := s.nextNode + 1 }

def dropProtected (s : CwSlru) (rest : EvictionList) (key : StorageKey) : CwSlru :=
  { s with protectedList := rest, protectedMap := s.protectedMap.erase key }

def dropProbationary (s : CwSlru) (rest : EvictionList) (key : StorageKey) : CwSlru :=
  { s with probationaryList := rest, probationaryMap := s.probationaryMap.erase key }

/-! ## Inversion -/

inductive AccessCases (s : CwSlru) (key : StorageKey) (recomputeCost : UInt32) (now : Nat) :
    CwSlru → Prop where
  | refreshed (id : Nat) (held : key ∈ keys s.protectedList)
      (atKey : s.protectedMap.lookup key = some id) :
      AccessCases s key recomputeCost now (s.touchProtected id recomputeCost now)
  | promoted (id : Nat) (found : EvictionNode) (rest : EvictionList)
      (held : key ∈ keys s.probationaryList) (high : s.config.protectionThreshold ≤ recomputeCost)
      (isKey : found.entry.key = key) (isCost : found.entry.recomputeCost = recomputeCost)
      (split : (refresh s.probationaryList id recomputeCost now).Perm (found :: rest)) :
      AccessCases s key recomputeCost now (s.promote rest found.entry).demoteProtectedOverflow
  | touched (id : Nat) (held : key ∈ keys s.probationaryList)
      (low : recomputeCost < s.config.protectionThreshold) :
      AccessCases s key recomputeCost now (s.touchProbationary id recomputeCost now)
  | unknown (absent : key ∉ s.tracked) : AccessCases s key recomputeCost now s

inductive InsertCases (s : CwSlru) (key : StorageKey) (recomputeCost chunkIndex : UInt32)
    (now : Nat) : CwSlru → Prop where
  | refreshed (id : Nat) (held : key ∈ keys s.protectedList)
      (atKey : s.protectedMap.lookup key = some id) :
      InsertCases s key recomputeCost chunkIndex now (s.touchProtected id recomputeCost now)
  | touched (id : Nat) (held : key ∈ keys s.probationaryList) :
      InsertCases s key recomputeCost chunkIndex now (s.touchProbationary id recomputeCost now)
  | inserted (absent : key ∉ s.tracked) :
      InsertCases s key recomputeCost chunkIndex now
        (s.track { key, recomputeCost, chunkIndex, lastAccessUs := now })

inductive RemoveCases (s : CwSlru) (key : StorageKey) : CwSlru → Prop where
  | fromProtected (gone : EvictionNode) (rest : EvictionList) (isKey : gone.entry.key = key)
      (split : s.protectedList.Perm (gone :: rest)) : RemoveCases s key (s.dropProtected rest key)
  | fromProbationary (gone : EvictionNode) (rest : EvictionList) (isKey : gone.entry.key = key)
      (split : s.probationaryList.Perm (gone :: rest)) :
      RemoveCases s key (s.dropProbationary rest key)
  | unknown (absent : key ∉ s.tracked) : RemoveCases s key s

inductive EvictCases (s : CwSlru) : Option StorageKey → CwSlru → Prop where
  | fromProbationary (gone : EvictionNode) (rest : EvictionList)
      (split : s.probationaryList.Perm (gone :: rest)) :
      EvictCases s (some gone.entry.key) (s.dropProbationary rest gone.entry.key)
  | fromProtected (gone : EvictionNode) (rest : EvictionList) (noOther : s.probationaryList = [])
      (split : s.protectedList.Perm (gone :: rest)) :
      EvictCases s (some gone.entry.key) (s.dropProtected rest gone.entry.key)
  | empty (left : s.protectedList = []) (right : s.probationaryList = []) : EvictCases s none s

section Inversion

variable (ok : RepOk s)
include ok

theorem RepOk.protected_held {id : Nat} (held : s.protectedMap.lookup key = some id) :
    key ∈ keys s.protectedList :=
  ok.protected_iff.2 ⟨id, held⟩

theorem RepOk.probationary_held {id : Nat} (held : s.probationaryMap.lookup key = some id) :
    key ∈ keys s.probationaryList := by
  rcases (ok.probationaryOk.lookup key id).1 held with ⟨node, member, rfl, _⟩
  exact List.mem_map_of_mem member

theorem RepOk.untracked (left : s.protectedMap.lookup key = none)
    (right : s.probationaryMap.lookup key = none) : key ∉ s.tracked := by
  rw [mem_tracked, not_or]
  exact ⟨ok.protectedOk.lookup_none.1 left, ok.probationaryOk.lookup_none.1 right⟩

theorem on_access_cases (recomputeCost : UInt32) (now : Nat) :
    AccessCases s key recomputeCost now (s.onAccess key recomputeCost now) := by
  unfold onAccess
  split
  · rename_i id held
    exact .refreshed id (ok.protected_held held) held
  · rename_i left
    split
    · rename_i right
      exact .unknown (ok.untracked left right)
    · rename_i id held
      simp only
      split
      · rename_i high
        rcases Mapped.node_refreshed ok.probationaryOk held with ⟨found, reached, isKey, isCost⟩
        have split := node_erase_perm reached
        rw [reached]
        subst isKey
        exact .promoted id found _ (ok.probationary_held held) high rfl isCost split
      · rename_i low
        exact .touched id (ok.probationary_held held) (UInt32.not_le.1 low)

theorem on_insert_cases (recomputeCost chunkIndex : UInt32) (now : Nat) :
    InsertCases s key recomputeCost chunkIndex now
      (s.onInsert key recomputeCost chunkIndex now) := by
  unfold onInsert
  split
  · rename_i id held
    exact .refreshed id (ok.protected_held held) held
  · rename_i left
    split
    · rename_i id held
      exact .touched id (ok.probationary_held held)
    · rename_i right
      exact .inserted (ok.untracked left right)

theorem on_remove_cases (key : StorageKey) : RemoveCases s key (s.onRemove key) := by
  unfold onRemove
  split
  · rename_i id held
    rcases (ok.protectedOk.lookup key id).1 held with ⟨gone, member, isKey, rfl⟩
    exact .fromProtected gone _ isKey (erase_by_id ok.protectedOk.ids member)
  · rename_i left
    split
    · rename_i right
      exact .unknown (ok.untracked left right)
    · rename_i id held
      rcases (ok.probationaryOk.lookup key id).1 held with ⟨gone, member, isKey, rfl⟩
      exact .fromProbationary gone _ isKey (erase_by_id ok.probationaryOk.ids member)

theorem evict_cases : EvictCases s s.evict.1 s.evict.2 := by
  unfold evict
  cases probationary : findBestVictim s.probationaryList with
  | some victim =>
      exact .fromProbationary victim _
        (erase_by_id ok.probationaryOk.ids (best_victim_mem probationary))
  | none =>
      have noOther := best_victim_none probationary
      cases whole : findBestVictim s.protectedList with
      | some victim =>
          exact .fromProtected victim _ noOther
            (erase_by_id ok.protectedOk.ids (best_victim_mem whole))
      | none => exact .empty (best_victim_none whole) noOther

end Inversion

/-! ## Keys move between the lists and nothing else -/

section Conservation

variable {rest : EvictionList} {gone : EvictionNode}

theorem touch_protected_conserved (ok : RepOk s) (id : Nat) (recomputeCost : UInt32) (now : Nat) :
    RepOk (s.touchProtected id recomputeCost now) ∧
      (s.touchProtected id recomputeCost now).allKeys.Perm s.allKeys := by
  have same := move_to_front_perm (refresh s.protectedList id recomputeCost now) id
  have sameKeys := keys_perm same
  have sameIds := ids_perm same
  rw [keys_refresh] at sameKeys
  rw [ids_refresh] at sameIds
  constructor
  · exact ok.rearrange (ok.protectedOk.refreshed.perm same.symm) ok.probationaryOk
      sameKeys sameIds (.refl _) (.refl _)
  · exact sameKeys.append_right _

theorem touch_probationary_conserved (ok : RepOk s) (id : Nat) (recomputeCost : UInt32) (now : Nat) :
    RepOk (s.touchProbationary id recomputeCost now) ∧
      (s.touchProbationary id recomputeCost now).allKeys.Perm s.allKeys := by
  have same := move_to_front_perm (refresh s.probationaryList id recomputeCost now) id
  have sameKeys := keys_perm same
  have sameIds := ids_perm same
  rw [keys_refresh] at sameKeys
  rw [ids_refresh] at sameIds
  constructor
  · exact ok.rearrange ok.protectedOk (ok.probationaryOk.refreshed.perm same.symm)
      (.refl _) (.refl _) sameKeys sameIds
  · exact sameKeys.append_left _

theorem promote_conserved {id : Nat} (ok : RepOk s)
    (split : (refresh s.probationaryList id recomputeCost now).Perm (gone :: rest)) :
    RepOk (s.promote rest gone.entry) ∧ (s.promote rest gone.entry).allKeys.Perm s.allKeys := by
  have refreshed : RepOk { s with
      probationaryList := refresh s.probationaryList id recomputeCost now } := by
    apply ok.rearrange ok.protectedOk ok.probationaryOk.refreshed (.refl _) (.refl _)
    · rw [keys_refresh]
    · rw [ids_refresh]
  have dropped := refreshed.drop_probationary split
  have moved : (keys s.protectedList ++ keys (refresh s.probationaryList id recomputeCost now)).Perm
      (gone.entry.key :: (keys s.protectedList ++ keys rest)) :=
    ((keys_perm split).append_left _).trans List.perm_middle
  constructor
  · exact dropped.push_protected (refreshed.dropped_untracked moved)
  · rw [keys_refresh] at moved
    exact moved.symm

theorem access_conserved (ok : RepOk s) (cases : AccessCases s key recomputeCost now after) :
    RepOk after ∧ after.allKeys.Perm s.allKeys := by
  cases cases with
  | refreshed id => exact touch_protected_conserved ok id recomputeCost now
  | promoted id found rest held high isKey isCost split =>
      rcases promote_conserved ok split with ⟨rep, same⟩
      have demoted := demote_spec rep
      exact ⟨demoted.rep, demoted.conserved.trans same⟩
  | touched id => exact touch_probationary_conserved ok id recomputeCost now
  | unknown => exact ⟨ok, .refl _⟩

theorem track_conserved (entry : EvictionEntry) (ok : RepOk s) (absent : entry.key ∉ s.tracked) :
    RepOk (s.track entry) ∧ (s.track entry).allKeys.Perm (entry.key :: s.allKeys) :=
  ⟨ok.push_probationary absent, List.perm_middle⟩

theorem drop_protected_conserved (ok : RepOk s) (split : s.protectedList.Perm (gone :: rest)) :
    RepOk (s.dropProtected rest gone.entry.key) ∧
      s.allKeys.Perm (gone.entry.key :: (s.dropProtected rest gone.entry.key).allKeys) :=
  ⟨ok.drop_protected split, (keys_perm split).append_right _⟩

theorem drop_probationary_conserved (ok : RepOk s)
    (split : s.probationaryList.Perm (gone :: rest)) :
    RepOk (s.dropProbationary rest gone.entry.key) ∧
      s.allKeys.Perm (gone.entry.key :: (s.dropProbationary rest gone.entry.key).allKeys) :=
  ⟨ok.drop_probationary split, ((keys_perm split).append_left _).trans List.perm_middle⟩

end Conservation

/-! ## The four calls on the set of keys -/

theorem tracked_perm (same : after.allKeys.Perm s.allKeys) : after.tracked = s.tracked :=
  List.toFinset_eq_of_perm _ _ same

/-- A key that is split off the tracker leaves the rest. -/
theorem tracked_split (ok : RepOk s) (split : s.allKeys.Perm (key :: after.allKeys)) :
    key ∈ s.tracked ∧ after.tracked = s.tracked.erase key := by
  have whole : s.tracked = insert key after.tracked := by
    rw [tracked, List.toFinset_eq_of_perm _ _ split, List.toFinset_cons]
    rfl
  rw [whole]
  exact ⟨Finset.mem_insert_self _ _, (Finset.erase_insert (ok.dropped_untracked split)).symm⟩

theorem insert_tracked (ok : RepOk s)
    (cases : InsertCases s key recomputeCost chunkIndex now after) :
    RepOk after ∧ after.tracked = insert key s.tracked := by
  cases cases with
  | refreshed id held =>
      rcases touch_protected_conserved ok id recomputeCost now with ⟨rep, same⟩
      refine ⟨rep, ?_⟩
      rw [tracked_perm same, Finset.insert_eq_self.2 (mem_tracked.2 (.inl held))]
  | touched id held =>
      rcases touch_probationary_conserved ok id recomputeCost now with ⟨rep, same⟩
      refine ⟨rep, ?_⟩
      rw [tracked_perm same, Finset.insert_eq_self.2 (mem_tracked.2 (.inr held))]
  | inserted absent =>
      rcases track_conserved { key, recomputeCost, chunkIndex, lastAccessUs := now } ok absent
        with ⟨rep, same⟩
      refine ⟨rep, ?_⟩
      rw [tracked, List.toFinset_eq_of_perm _ _ same, List.toFinset_cons]
      rfl

theorem remove_tracked (ok : RepOk s) (cases : RemoveCases s key after) :
    RepOk after ∧ after.tracked = s.tracked.erase key := by
  cases cases with
  | fromProtected gone rest isKey split =>
      subst isKey
      rcases drop_protected_conserved ok split with ⟨rep, same⟩
      exact ⟨rep, (tracked_split ok same).2⟩
  | fromProbationary gone rest isKey split =>
      subst isKey
      rcases drop_probationary_conserved ok split with ⟨rep, same⟩
      exact ⟨rep, (tracked_split ok same).2⟩
  | unknown absent => exact ⟨ok, (Finset.erase_eq_of_notMem absent).symm⟩

def EvictsFrom (s : CwSlru) : Option StorageKey → CwSlru → Prop
  | some victim, after => victim ∈ s.tracked ∧ after.tracked = s.tracked.erase victim
  | none, after => s.tracked = ∅ ∧ after = s

theorem evict_tracked {victim : Option StorageKey} (ok : RepOk s)
    (cases : EvictCases s victim after) : RepOk after ∧ EvictsFrom s victim after := by
  cases cases with
  | fromProbationary gone rest split =>
      rcases drop_probationary_conserved ok split with ⟨rep, same⟩
      exact ⟨rep, tracked_split ok same⟩
  | fromProtected gone rest noOther split =>
      rcases drop_protected_conserved ok split with ⟨rep, same⟩
      exact ⟨rep, tracked_split ok same⟩
  | empty left right =>
      refine ⟨ok, ?_, rfl⟩
      simp [tracked, allKeys, left, right, keys]

theorem on_access_spec (ok : RepOk s) (key : StorageKey) (recomputeCost : UInt32) (now : Nat) :
    RepOk (s.onAccess key recomputeCost now) ∧
      (s.onAccess key recomputeCost now).tracked = s.tracked := by
  rcases access_conserved ok (on_access_cases ok recomputeCost now) with ⟨rep, same⟩
  exact ⟨rep, tracked_perm same⟩

theorem on_insert_spec (ok : RepOk s) (key : StorageKey) (recomputeCost chunkIndex : UInt32)
    (now : Nat) :
    RepOk (s.onInsert key recomputeCost chunkIndex now) ∧
      (s.onInsert key recomputeCost chunkIndex now).tracked = insert key s.tracked :=
  insert_tracked ok (on_insert_cases ok recomputeCost chunkIndex now)

theorem on_remove_spec (ok : RepOk s) (key : StorageKey) :
    RepOk (s.onRemove key) ∧ (s.onRemove key).tracked = s.tracked.erase key :=
  remove_tracked ok (on_remove_cases ok key)

theorem evict_spec (ok : RepOk s) : RepOk s.evict.2 ∧ EvictsFrom s s.evict.1 s.evict.2 :=
  evict_tracked ok (evict_cases ok)

theorem rep_ok_start (config : CwSlruConfig) : RepOk { config } where
  protectedOk := Indexes.empty
  probationaryOk := Indexes.empty
  apart := by simp [keys]
  protectedIds := by simp [ids]
  probationaryIds := by simp [ids]

end CwSlru

/-! ## Runs of a tracker -/

inductive SlruLabel where
  | onInsert (key : StorageKey) (recomputeCost chunkIndex : UInt32) (now : Nat)
  | onAccess (key : StorageKey) (recomputeCost : UInt32) (now : Nat)
  | onRemove (key : StorageKey)
  | evict

namespace CwSlru

def call (s : CwSlru) : SlruLabel → CwSlru
  | .onInsert key recomputeCost chunkIndex now => s.onInsert key recomputeCost chunkIndex now
  | .onAccess key recomputeCost now => s.onAccess key recomputeCost now
  | .onRemove key => s.onRemove key
  | .evict => s.evict.2

end CwSlru

def slruMachine : Machine CwSlru SlruLabel where
  start s := ∃ config, s = { config }
  exec s label := some (s.call label)

namespace CwSlru

inductive CallCases (s : CwSlru) : SlruLabel → CwSlru → Prop where
  | onInsert {after : CwSlru} (key : StorageKey) (recomputeCost chunkIndex : UInt32) (now : Nat)
      (cases : InsertCases s key recomputeCost chunkIndex now after) :
      CallCases s (.onInsert key recomputeCost chunkIndex now) after
  | onAccess {after : CwSlru} (key : StorageKey) (recomputeCost : UInt32) (now : Nat)
      (cases : AccessCases s key recomputeCost now after) :
      CallCases s (.onAccess key recomputeCost now) after
  | onRemove {after : CwSlru} (key : StorageKey) (cases : RemoveCases s key after) :
      CallCases s (.onRemove key) after
  | evict {after : CwSlru} (victim : Option StorageKey) (cases : EvictCases s victim after) :
      CallCases s .evict after

theorem call_cases {s after : CwSlru} {label : SlruLabel} (ok : RepOk s)
    (moved : slruMachine.exec s label = some after) : CallCases s label after := by
  cases moved
  cases label with
  | onInsert key recomputeCost chunkIndex now => exact .onInsert _ _ _ _ (on_insert_cases ok _ _ _)
  | onAccess key recomputeCost now => exact .onAccess _ _ _ (on_access_cases ok _ _)
  | onRemove key => exact .onRemove _ (on_remove_cases ok key)
  | evict => exact .evict _ (evict_cases ok)

theorem call_rep_ok {s : CwSlru} (ok : RepOk s) (label : SlruLabel) : RepOk (s.call label) := by
  cases label with
  | onInsert key recomputeCost chunkIndex now => exact (on_insert_spec ok _ _ _ _).1
  | onAccess key recomputeCost now => exact (on_access_spec ok _ _ _).1
  | onRemove key => exact (on_remove_spec ok key).1
  | evict => exact (evict_spec ok).1

theorem reach_rep_ok {guard : CwSlru → SlruLabel → Prop} {s : CwSlru}
    (reached : ReachWithin slruMachine guard s) : RepOk s := by
  apply reached.invariant RepOk
  · rintro _ ⟨config, rfl⟩
    exact rep_ok_start config
  · intro before label after ok _ moved
    cases moved
    exact call_rep_ok ok label

end CwSlru

/-- In every reachable state the maps and lists of a tracker are in step, and
its calls change the set of tracked keys as calls on a set do. -/
theorem tracker_refines_set {s : CwSlru} (reached : Reach slruMachine s) :
    s.RepOk ∧ s.allKeys.Nodup ∧
      (∀ key recomputeCost chunkIndex now,
        (s.onInsert key recomputeCost chunkIndex now).tracked = insert key s.tracked) ∧
      (∀ key recomputeCost now, (s.onAccess key recomputeCost now).tracked = s.tracked) ∧
      (∀ key, (s.onRemove key).tracked = s.tracked.erase key) ∧
      s.EvictsFrom s.evict.1 s.evict.2 ∧ (s.evict.1 = none ↔ s.tracked = ∅) := by
  have ok := CwSlru.reach_rep_ok reached
  have evicted := (CwSlru.evict_spec ok).2
  refine ⟨ok, ok.nodup, ?_, ?_, ?_, evicted, ?_⟩
  · intro key recomputeCost chunkIndex now
    exact (CwSlru.on_insert_spec ok key recomputeCost chunkIndex now).2
  · intro key recomputeCost now
    exact (CwSlru.on_access_spec ok key recomputeCost now).2
  · intro key
    exact (CwSlru.on_remove_spec ok key).2
  · cases victim : s.evict.1 with
    | none =>
        rw [victim] at evicted
        exact ⟨fun _ => evicted.1, fun _ => rfl⟩
    | some key =>
        rw [victim] at evicted
        constructor
        · intro absurdity
          contradiction
        · intro empty
          have held := evicted.1
          rw [empty] at held
          exact absurd held (Finset.notMem_empty key)

def slruKey (id : UInt64) : StorageKey :=
  { modelId := id, tenantId := 0, chunkHash := 0, layerGroupId := 0, chunkIndex := 0 }

def promotedAtOnce : CwSlru :=
  let start : CwSlru := { config := { protectedRatio := 0 } }
  (start.onInsert (slruKey 1) 200 0 1).onAccess (slruKey 1) 200 2

theorem tracker_refines_set_promoted : promotedAtOnce.tracked = {slruKey 1} ∧
    promotedAtOnce.RepOk ∧ promotedAtOnce.protectedSize = 0 := by
  have start : Reach slruMachine { config := { protectedRatio := 0 } } := .start ⟨_, rfl⟩
  have inserted := start.by_label (.onInsert (slruKey 1) 200 0 1) trivial rfl
  have accessed : Reach slruMachine promotedAtOnce :=
    inserted.by_label (.onAccess (slruKey 1) 200 2) trivial rfl
  exact ⟨by decide +kernel, (tracker_refines_set accessed).1, by decide +kernel⟩

end AttentionDB
