import Mathlib.Data.List.AList
import Mathlib.Data.List.Nodup
import Mathlib.Data.List.Perm.Basic

/-!
# A list of nodes and a map into it

A linked list whose nodes keep an identity, and a map from keys to identities,
as a list paired with a map of iterators. The order of the list never matters
to the map, so every change of the list is described up to permutation.
-/

namespace NodeMaps

set_option autoImplicit false

variable {Node Key Id : Type*} [DecidableEq Key] {key : Node → Key} {id : Node → Id}

/-- The map sends exactly the keys of the list to the node that holds them. -/
structure Indexes (key : Node → Key) (id : Node → Id) (list : List Node)
    (map : AList fun _ : Key => Id) : Prop where
  keys : (list.map key).Nodup
  ids : (list.map id).Nodup
  lookup : ∀ k i, map.lookup k = some i ↔ ∃ node ∈ list, key node = k ∧ id node = i

variable {list rest other : List Node} {map : AList fun _ : Key => Id} {node found : Node}

theorem Indexes.empty : Indexes key id [] ∅ where
  keys := List.nodup_nil
  ids := List.nodup_nil
  lookup := by simp

/-! ## What the map answers -/

theorem Indexes.lookup_member (ok : Indexes key id list map) (member : node ∈ list) :
    map.lookup (key node) = some (id node) :=
  (ok.lookup _ _).2 ⟨node, member, rfl, rfl⟩

theorem Indexes.lookup_none (ok : Indexes key id list map) {k : Key} :
    map.lookup k = none ↔ k ∉ list.map key := by
  constructor
  · intro absent listed
    rcases List.mem_map.1 listed with ⟨node, member, rfl⟩
    rw [ok.lookup_member member] at absent
    contradiction
  · intro absent
    cases answer : map.lookup k with
    | none => rfl
    | some i =>
        rcases (ok.lookup k i).1 answer with ⟨node, member, rfl, rfl⟩
        exact absurd (List.mem_map_of_mem member) absent

/-! ## What keeps list and map in step -/

theorem Indexes.perm (ok : Indexes key id list map) (same : list.Perm other) :
    Indexes key id other map where
  keys := (same.map key).nodup_iff.1 ok.keys
  ids := (same.map id).nodup_iff.1 ok.ids
  lookup k i := by
    rw [ok.lookup k i]
    simp [same.mem_iff]

/-- A change of the nodes that leaves their keys and identities alone. -/
theorem Indexes.update (ok : Indexes key id list map) {change : Node → Node}
    (sameKey : ∀ node, key (change node) = key node)
    (sameId : ∀ node, id (change node) = id node) : Indexes key id (list.map change) map where
  keys := by
    rw [List.map_map, Function.comp_def]
    simpa [sameKey] using ok.keys
  ids := by
    rw [List.map_map, Function.comp_def]
    simpa [sameId] using ok.ids
  lookup k i := by
    rw [ok.lookup k i]
    simp [sameKey, sameId]

/-- A new node goes in front, and the map learns its key. -/
theorem Indexes.push (ok : Indexes key id list map) (newKey : key node ∉ list.map key)
    (newId : id node ∉ list.map id) :
    Indexes key id (node :: list) (map.insert (key node) (id node)) where
  keys := List.nodup_cons.2 ⟨newKey, ok.keys⟩
  ids := List.nodup_cons.2 ⟨newId, ok.ids⟩
  lookup k i := by
    by_cases same : k = key node
    · subst same
      rw [AList.lookup_insert]
      constructor
      · intro answer
        cases answer
        exact ⟨node, List.mem_cons_self, rfl, rfl⟩
      · rintro ⟨found, member, sameKey, rfl⟩
        rcases List.mem_cons.1 member with rfl | older
        · rfl
        · rw [← sameKey] at newKey
          exact absurd (List.mem_map_of_mem older) newKey
    · rw [AList.lookup_insert_ne same, ok.lookup k i]
      constructor
      · rintro ⟨found, member, sameKey, sameId⟩
        exact ⟨found, List.mem_cons_of_mem _ member, sameKey, sameId⟩
      · rintro ⟨found, member, sameKey, sameId⟩
        rcases List.mem_cons.1 member with rfl | older
        · exact absurd sameKey.symm same
        · exact ⟨found, older, sameKey, sameId⟩

/-- A node leaves the list, and the map forgets its key. -/
theorem Indexes.remove (ok : Indexes key id list map) (split : list.Perm (node :: rest)) :
    Indexes key id rest (map.erase (key node)) := by
  have whole := ok.perm split
  have keys := List.nodup_cons.1 whole.keys
  have ids := List.nodup_cons.1 whole.ids
  refine { keys := keys.2, ids := ids.2, lookup := ?_ }
  intro k i
  by_cases same : k = key node
  · subst same
    rw [AList.lookup_erase]
    constructor
    · intro answer
      contradiction
    · rintro ⟨found, member, sameKey, _⟩
      have listed := List.mem_map_of_mem (f := key) member
      rw [sameKey] at listed
      exact absurd listed keys.1
  · rw [AList.lookup_erase_ne same, whole.lookup k i]
    constructor
    · rintro ⟨found, member, sameKey, sameId⟩
      rcases List.mem_cons.1 member with rfl | older
      · exact absurd sameKey.symm same
      · exact ⟨found, older, sameKey, sameId⟩
    · rintro ⟨found, member, sameKey, sameId⟩
      exact ⟨found, List.mem_cons_of_mem _ member, sameKey, sameId⟩

/-! ## Reaching a node by its identity -/

variable [DecidableEq Id]

theorem find_by_id (ids : (list.map id).Nodup) (member : node ∈ list) :
    list.find? (fun found => id found = id node) = some node := by
  cases answer : list.find? (fun found => id found = id node) with
  | none =>
      rw [List.find?_eq_none] at answer
      have different := answer node member
      simp at different
  | some found =>
      have same : id found = id node := by simpa using List.find?_some answer
      rw [List.inj_on_of_nodup_map ids (List.mem_of_find?_eq_some answer) member same]

/-- What a search finds is what an erasure by the same test takes out. -/
theorem find_erase_perm {test : Node → Bool} (answer : list.find? test = some node) :
    list.Perm (node :: list.eraseP test) := by
  induction list with
  | nil => contradiction
  | cons head list ih =>
      cases passes : test head with
      | true =>
          rw [List.find?_cons_of_pos passes] at answer
          cases answer
          rw [List.eraseP_cons_of_pos passes]
      | false =>
          rw [List.find?_cons_of_neg (by simp [passes])] at answer
          rw [List.eraseP_cons_of_neg (by simp [passes])]
          exact ((ih answer).cons head).trans (.swap node head _)

theorem erase_by_id (ids : (list.map id).Nodup) (member : node ∈ list) :
    list.Perm (node :: list.eraseP fun found => id found = id node) :=
  find_erase_perm (find_by_id ids member)

end NodeMaps
