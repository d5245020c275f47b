import Mathlib.Data.List.AList
import Mathlib.Algebra.BigOperators.Group.Finset.Basic
import Mathlib.Algebra.BigOperators.Group.List.Basic
import Mathlib.Algebra.GroupWithZero.Nat

/-!
# Sums over tables

How a sum over a list changes when one element is replaced, and how a sum over
an association map changes when a key is bound, rebound or removed.
-/

namespace ListSums

set_option autoImplicit false

variable {Item : Type*}

theorem sum_map_modify (weight : Item → Nat) (change : Item → Item) (items : List Item)
    (i : Nat) (item : Item) (found : items[i]? = some item) :
    ((items.modify i change).map weight).sum + weight item =
      (items.map weight).sum + weight (change item) := by
  induction items generalizing i with
  | nil => simp at found
  | cons head tail ih =>
      cases i with
      | zero =>
          have same : head = item := by simpa using found
          subst same
          simp only [List.modify_zero_cons, List.map_cons, List.sum_cons]
          omega
      | succ i =>
          have inTail := ih i (by simpa using found)
          simp only [List.modify_succ_cons, List.map_cons, List.sum_cons]
          omega

/-- A projection that does not depend on the position. -/
theorem map_mapIdx_of_eq {Part Image : Type*} (build : Nat → Item → Part) (project : Part → Image)
    (direct : Item → Image) (same : ∀ i item, project (build i item) = direct item)
    (items : List Item) : (items.mapIdx build).map project = items.map direct := by
  apply List.ext_getElem?
  intro i
  simp only [List.getElem?_map, List.getElem?_mapIdx, Option.map_map, Function.comp_def, same]

/-- A running sum in machine arithmetic is the sum in machine arithmetic. -/
theorem foldl_add_mod (weight : Item → Nat) (modulus : Nat) (items : List Item) (start : Nat)
    (small : start < modulus) :
    items.foldl (fun total item => (total + weight item) % modulus) start =
      (start + (items.map weight).sum) % modulus := by
  induction items generalizing start with
  | nil => simpa using (Nat.mod_eq_of_lt small).symm
  | cons item items ih =>
      rw [List.foldl_cons, ih _ (Nat.mod_lt _ (by omega)), List.map_cons, List.sum_cons,
        Nat.mod_add_mod, Nat.add_assoc]

section Tables

variable {Key Value : Type*} [DecidableEq Key]

def tableSum (weight : Value → Nat) (table : AList fun _ : Key => Value) : Nat :=
  (table.entries.map fun pair => weight pair.2).sum

theorem table_sum_erase (weight : Value → Nat) (table : AList fun _ : Key => Value)
    (key : Key) (value : Value) (found : table.lookup key = some value) :
    tableSum weight (table.erase key) + weight value = tableSum weight table := by
  have member : key ∈ table.entries.keys := by
    have bound : key ∈ table := AList.lookup_isSome.1 (by simp [found])
    exact AList.mem_keys.1 bound
  obtain ⟨other, left, right, absent, whole, erased⟩ := List.exists_of_kerase member
  have same : other = value := by
    have inside : Sigma.mk key other ∈ table.entries := by simp [whole]
    have looked := AList.mem_lookup_iff.2 inside
    rw [found] at looked
    exact (Option.some.inj looked).symm
  subst same
  have entries : (table.erase key).entries = left ++ right := erased
  simp only [tableSum, entries, whole, List.map_append, List.map_cons, List.sum_append,
    List.sum_cons]
  omega

theorem table_sum_insert (weight : Value → Nat) (table : AList fun _ : Key => Value)
    (key : Key) (value : Value) :
    tableSum weight (table.insert key value) = weight value + tableSum weight (table.erase key) := by
  have entries : (table.erase key).entries = table.entries.kerase key := rfl
  simp [tableSum, AList.entries_insert, entries]

theorem table_sum_erase_absent (weight : Value → Nat) (table : AList fun _ : Key => Value)
    (key : Key) (absent : table.lookup key = none) :
    tableSum weight (table.erase key) = tableSum weight table := by
  have missing : key ∉ table.entries.keys := by
    intro member
    exact (AList.lookup_eq_none.1 absent) (AList.mem_keys.2 member)
  have entries : (table.erase key).entries = table.entries := List.kerase_of_notMem_keys missing
  simp [tableSum, entries]

theorem table_sum_congr (left right : Value → Nat) (table : AList fun _ : Key => Value)
    (same : ∀ key value, table.lookup key = some value → left value = right value) :
    tableSum left table = tableSum right table := by
  unfold tableSum
  congr 1
  apply List.map_congr_left
  intro pair member
  exact same pair.1 pair.2 (AList.mem_lookup_iff.2 (by simpa using member))

/-- A table without its keys is a sum over any set of keys that has them all. -/
theorem table_sum_over (weight : Value → Nat) (table : AList fun _ : Key => Value) (keys : Finset Key)
    (covers : ∀ key, table.lookup key ≠ none → key ∈ keys) :
    tableSum weight table = ∑ key ∈ keys, (table.lookup key).elim 0 weight := by
  have looked : table.entries.map (fun pair => weight pair.2) =
      table.keys.map fun key => (table.lookup key).elim 0 weight := by
    rw [AList.keys, List.keys, List.map_map]
    apply List.map_congr_left
    intro pair member
    have found : table.lookup pair.1 = some pair.2 := AList.mem_lookup_iff.2 (by simpa using member)
    simp [found]
  have listed : table.keys.toFinset ⊆ keys := by
    intro key member
    apply covers
    intro absent
    exact AList.lookup_eq_none.1 absent (AList.mem_keys.2 (List.mem_toFinset.1 member))
  rw [tableSum, looked, ← List.sum_toFinset _ table.keys_nodup]
  apply Finset.sum_subset listed
  intro key _ missing
  have absent : table.lookup key = none := by
    apply AList.lookup_eq_none.2
    intro bound
    exact missing (List.mem_toFinset.2 (AList.mem_keys.1 bound))
  rw [absent]
  rfl

/-- The sums of two tables in which every key weighs the same. -/
theorem table_sum_same (weight : Value → Nat) (left right : AList fun _ : Key => Value)
    (same : ∀ key, (left.lookup key).elim 0 weight = (right.lookup key).elim 0 weight) :
    tableSum weight left = tableSum weight right := by
  have covered : ∀ (table : AList fun _ : Key => Value) (key : Key), table.lookup key ≠ none →
      key ∈ table.keys.toFinset := by
    intro table key bound
    by_contra missing
    apply bound
    apply AList.lookup_eq_none.2
    intro inTable
    exact missing (List.mem_toFinset.2 (AList.mem_keys.1 inTable))
  rw [table_sum_over weight left (left.keys.toFinset ∪ right.keys.toFinset)
      fun key bound => Finset.mem_union_left _ (covered left key bound),
    table_sum_over weight right (left.keys.toFinset ∪ right.keys.toFinset)
      fun key bound => Finset.mem_union_right _ (covered right key bound)]
  exact Finset.sum_congr rfl fun key _ => same key

end Tables

end ListSums
