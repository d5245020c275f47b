import AttentionDB.Core.Types

/-!
# The index

`ConcurrentHashMap` wraps a hash table from storage keys to index entries. Each
of its calls is atomic, so the model is a finite association map and one
function for each call. `insert` in `bulk_load` keeps an entry that is already
there.
-/

namespace AttentionDB

set_option autoImplicit false

abbrev ConcurrentHashMap := AList fun _ : StorageKey => IndexEntry

namespace ConcurrentHashMap

variable (index : ConcurrentHashMap) (key other : StorageKey) (entry : IndexEntry)

def find : Option IndexEntry := AList.lookup key index

def upsert : ConcurrentHashMap := AList.insert key entry index

def erase : ConcurrentHashMap := AList.erase key index

def contains : Bool := (index.find key).isSome

def size : Nat := index.entries.length

def updateFn (change : IndexEntry → IndexEntry) : ConcurrentHashMap :=
  match index.find key with
  | some entry => index.upsert key (change entry)
  | none => index

def bulkLoad (index : ConcurrentHashMap) : List (StorageKey × IndexEntry) → ConcurrentHashMap
  | [] => index
  | (key, entry) :: rest =>
      bulkLoad (if index.contains key then index else index.upsert key entry) rest

def snapshot : List (StorageKey × IndexEntry) := index.entries.map fun pair => (pair.1, pair.2)

/-! ## What a lookup sees after each call -/

@[simp] theorem find_empty : find (∅ : ConcurrentHashMap) key = none := rfl

@[simp] theorem find_upsert_self : (index.upsert key entry).find key = some entry :=
  AList.lookup_insert index

theorem find_upsert : (index.upsert key entry).find other =
    if other = key then some entry else index.find other := by
  split_ifs with same
  · rw [same, find_upsert_self]
  · exact AList.lookup_insert_ne same

@[simp] theorem find_erase_self : (index.erase key).find key = none :=
  AList.lookup_erase key index

theorem find_erase : (index.erase key).find other =
    if other = key then none else index.find other := by
  split_ifs with same
  · rw [same, find_erase_self]
  · exact AList.lookup_erase_ne same

theorem find_update_fn (change : IndexEntry → IndexEntry) :
    (index.updateFn key change).find other =
      if other = key then (index.find key).map change else index.find other := by
  unfold updateFn
  cases found : index.find key with
  | none =>
      split_ifs with same
      · rw [same, found]
        rfl
      · rfl
  | some entry =>
      simp only [find_upsert, Option.map_some]

theorem mem_snapshot : (key, entry) ∈ index.snapshot ↔ index.find key = some entry := by
  have member := AList.mem_lookup_iff (s := index) (a := key) (b := entry)
  simp only [Option.mem_def] at member
  simp [snapshot, find, member]

/-- A key keeps its entry, and the first of several new entries wins. -/
theorem find_bulk_load (entries : List (StorageKey × IndexEntry)) :
    (index.bulkLoad entries).find key =
      (index.find key).or ((entries.find? fun pair => pair.1 = key).map Prod.snd) := by
  induction entries generalizing index with
  | nil => simp [bulkLoad]
  | cons pair rest ih =>
      rw [bulkLoad, ih]
      by_cases same : pair.1 = key
      · subst same
        cases found : index.find pair.1 with
        | none => simp [contains, found]
        | some entry => simp [contains, found]
      · have kept : (if index.contains pair.1 then index else index.upsert pair.1 pair.2).find key =
            index.find key := by
          split_ifs
          · rfl
          · rw [find_upsert, if_neg (Ne.symm same)]
        rw [kept, List.find?_cons_of_neg (by simpa using same)]

/-- Loading what was enumerated gives the same map, whatever the order. -/
theorem find_bulk_load_snapshot {entries : List (StorageKey × IndexEntry)}
    (perm : entries.Perm index.snapshot) : (bulkLoad ∅ entries).find key = index.find key := by
  rw [find_bulk_load, find_empty, Option.none_or]
  cases found : entries.find? fun pair => pair.1 = key with
  | none =>
      rw [List.find?_eq_none] at found
      cases known : index.find key with
      | none => rfl
      | some entry =>
          have member := perm.mem_iff.2 ((index.mem_snapshot key entry).2 known)
          have other := found _ member
          simp at other
  | some pair =>
      have named : pair.1 = key := by simpa using List.find?_some found
      have member := perm.mem_iff.1 (List.mem_of_find?_eq_some found)
      rw [← named, (index.mem_snapshot pair.1 pair.2).1 member]
      rfl

theorem snapshot_keys_nodup : (index.snapshot.map Prod.fst).Nodup := by
  have keys : index.snapshot.map Prod.fst = index.keys := by
    simp [snapshot, AList.keys, List.keys, Function.comp_def]
  rw [keys]
  exact index.keys_nodup

end ConcurrentHashMap

end AttentionDB
