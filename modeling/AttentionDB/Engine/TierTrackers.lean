import AttentionDB.Engine.TrackedKeys

/-!
# What the trackers say about the tiers

As long as no put moves a key to another tier, each tracker knows exactly keys
of its own tier. A put that does move a key tells the new tracker only, and the
old one keeps the key.
-/

namespace AttentionDB

open GuardedRuns BlobStore SlabAllocator

set_option autoImplicit false

namespace Engine

variable {e middle after : Engine} {io : Nat → EvictIo} {i j : Nat} {victim : StorageKey}
  {t1Eviction : CwSlru}

def InTier (e : Engine) (tier : UInt8) (key : StorageKey) : Prop :=
  ∃ entry, e.index.find key = some entry ∧ entry.tier = tier

structure TrackersDescribe (e : Engine) : Prop where
  t1 : ∀ key ∈ e.t1Eviction.tracked, e.InTier kT1Dram key
  t2 : ∀ key ∈ e.t2Eviction.tracked, e.InTier kT2Nvme key

structure DescribeInv (e : Engine) : Prop where
  trackers : TrackersOk e
  describe : TrackersDescribe e

theorem tiers_differ {key : StorageKey} (t1 : e.InTier kT1Dram key) (t2 : e.InTier kT2Nvme key) :
    False := by
  rcases t1 with ⟨entry, found, inT1⟩
  rcases t2 with ⟨other, isOther, inT2⟩
  rw [found] at isOther
  cases isOther
  rw [inT1] at inT2
  contradiction

theorem in_tier_of_find {tier : UInt8} {key : StorageKey}
    (same : after.index.find key = e.index.find key) (inTier : e.InTier tier key) :
    after.InTier tier key := by
  unfold InTier
  rw [same]
  exact inTier

/-! ## A round -/

theorem victim_round_describe {io : EvictIo} (inv : DescribeInv e)
    (picked : e.t1Eviction.evict = (some victim, t1Eviction))
    (round : VictimRound e io victim t1Eviction after) : DescribeInv after := by
  have trackers := victim_round_trackers inv.trackers picked round
  have frame := victim_round_frame round
  have spec := picked_spec inv.trackers.t1 picked
  have victimT1 := inv.describe.t1 victim spec.2.1
  have kept : ∀ tier key, key ≠ victim → e.InTier tier key → after.InTier tier key := by
    intro tier key different inTier
    exact in_tier_of_find (frame.others key different) inTier
  have t1 : ∀ key ∈ after.t1Eviction.tracked, after.InTier kT1Dram key := by
    intro key member
    rw [victim_round_tracker round, spec.2.2, Finset.mem_erase] at member
    exact kept kT1Dram key member.1 (inv.describe.t1 key member.2)
  -- the victim has a T1 entry, so the other tracker does not name it
  have old : ∀ key ∈ e.t2Eviction.tracked, after.InTier kT2Nvme key := by
    intro key member
    have inT2 := inv.describe.t2 key member
    apply kept kT2Nvme key _ inT2
    rintro rfl
    exact tiers_differ victimT1 inT2
  refine { trackers, describe := { t1, t2 := ?_ } }
  cases round with
  | skipped | dropped | refused => exact old
  | demoted entry found inT1 warm t2 t2After loc isStore ran =>
      intro key member
      have inserted := (CwSlru.on_insert_spec inv.trackers.t2 victim entry.recomputeCost
        victim.chunkIndex io.now).2
      change key ∈ (e.t2Eviction.onInsert victim entry.recomputeCost victim.chunkIndex io.now).tracked
        at member
      rw [inserted, Finset.mem_insert] at member
      rcases member with rfl | member
      · exact ⟨demotedEntry entry loc, ConcurrentHashMap.find_upsert_self _ _ _, rfl⟩
      · exact old key member

/-! ## The calls -/

def SameTier (e : Engine) (key : StorageKey) (blob : List UInt8) : Prop :=
  ∀ entry, e.index.find key = some entry → (entry.tier = kT1Dram ↔ (e.allocateT1 blob).isSome)

theorem in_tier_upsert {index : ConcurrentHashMap} {key other : StorageKey} {entry : IndexEntry}
    {tier : UInt8} (kept : other ≠ key → ∃ old, index.find other = some old ∧ old.tier = tier)
    (named : other = key → entry.tier = tier) :
    ∃ found, (index.upsert key entry).find other = some found ∧ found.tier = tier := by
  rw [ConcurrentHashMap.find_upsert]
  split
  · rename_i same
    exact ⟨entry, rfl, named same⟩
  · rename_i different
    exact kept different

theorem stored_describe {key : StorageKey} {blob : List UInt8} {opts : PutOpts} {io : PutIo}
    (inv : DescribeInv e) (sameTier : SameTier e key blob)
    (stored : Stored e key blob opts io after) : DescribeInv after := by
  cases stored with
  | inT1 admission a allocator handle ptr accepted isAllocator allocated =>
      have spec := CwSlru.on_insert_spec inv.trackers.t1 key opts.recomputeCost key.chunkIndex io.now
      have room : (e.allocateT1 blob).isSome := by simp [allocateT1, isAllocator, allocated]
      refine
        { trackers := { t1 := spec.1, t2 := inv.trackers.t2 }
          describe := { t1 := ?_, t2 := ?_ } }
      · intro other member
        change other ∈ (e.t1Eviction.onInsert key opts.recomputeCost key.chunkIndex io.now).tracked
          at member
        rw [spec.2, Finset.mem_insert] at member
        apply in_tier_upsert
        · intro different
          exact inv.describe.t1 other (member.resolve_left different)
        · intro _
          rfl
      · intro other member
        apply in_tier_upsert
        · intro _
          exact inv.describe.t2 other member
        · rintro rfl
          rcases inv.describe.t2 other member with ⟨entry, found, inT2⟩
          have inT1 := (sameTier entry found).2 room
          rw [inT1] at inT2
          contradiction
  | inT2 admission t2 t2After loc accepted full isStore ran =>
      have spec := CwSlru.on_insert_spec inv.trackers.t2 key opts.recomputeCost key.chunkIndex io.now
      refine
        { trackers := { t1 := inv.trackers.t1, t2 := spec.1 }
          describe := { t1 := ?_, t2 := ?_ } }
      · intro other member
        apply in_tier_upsert
        · intro _
          exact inv.describe.t1 other member
        · rintro rfl
          rcases inv.describe.t1 other member with ⟨entry, found, inT1⟩
          have room := (sameTier entry found).1 inT1
          rw [full] at room
          contradiction
      · intro other member
        change other ∈ (e.t2Eviction.onInsert key opts.recomputeCost key.chunkIndex io.now).tracked
          at member
        rw [spec.2, Finset.mem_insert] at member
        apply in_tier_upsert
        · intro different
          exact inv.describe.t2 other (member.resolve_left different)
        · intro _
          rfl

theorem stored_stores {key : StorageKey} {blob : List UInt8} {opts : PutOpts} {io : PutIo}
    (stored : Stored e key blob opts io after) : Accepted e blob opts ∧ Stores e key blob io := by
  cases stored with
  | inT1 admission a allocator handle ptr accepted isAllocator allocated =>
      exact ⟨accepted, .inl (by simp [allocateT1, isAllocator, allocated])⟩
  | inT2 admission t2 t2After loc accepted full isStore ran =>
      exact ⟨accepted, .inr ⟨t2, loc, t2After, isStore, ran⟩⟩

theorem put_describe {key : StorageKey} {blob : List UInt8} {opts : PutOpts} {io : PutIo}
    {status : Status} (inv : DescribeInv e)
    (sameTier : Accepted e blob opts → Stores e key blob io → SameTier e key blob)
    (steps : PutSteps e key blob opts io status after) : DescribeInv after := by
  cases steps with
  | rejected | refused =>
      exact
        { trackers := { t1 := inv.trackers.t1, t2 := inv.trackers.t2 }
          describe := { t1 := inv.describe.t1, t2 := inv.describe.t2 } }
  | stored placed stored evicted =>
      rcases evict_pass evicted with ⟨j, pass, _⟩
      rcases stored_stores stored with ⟨accepted, stores⟩
      have start := stored_describe inv (sameTier accepted stores) stored
      apply pass.keeps DescribeInv _ start
      intro e i victim t1Eviction after inv picked round
      exact victim_round_describe inv picked round

theorem in_tier_touch {index : ConcurrentHashMap} {key other : StorageKey} {tier : UInt8} (now : Nat)
    (inTier : ∃ old, index.find other = some old ∧ old.tier = tier) :
    ∃ found, (index.updateFn key (·.touch now)).find other = some found ∧ found.tier = tier := by
  rw [ConcurrentHashMap.find_update_fn]
  split
  · rename_i same
    subst same
    rcases inTier with ⟨old, found, isTier⟩
    exact ⟨old.touch now, by rw [found]; rfl, isTier⟩
  · exact inTier

theorem get_describe (inv : DescribeInv e) (frame : GetFrame e after) : DescribeInv after := by
  have t1 := notified_spec inv.trackers.t1 frame.t1Eviction
  have t2 := notified_spec inv.trackers.t2 frame.t2Eviction
  have kept : ∀ tier key, e.InTier tier key → after.InTier tier key := by
    intro tier key inTier
    unfold InTier
    rcases frame.index with same | ⟨touched, now, same⟩
    · rw [same]
      exact inTier
    · rw [same]
      exact in_tier_touch now inTier
  refine { trackers := { t1 := t1.1, t2 := t2.1 }, describe := { t1 := ?_, t2 := ?_ } }
  · intro key member
    rw [t1.2] at member
    exact kept kT1Dram key (inv.describe.t1 key member)
  · intro key member
    rw [t2.2] at member
    exact kept kT2Nvme key (inv.describe.t2 key member)

theorem del_describe (inv : DescribeInv e) (key : StorageKey) : DescribeInv (e.del key).2 := by
  rcases del_trackers e key with missed | ⟨t1, t2, index⟩
  · rw [missed]
    exact inv
  · have t1Spec := CwSlru.on_remove_spec inv.trackers.t1 key
    have t2Spec := CwSlru.on_remove_spec inv.trackers.t2 key
    rw [← t1] at t1Spec
    rw [← t2] at t2Spec
    have kept : ∀ tier other, other ≠ key → e.InTier tier other → (e.del key).2.InTier tier other := by
      intro tier other different inTier
      apply in_tier_of_find _ inTier
      rw [index, ConcurrentHashMap.find_erase, if_neg different]
    refine
      { trackers := { t1 := t1Spec.1, t2 := t2Spec.1 }
        describe := { t1 := ?_, t2 := ?_ } }
    · intro other member
      rw [t1Spec.2, Finset.mem_erase] at member
      exact kept kT1Dram other member.1 (inv.describe.t1 other member.2)
    · intro other member
      rw [t2Spec.2, Finset.mem_erase] at member
      exact kept kT2Nvme other member.1 (inv.describe.t2 other member.2)

/-! ## Counting -/

theorem DescribeInv.disjoint (inv : DescribeInv e) :
    Disjoint e.t1Eviction.tracked e.t2Eviction.tracked := by
  rw [Finset.disjoint_left]
  intro key inLeft inRight
  exact tiers_differ (inv.describe.t1 key inLeft) (inv.describe.t2 key inRight)

theorem in_tier_listed {tier : UInt8} {key : StorageKey} (inTier : e.InTier tier key) :
    key ∈ e.index.keys.toFinset := by
  rcases inTier with ⟨entry, found, _⟩
  rw [List.mem_toFinset]
  apply AList.mem_keys.2
  exact AList.lookup_isSome.1 (by rw [show e.index.lookup key = some entry from found]; rfl)

/-- Each tracked key has an index entry of its own. -/
theorem DescribeInv.counted (inv : DescribeInv e) :
    e.stats.evictionProtected + e.stats.evictionProbationary ≤ e.stats.indexEntries := by
  have listed : e.t1Eviction.tracked ∪ e.t2Eviction.tracked ⊆ e.index.keys.toFinset := by
    intro key member
    rcases Finset.mem_union.1 member with inLeft | inRight
    · exact in_tier_listed (inv.describe.t1 key inLeft)
    · exact in_tier_listed (inv.describe.t2 key inRight)
  have counted := Finset.card_le_card listed
  rw [Finset.card_union_of_disjoint inv.disjoint, inv.trackers.t1.card, inv.trackers.t2.card,
    List.toFinset_card_of_nodup e.index.keys_nodup] at counted
  have entries : e.index.keys.length = e.index.size := by
    simp [AList.keys, List.keys, ConcurrentHashMap.size]
  simp only [stats, CwSlru.totalSize, CwSlru.protectedSize, CwSlru.probationarySize] at counted ⊢
  omega

end Engine

/-- Every put that stores its blob goes to the tier where its key is, if the
key is in the index. -/
def sameTierGuard (session : Session) : SessionLabel → Prop
  | .put key blob opts io => session.engine.Accepted blob opts →
      session.engine.Stores key blob io → session.engine.SameTier key blob
  | _ => True

section Runs

variable {session : Session}

theorem opened_describe {e : Engine} {config : Config} {openIo : Engine.OpenIo}
    (opening : Engine.openEngine config openIo = some e) : e.DescribeInv := by
  rcases Engine.opened_trackers opening with ⟨t1, t2⟩
  have inv := Engine.opened_track_inv opening
  refine { trackers := inv.trackers, describe := { t1 := ?_, t2 := ?_ } }
  · rw [t1]
    simp [CwSlru.tracked, CwSlru.allKeys, EvictionList.keys]
  · rw [t2]
    simp [CwSlru.tracked, CwSlru.allKeys, EvictionList.keys]

theorem step_describe {after : Engine} {label : SessionLabel} (inv : session.engine.DescribeInv)
    (allowed : sameTierGuard session label) (step : EngineStep session.engine label after) :
    after.DescribeInv := by
  cases step with
  | put key blob opts io status ran => exact Engine.put_describe inv allowed (Engine.put_steps ran)
  | get key bufLen io reply ran => exact Engine.get_describe inv (Engine.get_frame ran)
  | del key => exact Engine.del_describe inv key
  | flush step t2 t2After isStore ran =>
      exact
        { trackers := { t1 := inv.trackers.t1, t2 := inv.trackers.t2 }
          describe := { t1 := inv.describe.t1, t2 := inv.describe.t2 } }

/-- In every run in which no put moves a key to another tier, the trackers
describe the tiers, no key is tracked twice, and there are no more tracked
entries than index entries. -/
theorem trackers_describe_tiers
    (reached : ReachWithin (sessionMachine emptyCheckpoint) sameTierGuard session) :
    session.engine.TrackersDescribe ∧
      Disjoint session.engine.t1Eviction.tracked session.engine.t2Eviction.tracked ∧
      session.engine.stats.evictionProtected + session.engine.stats.evictionProbationary ≤
        session.engine.stats.indexEntries := by
  have inv : session.engine.DescribeInv := by
    apply reached.invariant fun session => session.engine.DescribeInv
    · rintro start ⟨config, io, _, opening, _⟩
      exact opened_describe opening
    · intro before label after inv allowed moved
      exact step_describe inv allowed (engine_step moved)
  exact ⟨inv.describe, inv.disjoint, inv.counted⟩

theorem trackers_describe_tiers_after_put :
    (next (sessionMachine emptyCheckpoint) tieredStart tieredPut).engine.TrackersDescribe := by
  have reached : ReachWithin (sessionMachine emptyCheckpoint) sameTierGuard
      (next (sessionMachine emptyCheckpoint) tieredStart tieredPut) := by
    apply ReachWithin.to_next tieredPut (.start tiered_started) _ (by decide)
    intro _ _ entry found
    contradiction
  exact (trackers_describe_tiers reached).1

end Runs

/-! ## A blob that fits no slot, and then one that does -/

def twoTierConfig : Config where
  dramCache := { sizeBytes := 256, sizeClasses := [64] }
  nvmeStore := singleBlockConfig

def twoTierEngine : Engine :=
  { tieredEngine with config := twoTierConfig, t1Allocator := some slabAllocator }

def twoTierStart : Session := { engine := twoTierEngine }

theorem two_tier_started : (sessionMachine emptyCheckpoint).start twoTierStart := by
  refine ⟨twoTierConfig, slabOpenIo, rfl, rfl, ?_, rfl⟩
  rintro a ⟨⟩
  exact single_class_backed _ (by decide) (by decide)

def largePut : SessionLabel :=
  .put probeKey (List.replicate 65 7) { entryType := .kSystemPrompt, recomputeCost := 100 } {}

def movedToT1 : Session := last (sessionMachine emptyCheckpoint) twoTierStart [largePut, slabPut]

/-- The key is in T1 now, and both trackers name it. -/
theorem put_over_t2_tracked_twice : Reach (sessionMachine emptyCheckpoint) movedToT1 ∧
    ¬movedToT1.engine.TrackersDescribe ∧
    movedToT1.engine.stats.indexEntries <
      movedToT1.engine.stats.evictionProtected + movedToT1.engine.stats.evictionProbationary := by
  refine ⟨?_, ?_, by decide +kernel⟩
  · have start : Reach (sessionMachine emptyCheckpoint) twoTierStart := .start two_tier_started
    exact start.to_last [largePut, slabPut] (by decide +kernel)
  · intro describe
    have tracked : probeKey ∈ movedToT1.engine.t2Eviction.tracked := by decide +kernel
    rcases describe.t2 probeKey tracked with ⟨entry, found, inT2⟩
    have inT1 : (movedToT1.engine.index.find probeKey).map (·.tier) = some kT1Dram := by
      decide +kernel
    rw [found, Option.map_some, inT2] at inT1
    exact absurd inT1 (by decide)

end AttentionDB
