import AttentionDB.Engine.TrackedKeys

/-!
# Eviction restores headroom

A pass ends below the watermark or with an empty tracker. In the second case no
T1 entry is left, so nobody owns a slot, so every slot is free: below the
watermark as well. Around the loop that argument needs one invariant, which
every round keeps: T1 entries and allocated slots correspond, and every T1
entry is tracked.
-/

namespace AttentionDB

open GuardedRuns BlobStore SlabAllocator

set_option autoImplicit false

namespace Engine

variable {e middle after : Engine} {io : Nat → EvictIo} {i j : Nat} {victim : StorageKey}
  {t1Eviction : CwSlru}

/-- T1 entries and allocated slots are in one-to-one correspondence, and the
tracker knows every T1 entry. -/
structure SlotsAccounted (e : Engine) : Prop where
  t1 : e.T1Sound
  owned : SlotsOwned e.index e.t1Allocator
  rep : e.t1Eviction.RepOk
  tracked : T1Tracked e

def HasHeadroom (e : Engine) : Prop :=
  ∀ a, e.t1Allocator = some a → a.usedBytes * 100 ≤ a.totalCapacity * 95

theorem victim_round_owned {io : EvictIo} (accounted : SlotsAccounted e)
    (round : VictimRound e io victim t1Eviction after) :
    SlotsOwned after.index after.t1Allocator := by
  cases round with
  | skipped => exact accounted.owned
  | dropped entry found inT1 cold =>
      exact accounted.owned.release accounted.t1 found inT1
        fun _ _ owns different => owns_after_erase owns different
  | refused entry found inT1 warm t2 t2After status loc isStore ran bad =>
      exact accounted.owned.release accounted.t1 found inT1
        fun _ _ owns different => owns_after_erase owns different
  | demoted entry found inT1 warm t2 t2After loc isStore ran =>
      exact accounted.owned.release accounted.t1 found inT1
        fun _ _ owns different => owns_after_upsert owns different

theorem victim_round_accounted {io : EvictIo} (accounted : SlotsAccounted e)
    (picked : e.t1Eviction.evict = (some victim, t1Eviction))
    (round : VictimRound e io victim t1Eviction after) : SlotsAccounted after where
  t1 := evict_round_t1 accounted.t1 round.toRound
  owned := victim_round_owned accounted round
  rep := by
    rw [victim_round_tracker round]
    exact (picked_spec accounted.rep picked).1
  tracked := victim_round_tracked accounted.rep accounted.tracked picked round

theorem calm_has_headroom (calm : e.overWatermark = false) : HasHeadroom e := by
  intro a isAllocator
  simp only [overWatermark, isAllocator, decide_eq_false_iff_not] at calm
  omega

/-- Nothing is tracked, so nothing is in T1, so no slot is allocated. -/
theorem SlotsAccounted.unused (accounted : SlotsAccounted e)
    (empty : e.t1Eviction.evict.1 = none) : HasHeadroom e := by
  have spec := (CwSlru.evict_spec accounted.rep).2
  rw [empty] at spec
  intro a isAllocator
  have allFree : ∀ ptr size, IsSlot a ptr size → IsFree a ptr := by
    intro ptr size isSlot
    by_contra taken
    rcases accounted.owned a isAllocator ptr size isSlot taken with ⟨key, entry, found, inT1, _⟩
    have tracked := accounted.tracked key entry found inT1
    rw [spec.1] at tracked
    exact absurd tracked (Finset.notMem_empty key)
  have layout := accounted.t1.layout a isAllocator
  have frees := accounted.t1.frees a isAllocator
  rw [used_bytes_exact layout frees, all_free_unused layout frees allFree]
  omega

theorem SlotsAccounted.settled (accounted : SlotsAccounted e) (settled : Settled e) :
    HasHeadroom e := by
  rcases settled with calm | empty
  · exact calm_has_headroom calm
  · exact accounted.unused empty

theorem pass_accounted (accounted : SlotsAccounted e) (pass : Pass io i e j after) :
    SlotsAccounted after :=
  pass.keeps SlotsAccounted
    (fun _ _ _ _ _ before picked round => victim_round_accounted before picked round) accounted

end Engine

/-! ## Where a pass starts -/

section Stored

variable {e after : Engine} {key : StorageKey} {blob : List UInt8} {opts : PutOpts} {io : PutIo}

/-- The pass of a put starts from a state with the books in order, unless the
put stored over a T1 entry now or an earlier one did. -/
theorem put_pass_accounted {session : Session}
    (reached : ReachWithin (sessionMachine anyCheckpoint) noOverwriteGuard session)
    (fresh : ¬session.engine.Resident key)
    (stored : session.engine.Stored key blob opts io after) : after.SlotsAccounted := by
  have owned := Engine.stored_owned (reach_owned reached) fresh stored
  have tracks := Engine.stored_track_inv (reach_track_inv reached) stored
  exact
    { t1 := owned.t1
      owned := owned.owned
      rep := tracks.trackers.t1
      tracked := tracks.tracked }

end Stored

/-- From every state in which slots and T1 entries correspond, and whatever the
writes return, the pass ends: only a write that does not return takes its
result away. It leaves headroom, and all it changed are its victims. -/
theorem evict_restores_headroom {e : Engine} (accounted : e.SlotsAccounted) (io : Nat → EvictIo) :
    (e.evictIfNeeded io = none → Engine.Hangs io 0 e) ∧
    ∀ after, e.evictIfNeeded io = some after →
      (∀ fuel, e.t1Eviction.totalSize < fuel → Engine.evictLoop io fuel 0 e = some after) ∧
      after.HasHeadroom ∧
      (∃ victims, Engine.Evicted io 0 e victims after ∧ Engine.AllFreed e victims after) ∧
      after.SlotsAccounted := by
  refine ⟨Engine.loop_hangs, ?_⟩
  intro after ran
  rcases Engine.evict_pass ran with ⟨j, pass, settled⟩
  have kept := Engine.pass_accounted accounted pass
  refine ⟨?_, kept.settled settled, Engine.pass_evicted pass accounted.t1, kept⟩
  intro fuel enough
  exact Engine.pass_loop pass settled enough

def fullSlotEngine : Engine :=
  let entry := Engine.t1Entry [7] { entryType := .kSystemPrompt, recomputeCost := 100 } {} 4096
  { tieredEngine with
    admission := tieredEngine.admission.recordEvaluation .kAdmit
    t1Eviction := tieredEngine.t1Eviction.onInsert probeKey 100 0 0
    t1Allocator := some (tieredAllocator.withFreeList 0 List.tail)
    memory := ByteMap.patch tieredEngine.memory 4096 [7]
    index := tieredEngine.index.upsert probeKey entry }

theorem full_slot_accounted : fullSlotEngine.SlotsAccounted := by
  have reached : ReachWithin (sessionMachine anyCheckpoint) noOverwriteGuard tieredStart :=
    .start (any_checkpoint_start tiered_started)
  have fresh : ¬tieredStart.engine.Resident probeKey := by
    rintro ⟨entry, found, _⟩
    contradiction
  have stored : tieredStart.engine.Stored probeKey [7]
      { entryType := .kSystemPrompt, recomputeCost := 100 } {} fullSlotEngine :=
    .inT1 _ tieredAllocator _ ⟨0, 0⟩ 4096 ⟨by decide, by decide⟩ rfl rfl
  exact put_pass_accounted reached fresh stored

theorem evict_restores_headroom_demotes :
    ∃ after, fullSlotEngine.evictIfNeeded (fun _ => {}) = some after ∧
      after.HasHeadroom ∧ (after.index.find probeKey).map (·.tier) = some kT2Nvme := by
  have returns : (fullSlotEngine.evictIfNeeded fun _ => {}).isSome = true := by decide +kernel
  obtain ⟨after, ran⟩ := Option.isSome_iff_exists.1 returns
  have moved : (fullSlotEngine.evictIfNeeded fun _ => {}).map
      (fun e => (e.index.find probeKey).map (·.tier)) = some (some kT2Nvme) := by decide +kernel
  rw [ran] at moved
  exact ⟨after, ran, ((evict_restores_headroom full_slot_accounted _).2 after ran).2.1,
    Option.some.inj moved⟩

end AttentionDB
