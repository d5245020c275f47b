import AttentionDB.Engine.EvictionPass

/-!
# Every T1 entry can be evicted

The keys with a T1 entry are tracked by `t1_eviction_`. A put tracks the key it
stores in T1, a delete and an eviction untrack only keys whose T1 entry goes
away with them, and a get changes no set of keys. The tracker may know other
keys as well: an overwrite that moves a key to T2 leaves it tracked.
-/

namespace AttentionDB

open GuardedRuns BlobStore SlabAllocator EvictionList

set_option autoImplicit false

namespace Engine

variable {e middle after : Engine} {io : Nat → EvictIo} {i j : Nat} {victim : StorageKey}
  {t1Eviction : CwSlru}

/-! ## The trackers are well formed -/

structure TrackersOk (e : Engine) : Prop where
  t1 : e.t1Eviction.RepOk
  t2 : e.t2Eviction.RepOk

def T1Tracked (e : Engine) : Prop :=
  ∀ key entry, e.index.find key = some entry → entry.tier = kT1Dram → key ∈ e.t1Eviction.tracked

/-- The tracker after it gave up a victim. -/
theorem picked_spec (ok : e.t1Eviction.RepOk)
    (picked : e.t1Eviction.evict = (some victim, t1Eviction)) :
    t1Eviction.RepOk ∧ victim ∈ e.t1Eviction.tracked ∧
      t1Eviction.tracked = e.t1Eviction.tracked.erase victim := by
  have spec := CwSlru.evict_spec ok
  rw [picked] at spec
  exact spec

theorem victim_round_t2_tracker {io : EvictIo} (ok : TrackersOk e)
    (round : VictimRound e io victim t1Eviction after) : after.t2Eviction.RepOk := by
  cases round with
  | skipped | dropped | refused => exact ok.t2
  | demoted => exact (CwSlru.on_insert_spec ok.t2 _ _ _ _).1

theorem victim_round_trackers {io : EvictIo} (ok : TrackersOk e)
    (picked : e.t1Eviction.evict = (some victim, t1Eviction))
    (round : VictimRound e io victim t1Eviction after) : TrackersOk after where
  t1 := by
    rw [victim_round_tracker round]
    exact (picked_spec ok.t1 picked).1
  t2 := victim_round_t2_tracker ok round

theorem victim_round_tracked {io : EvictIo} (ok : e.t1Eviction.RepOk) (tracked : T1Tracked e)
    (picked : e.t1Eviction.evict = (some victim, t1Eviction))
    (round : VictimRound e io victim t1Eviction after) : T1Tracked after := by
  have frame := victim_round_frame round
  intro key entry found inT1
  have different : key ≠ victim := by
    rintro rfl
    exact frame.gone entry found inT1
  rw [frame.others key different] at found
  rw [victim_round_tracker round, (picked_spec ok picked).2.2]
  exact Finset.mem_erase.2 ⟨different, tracked key entry found inT1⟩

/-! ## The calls -/

structure TrackInv (e : Engine) : Prop where
  trackers : TrackersOk e
  tracked : T1Tracked e

theorem pass_track_inv (inv : TrackInv e) (pass : Pass io i e j after) : TrackInv after := by
  apply pass.keeps TrackInv _ inv
  intro e i victim t1Eviction after inv picked round
  exact
    { trackers := victim_round_trackers inv.trackers picked round
      tracked := victim_round_tracked inv.trackers.t1 inv.tracked picked round }

theorem stored_track_inv {key : StorageKey} {blob : List UInt8} {opts : PutOpts} {io : PutIo}
    (inv : TrackInv e) (stored : Stored e key blob opts io after) : TrackInv after := by
  cases stored with
  | inT1 admission a allocator handle ptr accepted isAllocator allocated =>
      have spec := CwSlru.on_insert_spec inv.trackers.t1 key opts.recomputeCost key.chunkIndex io.now
      refine { trackers := { t1 := spec.1, t2 := inv.trackers.t2 }, tracked := ?_ }
      intro other entry found inT1
      change other ∈ (e.t1Eviction.onInsert key opts.recomputeCost key.chunkIndex io.now).tracked
      rw [spec.2]
      rw [ConcurrentHashMap.find_upsert] at found
      split at found
      · rename_i same
        rw [same]
        exact Finset.mem_insert_self _ _
      · exact Finset.mem_insert_of_mem (inv.tracked other entry found inT1)
  | inT2 admission t2 t2After loc accepted full isStore ran =>
      have spec := CwSlru.on_insert_spec inv.trackers.t2 key opts.recomputeCost key.chunkIndex io.now
      refine { trackers := { t1 := inv.trackers.t1, t2 := spec.1 }, tracked := ?_ }
      intro other entry found inT1
      rw [ConcurrentHashMap.find_upsert] at found
      split at found
      · cases found
        cases inT1
      · exact inv.tracked other entry found inT1

theorem put_track_inv {key : StorageKey} {blob : List UInt8} {opts : PutOpts} {io : PutIo}
    {status : Status} (inv : TrackInv e) (steps : PutSteps e key blob opts io status after) :
    TrackInv after := by
  cases steps with
  | rejected | refused =>
      exact { trackers := { t1 := inv.trackers.t1, t2 := inv.trackers.t2 }, tracked := inv.tracked }
  | stored placed stored evicted =>
      rcases evict_pass evicted with ⟨j, pass, _⟩
      exact pass_track_inv (stored_track_inv inv stored) pass

theorem notified_spec {s after : CwSlru} (ok : s.RepOk) (notified : Notified s after) :
    after.RepOk ∧ after.tracked = s.tracked := by
  cases notified with
  | same => exact ⟨ok, rfl⟩
  | accessed key recomputeCost now => exact CwSlru.on_access_spec ok key recomputeCost now

theorem get_track_inv (inv : TrackInv e) (frame : GetFrame e after) : TrackInv after := by
  have t1 := notified_spec inv.trackers.t1 frame.t1Eviction
  refine
    { trackers := { t1 := t1.1, t2 := (notified_spec inv.trackers.t2 frame.t2Eviction).1 }
      tracked := ?_ }
  intro key entry found inT1
  rw [t1.2]
  rcases frame.index with same | ⟨touched, now, same⟩
  · rw [same] at found
    exact inv.tracked key entry found inT1
  · rw [same] at found
    rcases t1_subset_touch e.index touched now key entry found inT1 with ⟨old, was, wasT1, _⟩
    exact inv.tracked key old was wasT1

theorem del_track_inv (inv : TrackInv e) (key : StorageKey) : TrackInv (e.del key).2 := by
  rcases del_trackers e key with missed | ⟨t1, t2, index⟩
  · rw [missed]
    exact inv
  · have t1Spec := CwSlru.on_remove_spec inv.trackers.t1 key
    have t2Spec := CwSlru.on_remove_spec inv.trackers.t2 key
    rw [← t1] at t1Spec
    rw [← t2] at t2Spec
    refine { trackers := { t1 := t1Spec.1, t2 := t2Spec.1 }, tracked := ?_ }
    intro other entry found inT1
    rw [index, ConcurrentHashMap.find_erase] at found
    split at found
    · contradiction
    · rename_i different
      rw [t1Spec.2]
      exact Finset.mem_erase.2 ⟨different, inv.tracked other entry found inT1⟩

theorem step_track_inv {label : SessionLabel} (inv : TrackInv e) (step : EngineStep e label after) :
    TrackInv after := by
  cases step with
  | put key blob opts io status ran => exact put_track_inv inv (put_steps ran)
  | get key bufLen io reply ran => exact get_track_inv inv (get_frame ran)
  | del key => exact del_track_inv inv key
  | flush step t2 t2After isStore ran =>
      exact { trackers := { t1 := inv.trackers.t1, t2 := inv.trackers.t2 }, tracked := inv.tracked }

/-- Whatever the checkpoint held, the trackers of a fresh engine are empty and
so is the T1 part of its index. -/
theorem opened_trackers {config : Config} {openIo : OpenIo}
    (opening : openEngine config openIo = some e) :
    e.t1Eviction = { config := { protectedRatio := config.eviction.protectedRatio } } ∧
      e.t2Eviction = { config := { protectedRatio := config.eviction.protectedRatio } } := by
  unfold openEngine at opening
  simp only at opening
  split at opening
  · cases opening
    exact ⟨rfl, rfl⟩
  · contradiction

theorem opened_track_inv {config : Config} {openIo : OpenIo}
    (opening : openEngine config openIo = some e) : TrackInv e := by
  rcases opened_trackers opening with ⟨t1, t2⟩
  refine { trackers := { t1 := ?_, t2 := ?_ }, tracked := ?_ }
  · rw [t1]
    exact CwSlru.rep_ok_start _
  · rw [t2]
    exact CwSlru.rep_ok_start _
  · intro key entry found inT1
    rw [(open_engine_opened opening).index] at found
    exact absurd inT1 (loaded_index_not_t1 found)

end Engine

section Runs

variable {checkpoints : Option (List (StorageKey × IndexEntry)) → Prop} {session : Session}

theorem reach_track_inv {guard : Session → SessionLabel → Prop}
    (reached : ReachWithin (sessionMachine checkpoints) guard session) : session.engine.TrackInv := by
  apply reached.invariant fun session => session.engine.TrackInv
  · rintro start ⟨config, io, _, opening, _⟩
    exact Engine.opened_track_inv opening
  · intro before label after inv _ moved
    exact Engine.step_track_inv inv (engine_step moved)

end Runs

/-- In every sequential run, from any checkpoint, a key with a T1 entry is in
exactly one of the two lists of the T1 tracker. -/
theorem t1_entries_evictable {session : Session}
    (reached : Reach (sessionMachine anyCheckpoint) session) :
    ∀ key entry, session.engine.index.find key = some entry → entry.tier = kT1Dram →
      key ∈ session.engine.t1Eviction.tracked ∧
        Xor (key ∈ keys session.engine.t1Eviction.protectedList)
          (key ∈ keys session.engine.t1Eviction.probationaryList) := by
  intro key entry found inT1
  have inv := reach_track_inv reached
  have tracked := inv.tracked key entry found inT1
  refine ⟨tracked, ?_⟩
  rcases CwSlru.mem_tracked.1 tracked with inProtected | inProbationary
  · exact .inl ⟨inProtected, inv.trackers.t1.apart key inProtected⟩
  · refine .inr ⟨inProbationary, ?_⟩
    intro inProtected
    exact inv.trackers.t1.apart key inProtected inProbationary

theorem t1_entries_evictable_after_put :
    probeKey ∈ (next (sessionMachine anyCheckpoint) slabStart slabPut).engine.t1Eviction.tracked := by
  have reached : Reach (sessionMachine anyCheckpoint)
      (next (sessionMachine anyCheckpoint) slabStart slabPut) :=
    .to_next slabPut (.start slab_started) trivial (by decide)
  exact (t1_entries_evictable reached probeKey _ rfl rfl).1

end AttentionDB
