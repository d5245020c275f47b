import AttentionDB.Engine.TierTrackers

/-!
# Whether a put keeps its entry

The eviction pass of a put may take the entry that was just stored. Which keys
the pass chooses depends on the usage, the tracker and the slots alone, so the
choice is a function of the state in which the pass starts; whether a chosen
key survives depends on its cost and on the blob store.
-/

namespace AttentionDB

open GuardedRuns BlobStore SlabAllocator

set_option autoImplicit false

namespace Engine

variable {e middle after : Engine} {io : Nat → EvictIo} {i j k : Nat} {key victim : StorageKey}
  {t1Eviction : CwSlru}

/-! ## The keys that the pass chooses -/

def releaseSlot (e : Engine) (key : StorageKey) : Engine :=
  match e.index.find key with
  | none => e
  | some entry => if entry.tier = kT1Dram then e.freeT1 entry.address.toNat else e

/-- The keys that the loop takes out of the tracker, in their order. -/
def chosenKeys : Nat → Engine → List StorageKey
  | 0, _ => []
  | fuel + 1, e =>
      if e.overWatermark then
        match e.t1Eviction.evict with
        | (none, _) => []
        | (some victim, t1Eviction) =>
            victim :: chosenKeys fuel { e.releaseSlot victim with t1Eviction }
      else []

def evictionChoice (e : Engine) : List StorageKey := chosenKeys (e.t1Eviction.totalSize + 1) e

@[simp] theorem release_slot_index (e : Engine) (key : StorageKey) :
    (e.releaseSlot key).index = e.index := by
  unfold releaseSlot
  split
  · rfl
  · split <;> rfl

/-- The choice depends on the allocator, the tracker and the entries of the
tracked keys. -/
theorem chosen_congr {fuel : Nat} {other : Engine} (ok : e.t1Eviction.RepOk)
    (allocator : other.t1Allocator = e.t1Allocator) (tracker : other.t1Eviction = e.t1Eviction)
    (entries : ∀ key ∈ e.t1Eviction.tracked, other.index.find key = e.index.find key) :
    chosenKeys fuel other = chosenKeys fuel e := by
  induction fuel generalizing e other with
  | zero => rfl
  | succ fuel ih =>
      have sameUsage : other.overWatermark = e.overWatermark := by
        unfold overWatermark
        rw [allocator]
      rw [chosenKeys, chosenKeys, sameUsage, tracker]
      split
      · split
        · rfl
        · rename_i victim t1Eviction picked
          obtain ⟨left, member, removed⟩ := picked_spec ok picked
          have sameSlot : (other.releaseSlot victim).t1Allocator = (e.releaseSlot victim).t1Allocator := by
            unfold releaseSlot
            rw [entries victim member]
            split
            · exact allocator
            · split
              · simp only [freeT1, allocator]
              · exact allocator
          rw [ih]
          · exact left
          · exact sameSlot
          · rfl
          · intro key tracked
            change key ∈ t1Eviction.tracked at tracked
            rw [removed, Finset.mem_erase] at tracked
            simp only [release_slot_index]
            exact entries key tracked.2
      · rfl

theorem victim_round_slot {io : EvictIo} (round : VictimRound e io victim t1Eviction middle) :
    middle.t1Allocator = (e.releaseSlot victim).t1Allocator := by
  unfold releaseSlot
  cases round with
  | skipped notInT1 =>
      split
      · rfl
      · rename_i entry found
        rw [if_neg (notInT1 entry found)]
  | dropped entry found inT1 | refused entry found inT1 | demoted entry found inT1 =>
      rw [found]
      simp only [if_pos inT1]
      rfl

/-- One round chooses one key, and the rest is what the next state chooses. -/
theorem chosen_round {fuel : Nat} {io : EvictIo} (ok : e.t1Eviction.RepOk)
    (crowded : e.overWatermark = true) (picked : e.t1Eviction.evict = (some victim, t1Eviction))
    (round : VictimRound e io victim t1Eviction middle) :
    chosenKeys (fuel + 1) e = victim :: chosenKeys fuel middle := by
  obtain ⟨left, _, removed⟩ := picked_spec ok picked
  have frame := victim_round_frame round
  have rest : chosenKeys fuel middle = chosenKeys fuel { e.releaseSlot victim with t1Eviction } := by
    apply chosen_congr
    · exact left
    · exact victim_round_slot round
    · exact victim_round_tracker round
    · intro key tracked
      change key ∈ t1Eviction.tracked at tracked
      rw [removed, Finset.mem_erase] at tracked
      simp only [release_slot_index]
      exact frame.others key tracked.1
  rw [rest, chosenKeys, if_pos crowded, picked]

/-! ## The pass takes exactly the chosen keys out of T1 -/

theorem victim_round_t1 {io : EvictIo} (round : VictimRound e io victim t1Eviction middle)
    (outside : ¬e.InTier kT1Dram key) : ¬middle.InTier kT1Dram key := by
  have frame := victim_round_frame round
  rintro ⟨entry, found, inT1⟩
  have different : key ≠ victim := by
    rintro rfl
    exact frame.gone entry found inT1
  rw [frame.others key different] at found
  exact outside ⟨entry, found, inT1⟩

theorem pass_t1 (pass : Pass io i e j after) (outside : ¬e.InTier kT1Dram key) :
    ¬after.InTier kT1Dram key := by
  apply pass.keeps (fun e => ¬e.InTier kT1Dram key) _ outside
  intro e i victim t1Eviction after outside picked round
  exact victim_round_t1 round outside

theorem chosen_leaves {fuel : Nat} (ok : e.t1Eviction.RepOk) (pass : Pass io i e j after)
    (settled : Settled after) (enough : e.t1Eviction.totalSize < fuel)
    (inT1 : e.InTier kT1Dram key) : key ∈ chosenKeys fuel e ↔ ¬after.InTier kT1Dram key := by
  induction pass generalizing fuel with
  | here i e =>
      have none : chosenKeys fuel e = [] := by
        cases fuel with
        | zero => rfl
        | succ fuel =>
            rw [chosenKeys]
            split
            · rename_i crowded
              split
              · rfl
              · rename_i victim t1Eviction picked
                unfold Settled at settled
                rw [picked, crowded] at settled
                rcases settled with calm | empty <;> contradiction
            · rfl
      rw [none]
      constructor
      · intro member
        contradiction
      · intro outside
        exact absurd inT1 outside
  | @round i j e middle after victim t1Eviction crowded picked ran rest ih =>
      have round := victim_round ran
      have frame := victim_round_frame round
      have shrinks := round_shrinks picked round
      cases fuel with
      | zero => omega
      | succ fuel =>
          rw [chosen_round ok crowded picked round, List.mem_cons]
          by_cases same : key = victim
          · subst same
            apply iff_of_true (.inl rfl)
            apply pass_t1 rest
            rintro ⟨entry, found, still⟩
            exact frame.gone entry found still
          · have left : middle.t1Eviction.RepOk := by
              rw [victim_round_tracker round]
              exact (picked_spec ok picked).1
            have stillT1 := in_tier_of_find (frame.others key same) inT1
            have rest : key ∈ chosenKeys fuel middle ↔ ¬after.InTier kT1Dram key :=
              ih left settled (by omega) stillT1
            rw [← rest]
            constructor
            · intro chosen
              exact chosen.resolve_left same
            · intro chosen
              exact .inr chosen

/-! ## Each key is chosen once -/

theorem Pass.le (pass : Pass io i e j after) : i ≤ j := by
  induction pass with
  | here i e => exact Nat.le_refl i
  | round victim t1Eviction crowded picked ran rest ih => omega

/-- A longer pass goes through the end of a shorter one. -/
theorem Pass.split (first : Pass io i e j middle) (second : Pass io i e k after) (longer : j ≤ k) :
    Pass io j middle k after := by
  induction first with
  | here i e => exact second
  | round victim t1Eviction crowded picked ran rest ih =>
      cases second with
      | here =>
          have later := rest.le
          omega
      | round other otherTracker otherOver otherPicked otherRan otherRest =>
          rw [picked] at otherPicked
          cases otherPicked
          rw [ran] at otherRan
          cases otherRan
          exact ih otherRest longer

theorem pass_tracker_ok (ok : e.t1Eviction.RepOk) (pass : Pass io i e j after) :
    after.t1Eviction.RepOk := by
  apply pass.keeps (fun e => e.t1Eviction.RepOk) _ ok
  intro e i victim t1Eviction after ok picked round
  rw [victim_round_tracker round]
  exact (picked_spec ok picked).1

theorem pass_untracked (ok : e.t1Eviction.RepOk) (pass : Pass io i e j after)
    (untracked : key ∉ e.t1Eviction.tracked) : key ∉ after.t1Eviction.tracked := by
  have both : after.t1Eviction.RepOk ∧ key ∉ after.t1Eviction.tracked := by
    apply pass.keeps (fun e => e.t1Eviction.RepOk ∧ key ∉ e.t1Eviction.tracked) _ ⟨ok, untracked⟩
    intro e i victim t1Eviction after inv picked round
    obtain ⟨left, _, removed⟩ := picked_spec inv.1 picked
    rw [victim_round_tracker round, removed]
    refine ⟨left, ?_⟩
    intro member
    exact inv.2 (Finset.mem_of_mem_erase member)
  exact both.2

/-- Two states of one pass whose trackers give up the same key are one state. -/
theorem same_choice {first second : Engine} (ok : e.t1Eviction.RepOk)
    (left : Pass io i e j first) (right : Pass io i e k second) (shorter : j ≤ k)
    (firstKey : first.t1Eviction.evict.1 = some key)
    (secondKey : second.t1Eviction.evict.1 = some key) : j = k ∧ first = second := by
  have between := left.split right shorter
  have firstOk := pass_tracker_ok ok left
  have secondOk := pass_tracker_ok ok right
  have stillTracked := (CwSlru.evict_spec secondOk).2
  rw [secondKey] at stillTracked
  cases between with
  | here => exact ⟨rfl, rfl⟩
  | @round _ _ _ middle _ victim t1Eviction crowded picked ran rest =>
      obtain ⟨restOk, _, removed⟩ := picked_spec firstOk picked
      rw [picked] at firstKey
      cases firstKey
      have tracker := victim_round_tracker (victim_round ran)
      have untracked : key ∉ second.t1Eviction.tracked := by
        apply pass_untracked _ rest
        · rw [tracker, removed]
          exact Finset.notMem_erase key _
        · rw [tracker]
          exact restOk
      exact absurd stillTracked.1 untracked

theorem write_ended_unique {v : Victim} {status other : Status} {loc otherLoc : BlobLocation}
    (ok : e.t1Eviction.RepOk) (first : WriteEnded io i e v status loc)
    (second : WriteEnded io i e v other otherLoc) : status = other := by
  obtain ⟨j, left, t2, t2After, passLeft, leftKey, isLeft, wroteLeft⟩ := first
  obtain ⟨k, right, t2', t2After', passRight, rightKey, isRight, wroteRight⟩ := second
  have same : j = k ∧ left = right := by
    rcases Nat.le_total j k with shorter | shorter
    · exact same_choice ok passLeft passRight shorter leftKey rightKey
    · obtain ⟨steps, state⟩ := same_choice ok passRight passLeft shorter rightKey leftKey
      exact ⟨steps.symm, state.symm⟩
  obtain ⟨rfl, rfl⟩ := same
  rw [isLeft] at isRight
  cases isRight
  rw [wroteLeft] at wroteRight
  cases wroteRight
  rfl

/-! ## Discarded keys -/

/-- The pass takes the key out of the index: it chooses the key while the key
is in T1, and the blob store is absent, not for such a cheap entry, or refuses
the write. -/
def Discards (io : Nat → EvictIo) (e : Engine) (key : StorageKey) : Prop :=
  ∃ entry, e.index.find key = some entry ∧ entry.tier = kT1Dram ∧ key ∈ e.evictionChoice ∧
    (e.t2Store = none ∨ entry.recomputeCost < e.config.admission.minRecomputeCost ∨
      ∃ status loc, status ≠ .kOk ∧
        WriteEnded io 0 e { key, entry, movedTo := none } status loc)

theorem pass_store (pass : Pass io i e j after) : after.t2Store = none ↔ e.t2Store = none := by
  apply pass.keeps (fun after => after.t2Store = none ↔ e.t2Store = none) _ Iff.rfl
  intro _ _ _ _ _ same _ round
  exact (victim_round_frame round).store.trans same

/-- A victim that was demoted is not a discarded key. -/
theorem demoted_not_discarded {v : Victim} {loc : BlobLocation} (trackers : e.t1Eviction.RepOk)
    (found : e.index.find v.key = some v.entry)
    (warm : e.config.admission.minRecomputeCost ≤ v.entry.recomputeCost)
    (ended : WriteEnded io 0 e v .kOk loc) : ¬Discards io e v.key := by
  rintro ⟨entry, isEntry, _, _, reason⟩
  rw [found] at isEntry
  cases isEntry
  rcases reason with noStore | cold | ⟨status, other, bad, refused⟩
  · obtain ⟨j, middle, t2, t2After, pass, _, isStore, _⟩ := ended
    rw [(pass_store pass).2 noStore] at isStore
    contradiction
  · exact absurd warm (UInt32.not_le.2 cold)
  · have refusedHere : WriteEnded io 0 e v status other := refused
    exact bad (write_ended_unique trackers refusedHere ended)

theorem evict_keeps_iff (trackers : e.t1Eviction.RepOk) (sound : T1Sound e)
    (ran : e.evictIfNeeded io = some after) (present : e.index.find key ≠ none) :
    after.index.contains key = true ↔ ¬Discards io e key := by
  obtain ⟨j, pass, settled⟩ := evict_pass ran
  obtain ⟨victims, evicted, _⟩ := pass_evicted pass sound
  unfold ConcurrentHashMap.contains
  by_cases isVictim : key ∈ victims.map Victim.key
  · obtain ⟨v, member, rfl⟩ := List.mem_map.1 isVictim
    obtain ⟨found, inT1⟩ := evicted.resident v member
    have settledAs := evicted.settled v member
    have leaves := chosen_leaves trackers pass settled (Nat.lt_succ_self _) ⟨v.entry, found, inT1⟩
    unfold SettledAs at settledAs
    split at settledAs
    · obtain ⟨moved, warm, ended⟩ := settledAs
      rw [moved]
      exact iff_of_true rfl (demoted_not_discarded trackers found warm ended)
    · obtain ⟨absent, reason⟩ := settledAs
      have outside : ¬after.InTier kT1Dram v.key := by
        rintro ⟨entry, still, _⟩
        rw [absent] at still
        contradiction
      rw [absent]
      apply iff_of_false (by simp)
      rw [not_not]
      exact ⟨v.entry, found, inT1, leaves.2 outside, reason⟩
  · have same := evicted.others key isVictim
    rw [same]
    apply iff_of_true (Option.isSome_iff_ne_none.2 present)
    rintro ⟨entry, found, inT1, chosen, _⟩
    have leaves := chosen_leaves trackers pass settled (Nat.lt_succ_self _) ⟨entry, found, inT1⟩
    apply leaves.1 chosen
    exact in_tier_of_find same ⟨entry, found, inT1⟩

theorem stored_present {blob : List UInt8} {opts : PutOpts} {io : PutIo}
    (stored : Stored e key blob opts io after) : after.index.find key ≠ none := by
  cases stored with
  | inT1 | inT2 =>
      simp only [ConcurrentHashMap.find_upsert_self]
      simp

/-- A put that went to T2 is not touched by its own pass. -/
theorem stored_t2_not_discarded {blob : List UInt8} {opts : PutOpts} {io : PutIo}
    {evictions : Nat → EvictIo} (full : e.allocateT1 blob = none)
    (stored : Stored e key blob opts io after) : ¬Discards evictions after key := by
  rintro ⟨entry, found, inT1, _⟩
  cases stored with
  | inT1 admission a allocator handle ptr accepted isAllocator allocated =>
      simp [allocateT1, isAllocator, allocated] at full
  | inT2 =>
      simp only [ConcurrentHashMap.find_upsert_self] at found
      cases found
      cases inT1

end Engine

/-- After a put that returned `kOk` its key is in the index unless the put's own
eviction pass discards it, and the pass never discards a key that went to T2. -/
theorem acknowledged_put_present {session : Session} {after : Engine} {key : StorageKey}
    {blob : List UInt8} {opts : PutOpts} {io : PutIo}
    (reached : Reach (sessionMachine anyCheckpoint) session)
    (ran : session.engine.put key blob opts io = some (.kOk, after)) :
    ∃ placed, session.engine.Stored key blob opts io placed ∧
      placed.evictIfNeeded io.evictions = some after ∧
      (after.index.contains key = true ↔ ¬Engine.Discards io.evictions placed key) ∧
      (session.engine.allocateT1 blob = none → after.index.contains key = true) := by
  cases Engine.put_steps ran with
  | rejected _ _ bad | refused _ _ _ _ _ _ _ _ _ bad => exact absurd rfl bad
  | stored placed stored evicted =>
      have tracks := Engine.stored_track_inv (reach_track_inv reached) stored
      have sound := Engine.stored_t1 (reach_t1 reached) stored
      have kept := Engine.evict_keeps_iff tracks.trackers.t1 sound evicted
        (Engine.stored_present stored)
      refine ⟨placed, stored, evicted, kept, ?_⟩
      intro full
      exact kept.2 (Engine.stored_t2_not_discarded full stored)

theorem acknowledged_put_present_in_t2 : ∃ after,
    twoTierEngine.put probeKey (List.replicate 65 7)
        { entryType := .kSystemPrompt, recomputeCost := 100 } {} = some (.kOk, after) ∧
      after.index.contains probeKey = true := by
  have reached : Reach (sessionMachine anyCheckpoint) twoTierStart :=
    .start (any_checkpoint_start two_tier_started)
  have accepted : (twoTierEngine.put probeKey (List.replicate 65 7)
      { entryType := .kSystemPrompt, recomputeCost := 100 } {}).map Prod.fst = some .kOk := by
    decide +kernel
  obtain ⟨⟨status, after⟩, ran, rfl⟩ := Option.map_eq_some_iff.1 accepted
  obtain ⟨_, _, _, _, inT2⟩ := acknowledged_put_present reached ran
  exact ⟨after, ran, inT2 (by decide +kernel)⟩

/-! ## A cache of one slot and nothing below it -/

def oneSlotConfig : Config where
  dramCache := { sizeBytes := 64, sizeClasses := [64] }
  nvmeStore := { enabled := false }

def oneSlotEngine : Engine :=
  { slabEngine with config := oneSlotConfig, t1Allocator := some tieredAllocator }

def oneSlotStart : Session := { engine := oneSlotEngine }

theorem one_slot_started : (sessionMachine anyCheckpoint).start oneSlotStart := by
  refine ⟨oneSlotConfig, slabOpenIo, trivial, rfl, ?_, rfl⟩
  rintro a ⟨⟩
  exact single_class_backed _ (by decide) (by decide)

/-- The only slot is full after the put, and the only victim is the new key. -/
theorem acknowledged_put_absent : Reach (sessionMachine anyCheckpoint) oneSlotStart ∧
    (oneSlotEngine.put probeKey [7] { entryType := .kSystemPrompt } {}).map
      (fun result => (result.1, result.2.index.contains probeKey)) = some (.kOk, false) :=
  ⟨.start one_slot_started, by decide +kernel⟩

end AttentionDB
