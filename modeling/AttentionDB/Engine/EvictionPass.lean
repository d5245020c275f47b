import AttentionDB.Engine.T1Ownership
import AttentionDB.Eviction.TrackerCalls

/-!
# The eviction pass

`evict_if_needed` as a row of rounds that ends where the usage is back under
the watermark or the tracker is empty. Each round takes one key out of the
tracker, so the fuel of the model never ends the loop; only a write of the blob
store that does not return can. What the rounds did is a list of victims: what
became of each, and that nothing else changed.
-/

namespace AttentionDB

open GuardedRuns BlobStore SlabAllocator

set_option autoImplicit false

namespace Engine

variable {e middle after : Engine} {io : Nat → EvictIo} {i j : Nat} {victim : StorageKey}
  {t1Eviction : CwSlru}

/-! ## The loop -/

inductive Pass (io : Nat → EvictIo) : Nat → Engine → Nat → Engine → Prop where
  | here (i : Nat) (e : Engine) : Pass io i e i e
  | round {i j : Nat} {e middle after : Engine} (victim : StorageKey) (t1Eviction : CwSlru)
      (crowded : e.overWatermark = true) (picked : e.t1Eviction.evict = (some victim, t1Eviction))
      (ran : ({ e with t1Eviction } : Engine).evictVictim victim (io i) = some middle)
      (rest : Pass io (i + 1) middle j after) : Pass io i e j after

def Settled (e : Engine) : Prop := e.overWatermark = false ∨ e.t1Eviction.evict.1 = none

/-- The write of a round, reached by the loop, does not return. -/
def Hangs (io : Nat → EvictIo) (i : Nat) (e : Engine) : Prop :=
  ∃ (j : Nat) (middle : Engine) (victim : StorageKey) (entry : IndexEntry) (t2 : T2),
    Pass io i e j middle ∧ middle.overWatermark = true ∧
      middle.t1Eviction.evict.1 = some victim ∧ middle.index.find victim = some entry ∧
      middle.t2Store = some t2 ∧ t2.write (middle.victimRequest victim entry) (io j).t2 = none

theorem victim_round_tracker {io : EvictIo} (round : VictimRound e io victim t1Eviction after) :
    after.t1Eviction = t1Eviction := by
  cases round <;> rfl

theorem round_shrinks {io : EvictIo} (picked : e.t1Eviction.evict = (some victim, t1Eviction))
    (round : VictimRound e io victim t1Eviction after) :
    after.t1Eviction.totalSize + 1 = e.t1Eviction.totalSize := by
  have size := evict_total_size e.t1Eviction
  rw [picked] at size
  rw [victim_round_tracker round]
  exact size

/-- The only way for a round to have no result. -/
theorem victim_hangs {io : EvictIo}
    (stuck : ({ e with t1Eviction } : Engine).evictVictim victim io = none) :
    ∃ entry t2, e.index.find victim = some entry ∧ e.t2Store = some t2 ∧
      t2.write (e.victimRequest victim entry) io.t2 = none := by
  unfold evictVictim at stuck
  split at stuck
  · contradiction
  · rename_i entry found
    split at stuck
    · simp only [evictEntry] at stuck
      split at stuck
      · contradiction
      · rename_i t2 isStore
        split at stuck
        · contradiction
        · split at stuck
          · rename_i hung
            exact ⟨entry, t2, found, isStore, hung⟩
          · split at stuck <;> contradiction
    · contradiction

/-- With fuel for every tracked key the loop stops for a reason of its own. -/
theorem loop_pass {fuel : Nat} (enough : e.t1Eviction.totalSize < fuel)
    (ran : evictLoop io fuel i e = some after) : ∃ j, Pass io i e j after ∧ Settled after := by
  induction fuel generalizing e i with
  | zero => omega
  | succ fuel ih =>
      simp only [evictLoop] at ran
      split at ran
      · rename_i crowded
        split at ran
        · rename_i rest empty
          cases ran
          exact ⟨i, .here i _, .inr (by rw [empty])⟩
        · rename_i victim t1Eviction picked
          split at ran
          · contradiction
          · rename_i middle evicted
            have shrinks := round_shrinks picked (victim_round evicted)
            rcases ih (by omega) ran with ⟨j, rest, settled⟩
            exact ⟨j, .round victim t1Eviction crowded picked evicted rest, settled⟩
      · rename_i calm
        cases ran
        exact ⟨i, .here i _, .inl (by simpa using calm)⟩

theorem loop_hangs {fuel : Nat} (stuck : evictLoop io fuel i e = none) : Hangs io i e := by
  induction fuel generalizing e i with
  | zero => contradiction
  | succ fuel ih =>
      simp only [evictLoop] at stuck
      split at stuck
      · rename_i crowded
        split at stuck
        · contradiction
        · rename_i victim t1Eviction picked
          split at stuck
          · rename_i hung
            rcases victim_hangs hung with ⟨entry, t2, found, isStore, none⟩
            exact ⟨i, e, victim, entry, t2, .here i e, crowded, by rw [picked], found, isStore, none⟩
          · rename_i middle evicted
            rcases ih stuck with ⟨j, last, key, entry, t2, rest, reached⟩
            exact ⟨j, last, key, entry, t2, .round victim t1Eviction crowded picked evicted rest, reached⟩
      · contradiction

/-- A pass that stopped for a reason is what the loop computes, whatever fuel
it is given above the size of the tracker. -/
theorem pass_loop {fuel : Nat} (pass : Pass io i e j after) (settled : Settled after)
    (enough : e.t1Eviction.totalSize < fuel) : evictLoop io fuel i e = some after := by
  induction pass generalizing fuel with
  | here i e =>
      cases fuel with
      | zero => omega
      | succ fuel =>
          simp only [evictLoop]
          rcases settled with calm | empty
          · simp [calm]
          · split
            · split
              · rfl
              · rename_i victim rest picked
                rw [picked] at empty
                contradiction
            · rfl
  | round victim t1Eviction crowded picked ran rest ih =>
      cases fuel with
      | zero => omega
      | succ fuel =>
          have shrinks := round_shrinks picked (victim_round ran)
          simp only [evictLoop, crowded, if_true, picked, ran]
          exact ih settled (by omega)

theorem evict_pass {io : Nat → EvictIo} (ran : e.evictIfNeeded io = some after) :
    ∃ j, Pass io 0 e j after ∧ Settled after :=
  loop_pass (Nat.lt_succ_self _) ran

/-- What every round keeps, the pass keeps. -/
theorem Pass.keeps (inv : Engine → Prop)
    (keep : ∀ e i victim t1Eviction after, inv e →
      e.t1Eviction.evict = (some victim, t1Eviction) →
      VictimRound e (io i) victim t1Eviction after → inv after)
    (pass : Pass io i e j after) (before : inv e) : inv after := by
  induction pass with
  | here i e => exact before
  | round victim t1Eviction crowded picked ran rest ih =>
      exact ih (keep _ _ _ _ _ before picked (victim_round ran))

/-! ## The victims of a pass -/

/-- A T1 entry that was evicted, and where it went if it was demoted. -/
structure Victim where
  key : StorageKey
  entry : IndexEntry
  movedTo : Option BlobLocation

/-- How the write of a victim's bytes and checksum ended, in its round. -/
def WriteEnded (io : Nat → EvictIo) (i : Nat) (e : Engine) (v : Victim) (status : Status)
    (loc : BlobLocation) : Prop :=
  ∃ (j : Nat) (middle : Engine) (t2 t2After : T2), Pass io i e j middle ∧
    middle.t1Eviction.evict.1 = some v.key ∧ middle.t2Store = some t2 ∧
    t2.write (e.victimRequest v.key v.entry) (io j).t2 = some ((status, loc), t2After)

/-- A victim is indexed at the location of a write that returned `kOk`, or it
is gone from the index for one of three reasons. -/
def SettledAs (io : Nat → EvictIo) (i : Nat) (e after : Engine) (v : Victim) : Prop :=
  match v.movedTo with
  | some loc =>
      after.index.find v.key = some (demotedEntry v.entry loc) ∧
        e.config.admission.minRecomputeCost ≤ v.entry.recomputeCost ∧
        WriteEnded io i e v .kOk loc
  | none =>
      after.index.find v.key = none ∧
        (e.t2Store = none ∨ v.entry.recomputeCost < e.config.admission.minRecomputeCost ∨
          ∃ status loc, status ≠ .kOk ∧ WriteEnded io i e v status loc)

/-- What the rounds did to the index, the slots and their bytes. -/
structure Evicted (io : Nat → EvictIo) (i : Nat) (e : Engine) (victims : List Victim)
    (after : Engine) : Prop where
  memory : after.memory = e.memory
  distinct : (victims.map Victim.key).Nodup
  resident : ∀ v ∈ victims, e.index.find v.key = some v.entry ∧ v.entry.tier = kT1Dram
  settled : ∀ v ∈ victims, SettledAs io i e after v
  others : ∀ key ∉ victims.map Victim.key, after.index.find key = e.index.find key

theorem WriteEnded.earlier {v : Victim} {status : Status} {loc : BlobLocation}
    (crowded : e.overWatermark = true) (picked : e.t1Eviction.evict = (some victim, t1Eviction))
    (ran : ({ e with t1Eviction } : Engine).evictVictim victim (io i) = some middle)
    (memory : middle.memory = e.memory) (ended : WriteEnded io (i + 1) middle v status loc) :
    WriteEnded io i e v status loc := by
  rcases ended with ⟨j, last, t2, t2After, pass, isVictim, isStore, written⟩
  refine ⟨j, last, t2, t2After, .round victim t1Eviction crowded picked ran pass, isVictim, isStore, ?_⟩
  unfold victimRequest at written ⊢
  rw [← memory]
  exact written

/-- What a round leaves alone, whatever becomes of its victim. -/
structure RoundFrame (e : Engine) (victim : StorageKey) (middle : Engine) : Prop where
  memory : middle.memory = e.memory
  config : middle.config = e.config
  store : middle.t2Store = none ↔ e.t2Store = none
  others : ∀ key ≠ victim, middle.index.find key = e.index.find key
  gone : ∀ entry, middle.index.find victim = some entry → entry.tier ≠ kT1Dram

theorem victim_round_frame {io : EvictIo} (round : VictimRound e io victim t1Eviction middle) :
    RoundFrame e victim middle := by
  have erased : ∀ key ≠ victim, (e.index.erase victim).find key = e.index.find key := by
    intro key different
    rw [ConcurrentHashMap.find_erase, if_neg different]
  cases round with
  | skipped notInT1 =>
      exact
        { memory := rfl
          config := rfl
          store := Iff.rfl
          others := fun _ _ => rfl
          gone := notInT1 }
  | dropped entry found inT1 cold =>
      exact
        { memory := rfl
          config := rfl
          store := Iff.rfl
          others := erased
          gone := erased_gone }
  | refused entry found inT1 warm t2 t2After status loc isStore ran bad =>
      exact
        { memory := rfl
          config := rfl
          store := by simp [freeT1, isStore]
          others := erased
          gone := erased_gone }
  | demoted entry found inT1 warm t2 t2After loc isStore ran =>
      refine
        { memory := rfl
          config := rfl
          store := by simp [freeT1, isStore]
          others := ?_
          gone := upserted_gone (demoted_not_t1 entry loc) }
      intro key different
      change (e.index.upsert victim (demotedEntry entry loc)).find key = e.index.find key
      rw [ConcurrentHashMap.find_upsert, if_neg different]

theorem SettledAs.earlier {v : Victim} (crowded : e.overWatermark = true)
    (picked : e.t1Eviction.evict = (some victim, t1Eviction))
    (ran : ({ e with t1Eviction } : Engine).evictVictim victim (io i) = some middle)
    (frame : RoundFrame e victim middle) (settled : SettledAs io (i + 1) middle after v) :
    SettledAs io i e after v := by
  unfold SettledAs at settled ⊢
  rw [frame.config] at settled
  split at settled
  · rcases settled with ⟨found, warm, ended⟩
    exact ⟨found, warm, ended.earlier crowded picked ran frame.memory⟩
  · rcases settled with ⟨absent, reason⟩
    refine ⟨absent, ?_⟩
    rcases reason with noStore | cold | ⟨status, loc, bad, ended⟩
    · exact .inl (frame.store.1 noStore)
    · exact .inr (.inl cold)
    · exact .inr (.inr ⟨status, loc, bad, ended.earlier crowded picked ran frame.memory⟩)

/-- The key of a round is not a victim of a later one. -/
theorem Evicted.not_again {victims : List Victim} (evicted : Evicted io i middle victims after)
    (frame : RoundFrame e victim middle) : victim ∉ victims.map Victim.key := by
  intro again
  rcases List.mem_map.1 again with ⟨v, member, rfl⟩
  rcases evicted.resident v member with ⟨found, inT1⟩
  exact frame.gone _ found inT1

theorem Evicted.skip {victims : List Victim} (evicted : Evicted io (i + 1) middle victims after)
    (crowded : e.overWatermark = true) (picked : e.t1Eviction.evict = (some victim, t1Eviction))
    (ran : ({ e with t1Eviction } : Engine).evictVictim victim (io i) = some middle)
    (frame : RoundFrame e victim middle) (same : middle.index = e.index) :
    Evicted io i e victims after where
  memory := evicted.memory.trans frame.memory
  distinct := evicted.distinct
  resident := by
    intro v member
    rw [← same]
    exact evicted.resident v member
  settled v member := (evicted.settled v member).earlier crowded picked ran frame
  others := by
    intro key absent
    rw [evicted.others key absent, same]

theorem Evicted.cons {victims : List Victim} {v : Victim}
    (evicted : Evicted io (i + 1) middle victims after)
    (crowded : e.overWatermark = true) (picked : e.t1Eviction.evict = (some v.key, t1Eviction))
    (ran : ({ e with t1Eviction } : Engine).evictVictim v.key (io i) = some middle)
    (frame : RoundFrame e v.key middle) (found : e.index.find v.key = some v.entry)
    (inT1 : v.entry.tier = kT1Dram) (settled : SettledAs io i e after v) :
    Evicted io i e (v :: victims) after where
  memory := evicted.memory.trans frame.memory
  distinct := List.nodup_cons.2 ⟨evicted.not_again frame, evicted.distinct⟩
  resident := by
    intro w member
    rcases List.mem_cons.1 member with rfl | later
    · exact ⟨found, inT1⟩
    · have different : w.key ≠ v.key := by
        intro same
        have again := List.mem_map_of_mem (f := Victim.key) later
        rw [same] at again
        exact evicted.not_again frame again
      rw [← frame.others w.key different]
      exact evicted.resident w later
  settled := by
    intro w member
    rcases List.mem_cons.1 member with rfl | later
    · exact settled
    · exact (evicted.settled w later).earlier crowded picked ran frame
  others := by
    intro key absent
    rw [List.map_cons, List.mem_cons, not_or] at absent
    rw [evicted.others key absent.2, frame.others key absent.1]

/-! ## The slots of the victims -/

/-- Each victim's slot was allocated and is free now; no other slot changed. -/
structure SlotsFreed (a : SlabAllocator) (victims : List Victim) (b : SlabAllocator) : Prop where
  sameSlots : ∀ q s, IsSlot b q s ↔ IsSlot a q s
  sameSizes : ∀ q, b.slotSizeAt q = a.slotSizeAt q
  sameCapacity : b.totalCapacity = a.totalCapacity
  distinct : (victims.map fun v => v.entry.address.toNat).Nodup
  taken : ∀ v ∈ victims, ¬IsFree a v.entry.address.toNat
  freeIff : ∀ q, IsFree b q ↔ IsFree a q ∨ ∃ v ∈ victims, v.entry.address.toNat = q
  used : b.usedTotal + (victims.map fun v => a.slotSizeAt v.entry.address.toNat).sum = a.usedTotal

theorem slots_freed_nil (a : SlabAllocator) : SlotsFreed a [] a where
  sameSlots _ _ := Iff.rfl
  sameSizes _ := rfl
  sameCapacity := rfl
  distinct := List.nodup_nil
  taken := by simp
  freeIff := by simp
  used := by simp

theorem SlotsFreed.cons {a b c : SlabAllocator} {victims : List Victim} {v : Victim}
    (freed : SlotsFreed b victims c) (taken : ¬IsFree a v.entry.address.toNat)
    (released : Released a v.entry.address.toNat b) : SlotsFreed a (v :: victims) c where
  sameSlots q s := (freed.sameSlots q s).trans (released.sameSlots q s)
  sameSizes q := (freed.sameSizes q).trans (released.sameSizes q)
  sameCapacity := freed.sameCapacity.trans released.sameCapacity
  distinct := by
    rw [List.map_cons, List.nodup_cons]
    refine ⟨?_, freed.distinct⟩
    intro again
    rcases List.mem_map.1 again with ⟨w, later, same⟩
    apply freed.taken w later
    rw [same]
    exact (released.freeIff _).2 (.inr rfl)
  taken := by
    intro w member
    rcases List.mem_cons.1 member with rfl | later
    · exact taken
    · intro free
      exact freed.taken w later ((released.freeIff _).2 (.inl free))
  freeIff := by
    intro q
    have turned : q = v.entry.address.toNat ↔ v.entry.address.toNat = q := eq_comm
    rw [freed.freeIff, released.freeIff, turned, or_assoc]
    simp only [List.mem_cons, exists_eq_or_imp]
  used := by
    have sizes : (victims.map fun w => b.slotSizeAt w.entry.address.toNat) =
        victims.map fun w => a.slotSizeAt w.entry.address.toNat := by
      apply List.map_congr_left
      intro w _
      exact released.sameSizes _
    have rest := freed.used
    have first := released.used
    rw [sizes] at rest
    rw [List.map_cons, List.sum_cons]
    omega

def AllFreed (e : Engine) (victims : List Victim) (after : Engine) : Prop :=
  ∀ a, e.t1Allocator = some a → ∃ b, after.t1Allocator = some b ∧ SlotsFreed a victims b

/-- The head of a pass releases the slot of its victim. -/
theorem all_freed_cons {victims : List Victim} {v : Victim} (sound : T1Sound e)
    (found : e.index.find v.key = some v.entry) (inT1 : v.entry.tier = kT1Dram)
    (slots : middle.t1Allocator = e.t1Allocator.map (·.freeByPtr v.entry.address.toNat))
    (freed : AllFreed middle victims after) : AllFreed e (v :: victims) after := by
  intro a isAllocator
  rcases sound.valid v.key v.entry found inT1 with ⟨other, isOther, taken, slotSize, isSlot, _⟩
  rw [isAllocator] at isOther
  cases isOther
  have released := free_by_ptr_spec (sound.layout a isAllocator) (sound.frees a isAllocator) isSlot taken
  rw [isAllocator] at slots
  rcases freed _ slots with ⟨c, isC, rest⟩
  exact ⟨c, isC, rest.cons taken released⟩

theorem pass_evicted (pass : Pass io i e j after) (sound : T1Sound e) :
    ∃ victims, Evicted io i e victims after ∧ AllFreed e victims after := by
  induction pass with
  | here i e =>
      refine ⟨[], ?_, fun a isAllocator => ⟨a, isAllocator, slots_freed_nil a⟩⟩
      exact
        { memory := rfl
          distinct := List.nodup_nil
          resident := by simp
          settled := by simp
          others := fun _ _ => rfl }
  | @round i j e middle after victim t1Eviction crowded picked ran rest ih =>
      have round := victim_round ran
      have frame := victim_round_frame round
      rcases ih (evict_round_t1 sound round.toRound) with ⟨victims, evicted, freed⟩
      have chosen : e.t1Eviction.evict.1 = some victim := by rw [picked]
      cases round with
      | skipped notInT1 => exact ⟨victims, evicted.skip crowded picked ran frame rfl, freed⟩
      | dropped entry found inT1 cold =>
          let v : Victim := { key := victim, entry, movedTo := none }
          have absent := evicted.others victim (evicted.not_again frame)
          have settled : SettledAs io i e after v := by
            refine ⟨absent.trans (ConcurrentHashMap.find_erase_self _ _), ?_⟩
            rcases cold with noStore | tooCheap
            · exact .inl noStore
            · exact .inr (.inl tooCheap)
          exact ⟨v :: victims, evicted.cons crowded picked ran frame found inT1 settled,
            all_freed_cons sound found inT1 rfl freed⟩
      | refused entry found inT1 warm t2 t2After status loc isStore written bad =>
          let v : Victim := { key := victim, entry, movedTo := none }
          have absent := evicted.others victim (evicted.not_again frame)
          have ended : WriteEnded io i e v status loc :=
            ⟨i, e, t2, t2After, .here i e, chosen, isStore, written⟩
          have settled : SettledAs io i e after v :=
            ⟨absent.trans (ConcurrentHashMap.find_erase_self _ _),
              .inr (.inr ⟨status, loc, bad, ended⟩)⟩
          exact ⟨v :: victims, evicted.cons crowded picked ran frame found inT1 settled,
            all_freed_cons sound found inT1 rfl freed⟩
      | demoted entry found inT1 warm t2 t2After loc isStore written =>
          let v : Victim := { key := victim, entry, movedTo := some loc }
          have moved := evicted.others victim (evicted.not_again frame)
          have settled : SettledAs io i e after v :=
            ⟨moved.trans (ConcurrentHashMap.find_upsert_self _ _ _), warm, i, e, t2, t2After,
              .here i e, chosen, isStore, written⟩
          exact ⟨v :: victims, evicted.cons crowded picked ran frame found inT1 settled,
            all_freed_cons sound found inT1 rfl freed⟩

end Engine

end AttentionDB
