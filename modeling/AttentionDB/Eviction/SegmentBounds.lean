import AttentionDB.Eviction.TrackerCalls
import Mathlib.Algebra.Order.Ring.Rat
import Mathlib.Tactic.Linarith

/-!
# What the protected list may hold

Two bounds that a promotion establishes: the share of the protected list and
the least cost of its entries. The first is lost when a probationary key goes
away and the share is computed from the tracked total, the second when a
protected key is notified with a lower cost. For both the step lemma says
exactly which calls keep the bound.
-/

namespace AttentionDB

open GuardedRuns NodeMaps EvictionList

set_option autoImplicit false

namespace CwSlru

variable {s after : CwSlru} {key : StorageKey} {recomputeCost chunkIndex : UInt32} {now : Nat}
  {label : SlruLabel}

/-! ## Sizes -/

theorem total_size_perm (same : after.allKeys.Perm s.allKeys) : after.totalSize = s.totalSize := by
  rw [← all_keys_length, ← all_keys_length, same.length_eq]

theorem total_size_split (split : s.allKeys.Perm (key :: after.allKeys)) :
    s.totalSize = after.totalSize + 1 := by
  rw [← all_keys_length, split.length_eq, List.length_cons, all_keys_length]

theorem touch_protected_size (s : CwSlru) (id : Nat) (recomputeCost : UInt32) (now : Nat) :
    (s.touchProtected id recomputeCost now).protectedSize = s.protectedSize := by
  have same := (move_to_front_perm (refresh s.protectedList id recomputeCost now) id).length_eq
  simpa [touchProtected, protectedSize, refresh] using same

def basis (s : CwSlru) : Nat := if 0 < s.config.maxEntries then s.config.maxEntries else s.totalSize

def WithinShare (s : CwSlru) : Prop :=
  (s.protectedSize : ℤ) ≤ ⌊(s.config.protectedRatio * s.basis : ℚ)⌋

theorem max_protected_share (nonneg : 0 ≤ s.config.protectedRatio)
    (exact : s.config.share = exactShare) :
    (s.maxProtected : ℤ) = ⌊(s.config.protectedRatio * s.basis : ℚ)⌋ := by
  have share : s.maxProtected = ⌊(s.config.protectedRatio * s.basis : ℚ)⌋.toNat := by
    unfold maxProtected basis totalSize
    rw [exact]
    split_ifs <;> rw [mul_comm] <;> rfl
  rw [share]
  apply Int.toNat_of_nonneg
  apply Int.floor_nonneg.2
  positivity

theorem basis_same (config : after.config = s.config) (total : after.totalSize = s.totalSize) :
    after.basis = s.basis := by
  unfold basis
  rw [config, total]

/-- No more protected entries, and no smaller basis. -/
theorem WithinShare.kept (within : WithinShare s) (nonneg : 0 ≤ s.config.protectedRatio)
    (config : after.config = s.config) (fewer : after.protectedSize ≤ s.protectedSize)
    (more : s.totalSize ≤ after.totalSize) : WithinShare after := by
  have wider : s.basis ≤ after.basis := by
    unfold basis
    rw [config]
    split_ifs
    · exact Nat.le_refl _
    · exact more
  have share : ⌊(s.config.protectedRatio * s.basis : ℚ)⌋ ≤
      ⌊(s.config.protectedRatio * after.basis : ℚ)⌋ := by
    apply Int.floor_le_floor
    exact mul_le_mul_of_nonneg_left (by exact_mod_cast wider) nonneg
  unfold WithinShare at within ⊢
  rw [config]
  omega

/-- One protected entry less makes up for one tracked entry less. -/
theorem WithinShare.drop_protected (within : WithinShare s) (config : after.config = s.config)
    (one : s.protectedSize = after.protectedSize + 1)
    (total : s.totalSize = after.totalSize + 1) : WithinShare after := by
  unfold WithinShare basis at within ⊢
  rw [config]
  split_ifs at within ⊢ with limited
  · omega
  · apply Int.le_floor.2
    have bound := Int.le_floor.1 within
    rw [total] at bound
    have size : (s.protectedSize : ℚ) = after.protectedSize + 1 := by exact_mod_cast one
    have inside : (after.protectedSize : ℚ) ≤ after.totalSize := by
      exact_mod_cast Nat.le_add_right _ _
    push_cast at bound ⊢
    rw [size] at bound
    by_cases whole : s.config.protectedRatio ≤ 1
    · linarith
    · have least : (0 : ℚ) ≤ after.totalSize := Nat.cast_nonneg _
      nlinarith

/-- What a shrinking call asks of the state before it when the share is
computed from the tracked total. -/
def SpareShare (s : CwSlru) : Prop :=
  s.config.maxEntries = 0 →
    (s.protectedSize : ℤ) ≤ ⌊(s.config.protectedRatio * (s.totalSize - 1 : ℚ))⌋

/-- Only a call that takes a probationary key away asks for anything. -/
def keepsShare (s : CwSlru) : SlruLabel → Prop
  | .onRemove key => key ∈ keys s.probationaryList → SpareShare s
  | .evict => s.probationaryList ≠ [] → SpareShare s
  | _ => True

theorem WithinShare.drop_probationary (within : WithinShare s) (config : after.config = s.config)
    (same : after.protectedSize = s.protectedSize) (total : s.totalSize = after.totalSize + 1) :
    WithinShare after ↔ SpareShare s := by
  unfold SpareShare
  unfold WithinShare basis at within ⊢
  rw [config, same]
  split_ifs at within ⊢ with limited
  · constructor
    · intro _ unlimited
      omega
    · intro _
      exact within
  · rw [total]
    push_cast
    simp only [add_sub_cancel_right]
    constructor
    · intro bound _
      exact bound
    · intro bound
      exact bound (by omega)

/-! ## The step -/

theorem promote_share {rest : EvictionList} {gone : EvictionNode} {id : Nat} (ok : RepOk s)
    (nonneg : 0 ≤ s.config.protectedRatio) (exact : s.config.share = exactShare)
    (split : (refresh s.probationaryList id recomputeCost now).Perm (gone :: rest)) :
    WithinShare (s.promote rest gone.entry).demoteProtectedOverflow := by
  rcases promote_conserved ok split with ⟨rep, _⟩
  have demoted := demote_spec rep
  have limit := max_protected_share (s := s.promote rest gone.entry) nonneg exact
  have size := demote_length (s.promote rest gone.entry)
  unfold WithinShare
  rw [demoted.config, basis_same demoted.config (total_size_perm demoted.conserved), ← limit]
  unfold protectedSize
  omega

theorem share_step (ok : RepOk s) (nonneg : 0 ≤ s.config.protectedRatio)
    (exact : s.config.share = exactShare) (within : WithinShare s)
    (cases : CallCases s label after) : WithinShare after ↔ keepsShare s label := by
  cases cases with
  | onInsert key recomputeCost chunkIndex now cases =>
      apply iff_of_true _ trivial
      cases cases with
      | refreshed id =>
          have same := (touch_protected_conserved ok id recomputeCost now).2
          exact within.kept nonneg rfl (touch_protected_size s id _ _).le (total_size_perm same).ge
      | touched id =>
          have same := (touch_probationary_conserved ok id recomputeCost now).2
          exact within.kept nonneg rfl (Nat.le_refl _) (total_size_perm same).ge
      | inserted absent =>
          have conserved := (track_conserved { key, recomputeCost, chunkIndex, lastAccessUs := now }
            ok absent).2
          have more := total_size_split conserved
          exact within.kept nonneg rfl (Nat.le_refl _) (by omega)
  | onAccess key recomputeCost now cases =>
      apply iff_of_true _ trivial
      cases cases with
      | refreshed id =>
          have same := (touch_protected_conserved ok id recomputeCost now).2
          exact within.kept nonneg rfl (touch_protected_size s id _ _).le (total_size_perm same).ge
      | promoted id found rest held high isKey isCost split => exact promote_share ok nonneg exact split
      | touched id =>
          have same := (touch_probationary_conserved ok id recomputeCost now).2
          exact within.kept nonneg rfl (Nat.le_refl _) (total_size_perm same).ge
      | unknown => exact within
  | onRemove key cases =>
      cases cases with
      | fromProtected gone rest isKey split =>
          subst isKey
          have inProtected := (keys_perm split).mem_iff.2 List.mem_cons_self
          apply iff_of_true
          · exact within.drop_protected rfl split.length_eq
              (total_size_split (drop_protected_conserved ok split).2)
          · intro inProbationary
            exact absurd inProbationary (ok.apart _ inProtected)
      | fromProbationary gone rest isKey split =>
          subst isKey
          have inProbationary := (keys_perm split).mem_iff.2 List.mem_cons_self
          have total := total_size_split (drop_probationary_conserved ok split).2
          have needed : WithinShare (s.dropProbationary rest gone.entry.key) ↔ SpareShare s :=
            within.drop_probationary rfl rfl total
          rw [needed]
          constructor
          · intro spare _
            exact spare
          · intro spare
            exact spare inProbationary
      | unknown absent =>
          apply iff_of_true within
          intro inProbationary
          exact absurd (mem_tracked.2 (.inr inProbationary)) absent
  | evict victim cases =>
      cases cases with
      | fromProbationary gone rest split =>
          have nonempty : s.probationaryList ≠ [] := by
            intro empty
            rw [empty] at split
            exact absurd split.length_eq (by simp)
          have total := total_size_split (drop_probationary_conserved ok split).2
          have needed : WithinShare (s.dropProbationary rest gone.entry.key) ↔ SpareShare s :=
            within.drop_probationary rfl rfl total
          rw [needed]
          constructor
          · intro spare _
            exact spare
          · intro spare
            exact spare nonempty
      | fromProtected gone rest noOther split =>
          apply iff_of_true
          · exact within.drop_protected rfl split.length_eq
              (total_size_split (drop_protected_conserved ok split).2)
          · intro nonempty
            exact absurd noOther nonempty
      | empty left right =>
          apply iff_of_true within
          intro nonempty
          exact absurd right nonempty

theorem call_config (ok : RepOk s) (cases : CallCases s label after) : after.config = s.config := by
  cases cases with
  | onInsert key recomputeCost chunkIndex now cases => cases cases <;> rfl
  | onAccess key recomputeCost now cases =>
      cases cases with
      | promoted id found rest held high isKey isCost split =>
          exact (demote_spec (promote_conserved ok split).1).config
      | refreshed | touched | unknown => rfl
  | onRemove key cases => cases cases <;> rfl
  | evict victim cases => cases cases <;> rfl

/-! ## The least cost -/

/-- Every protected entry costs at least the threshold. -/
def HighValue (s : CwSlru) : Prop :=
  ∀ node ∈ s.protectedList, s.config.protectionThreshold ≤ node.entry.recomputeCost

/-- A call that names a protected key carries a high cost. -/
def keepsHighValue (s : CwSlru) : SlruLabel → Prop
  | .onInsert key recomputeCost _ _ | .onAccess key recomputeCost _ =>
      key ∈ keys s.protectedList → s.config.protectionThreshold ≤ recomputeCost
  | _ => True

theorem touch_protected_value {id : Nat} (ok : RepOk s) (value : HighValue s)
    (held : s.protectedMap.lookup key = some id) :
    HighValue (s.touchProtected id recomputeCost now) ↔
      s.config.protectionThreshold ≤ recomputeCost := by
  have same := move_to_front_perm (refresh s.protectedList id recomputeCost now) id
  constructor
  · intro after
    have answer : ∃ found, node (refresh s.protectedList id recomputeCost now) id = some found ∧
        found.entry.key = key ∧ found.entry.recomputeCost = recomputeCost :=
      Mapped.node_refreshed ok.protectedOk held
    rcases answer with ⟨found, reached, _, isCost⟩
    rw [← isCost]
    exact after found (same.mem_iff.2 (List.mem_of_find?_eq_some reached))
  · intro high node member
    rcases List.mem_map.1 (same.mem_iff.1 member) with ⟨old, inList, rfl⟩
    split
    · exact high
    · exact value old inList

theorem HighValue.subset (value : HighValue s) (config : after.config = s.config)
    (subset : ∀ node ∈ after.protectedList, node ∈ s.protectedList) : HighValue after := by
  intro node member
  rw [config]
  exact value node (subset node member)

theorem promote_value {rest : EvictionList} {gone : EvictionNode} (value : HighValue s)
    (rep : RepOk (s.promote rest gone.entry))
    (high : s.config.protectionThreshold ≤ gone.entry.recomputeCost) :
    HighValue (s.promote rest gone.entry).demoteProtectedOverflow := by
  have demoted := demote_spec rep
  have promoted : HighValue (s.promote rest gone.entry) := by
    intro node member
    rcases List.mem_cons.1 member with rfl | older
    · exact high
    · exact value node older
  exact promoted.subset demoted.config fun node member => demoted.cut.subset member

theorem value_step (ok : RepOk s) (value : HighValue s) (cases : CallCases s label after) :
    HighValue after ↔ keepsHighValue s label := by
  cases cases with
  | onInsert key recomputeCost chunkIndex now cases =>
      cases cases with
      | refreshed id held atKey =>
          rw [touch_protected_value ok value atKey]
          exact ⟨fun high _ => high, fun high => high held⟩
      | touched id held =>
          apply iff_of_true value
          intro inProtected
          exact absurd held (ok.apart key inProtected)
      | inserted absent =>
          apply iff_of_true value
          intro inProtected
          exact absurd (mem_tracked.2 (.inl inProtected)) absent
  | onAccess key recomputeCost now cases =>
      cases cases with
      | refreshed id held atKey =>
          rw [touch_protected_value ok value atKey]
          exact ⟨fun high _ => high, fun high => high held⟩
      | promoted id found rest held high isKey isCost split =>
          apply iff_of_true
          · rw [← isCost] at high
            exact promote_value value (promote_conserved ok split).1 high
          · intro _
            exact high
      | touched id held low =>
          apply iff_of_true value
          intro inProtected
          exact absurd held (ok.apart key inProtected)
      | unknown absent =>
          apply iff_of_true value
          intro inProtected
          exact absurd (mem_tracked.2 (.inl inProtected)) absent
  | onRemove key cases =>
      apply iff_of_true _ trivial
      cases cases with
      | fromProtected gone rest isKey split =>
          exact value.subset rfl fun node member => split.mem_iff.2 (List.mem_cons_of_mem _ member)
      | fromProbationary | unknown => exact value
  | evict victim cases =>
      apply iff_of_true _ trivial
      cases cases with
      | fromProtected gone rest noOther split =>
          exact value.subset rfl fun node member => split.mem_iff.2 (List.mem_cons_of_mem _ member)
      | fromProbationary | empty => exact value

end CwSlru

/-! ## Runs -/

open CwSlru

/-- In every run in which no call takes a probationary key away while the
protected list needs it, the protected list stays within its share, computed
exactly; a step that does not meet the condition leaves the share. -/
theorem protected_within_share {s : CwSlru} (reached : ReachWithin slruMachine keepsShare s)
    (nonneg : 0 ≤ s.config.protectedRatio) (exact : s.config.share = exactShare) :
    s.WithinShare ∧ ∀ label, (s.call label).WithinShare ↔ s.keepsShare label := by
  have inv : s.RepOk ∧
      (0 ≤ s.config.protectedRatio → s.config.share = exactShare → s.WithinShare) := by
    apply reached.invariant fun s => s.RepOk ∧
      (0 ≤ s.config.protectedRatio → s.config.share = exactShare → s.WithinShare)
    · rintro _ ⟨config, rfl⟩
      refine ⟨rep_ok_start config, ?_⟩
      intro nonneg _
      unfold WithinShare
      apply Int.le_floor.2
      simp only [protectedSize, List.length_nil, Nat.cast_zero, Int.cast_zero]
      exact mul_nonneg nonneg (Nat.cast_nonneg _)
    · intro before label after inv allowed moved
      have cases := call_cases inv.1 moved
      refine ⟨?_, ?_⟩
      · cases moved
        exact call_rep_ok inv.1 label
      · intro nonneg exact
        rw [call_config inv.1 cases] at nonneg exact
        exact (share_step inv.1 nonneg exact (inv.2 nonneg exact) cases).2 allowed
  refine ⟨inv.2 nonneg exact, ?_⟩
  intro label
  exact share_step inv.1 nonneg exact (inv.2 nonneg exact) (call_cases inv.1 rfl)

def exactConfig : CwSlruConfig := { share := exactShare }

def promotedLabels : List SlruLabel :=
  [.onInsert (slruKey 1) 200 0 1, .onInsert (slruKey 2) 200 0 2, .onInsert (slruKey 3) 200 0 3,
    .onInsert (slruKey 4) 200 0 4, .onAccess (slruKey 1) 200 5]

def promotedTracker : CwSlru := last slruMachine { config := exactConfig } promotedLabels

def notifiesHigh (s : CwSlru) : SlruLabel → Bool
  | .onInsert _ recomputeCost _ _ | .onAccess _ recomputeCost _ =>
      s.config.protectionThreshold ≤ recomputeCost
  | _ => false

theorem promoted_reached {guard : CwSlru → SlruLabel → Prop}
    (sound : ∀ s label, notifiesHigh s label = true → guard s label) :
    ReachWithin slruMachine guard promotedTracker := by
  have start : ReachWithin slruMachine guard { config := exactConfig } := .start ⟨_, rfl⟩
  apply start.to_last (fun _ => True) notifiesHigh (fun s label _ high => sound s label high)
    (fun _ _ _ _ _ _ => trivial) trivial promotedLabels
  decide +kernel

theorem notifies_high_share (s : CwSlru) (label : SlruLabel) (high : notifiesHigh s label = true) :
    s.keepsShare label := by
  cases label with
  | onInsert | onAccess => trivial
  | onRemove | evict => contradiction

theorem notifies_high_value (s : CwSlru) (label : SlruLabel) (high : notifiesHigh s label = true) :
    s.keepsHighValue label := by
  cases label with
  | onInsert | onAccess =>
      intro _
      simpa [notifiesHigh] using high
  | onRemove | evict => contradiction

theorem protected_within_share_promoted : promotedTracker.WithinShare ∧
    promotedTracker.protectedSize = 1 := by
  have exact_share : promotedTracker.config.share = exactShare := by with_unfolding_all rfl
  exact ⟨(protected_within_share (promoted_reached notifies_high_share) (by decide +kernel)
    exact_share).1, by decide +kernel⟩

/-- One eviction later the protected list is larger than its share. -/
theorem eviction_leaves_share : Reach slruMachine promotedTracker.evict.2 ∧
    ¬promotedTracker.evict.2.WithinShare := by
  constructor
  · exact (promoted_reached fun _ _ _ => trivial).by_label .evict trivial rfl
  · unfold WithinShare
    decide +kernel

/-- In every run in which each call for a protected key carries at least the
threshold, every protected entry costs that much; a step that does not meet
the condition breaks it. -/
theorem protected_high_value {s : CwSlru} (reached : ReachWithin slruMachine keepsHighValue s) :
    s.HighValue ∧ ∀ label, (s.call label).HighValue ↔ s.keepsHighValue label := by
  have inv : s.RepOk ∧ s.HighValue := by
    apply reached.invariant fun s => s.RepOk ∧ s.HighValue
    · rintro _ ⟨config, rfl⟩
      refine ⟨rep_ok_start config, ?_⟩
      intro node member
      contradiction
    · intro before label after inv allowed moved
      have cases := call_cases inv.1 moved
      cases moved
      exact ⟨call_rep_ok inv.1 label, (value_step inv.1 inv.2 cases).2 allowed⟩
  refine ⟨inv.2, ?_⟩
  intro label
  exact value_step inv.1 inv.2 (call_cases inv.1 rfl)

theorem protected_high_value_promoted : promotedTracker.HighValue ∧
    promotedTracker.protectedSize = 1 :=
  ⟨(protected_high_value (promoted_reached notifies_high_value)).1, by decide +kernel⟩

/-- The promoted key is inserted once more with a cost below the threshold. -/
theorem insert_lowers_protected_cost :
    Reach slruMachine (promotedTracker.onInsert (slruKey 1) 70 0 6) ∧
      ¬(promotedTracker.onInsert (slruKey 1) 70 0 6).HighValue := by
  constructor
  · exact (promoted_reached fun _ _ _ => trivial).by_label (.onInsert (slruKey 1) 70 0 6) trivial rfl
  · unfold HighValue
    decide +kernel

end AttentionDB
