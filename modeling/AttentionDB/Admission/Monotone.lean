import AttentionDB.Admission.Admission
import Mathlib.Algebra.Order.Ring.Rat
import Mathlib.Tactic.Linarith

/-!
# Admission over a filling store

A put that is admitted in a fuller store should be admitted in an emptier one.
The threshold grows on the linear part and jumps up at its ends, as long as the
doubling above 90% stays within 32 bits.
-/

namespace AttentionDB

set_option autoImplicit false

namespace AdmissionControl

variable {config : AdmissionConfig} {opts : PutOpts} {utilization : Rat}

/-! ## The three branches of the threshold -/

theorem threshold_idle (low : utilization < 7 / 10) : dynamicThreshold config utilization = 0 := by
  rw [dynamicThreshold, if_pos low]

theorem threshold_doubled (high : 9 / 10 < utilization) :
    (dynamicThreshold config utilization).toNat = config.baseThreshold.toNat * 2 % 2 ^ 32 := by
  have notLow : ¬utilization < 7 / 10 := by linarith
  rw [dynamicThreshold, if_neg notLow, if_pos high, UInt32.toNat_mul]
  rfl

def scaled (config : AdmissionConfig) (utilization : Rat) : Nat :=
  (config.baseThreshold.toNat * ((utilization - 7 / 10) / (2 / 10))).floor.toNat

theorem scaled_mono {u u' : Rat} (le : u ≤ u') : scaled config u ≤ scaled config u' := by
  apply Int.toNat_le_toNat
  change ⌊(_ : ℚ)⌋ ≤ ⌊(_ : ℚ)⌋
  apply Int.floor_le_floor
  have base : (0 : Rat) ≤ config.baseThreshold.toNat := Nat.cast_nonneg _
  apply mul_le_mul_of_nonneg_left _ base
  linarith

theorem scaled_full : scaled config (9 / 10) = config.baseThreshold.toNat := by
  have whole : ((9 / 10 : Rat) - 7 / 10) / (2 / 10) = 1 := by norm_num
  unfold scaled
  rw [whole, mul_one]
  exact congrArg Int.toNat (Int.floor_natCast (R := ℚ) _)

theorem scaled_le_base (high : utilization ≤ 9 / 10) :
    scaled config utilization ≤ config.baseThreshold.toNat := by
  rw [← scaled_full]
  exact scaled_mono high

theorem threshold_scaled (low : 7 / 10 ≤ utilization) (high : utilization ≤ 9 / 10) :
    (dynamicThreshold config utilization).toNat = scaled config utilization := by
  have bound : scaled config utilization ≤ config.baseThreshold.toNat := scaled_le_base high
  have word := config.baseThreshold.toNat_lt
  rw [dynamicThreshold, if_neg (not_lt.2 low), if_neg (not_lt.2 high)]
  exact UInt32.toNat_ofNat_of_lt' (lt_of_le_of_lt bound word)

/-! ## Monotone in the utilization -/

/-- `dynamic_threshold` does not decrease as the store fills. -/
def ThresholdMonotone (config : AdmissionConfig) : Prop :=
  ∀ u u' : Rat, 0 ≤ u → u ≤ u' → u' ≤ 1 → dynamicThreshold config u ≤ dynamicThreshold config u'

theorem threshold_monotone (small : config.baseThreshold.toNat < 2 ^ 31) {u u' : Rat} (le : u ≤ u') :
    dynamicThreshold config u ≤ dynamicThreshold config u' := by
  rw [UInt32.le_iff_toNat_le]
  by_cases idle : u < 7 / 10
  · rw [threshold_idle idle]
    exact Nat.zero_le _
  have atLeast := not_lt.1 idle
  by_cases full : 9 / 10 < u'
  · rw [threshold_doubled full]
    by_cases also : 9 / 10 < u
    · rw [threshold_doubled also]
    · -- the join at 90%: from the base to its double
      rw [threshold_scaled atLeast (not_lt.1 also)]
      have bound : scaled config u ≤ config.baseThreshold.toNat := scaled_le_base (not_lt.1 also)
      omega
  · have atMost := not_lt.1 full
    rw [threshold_scaled atLeast (le.trans atMost), threshold_scaled (atLeast.trans le) atMost]
    exact scaled_mono le

theorem threshold_at_join : (dynamicThreshold config (9 / 10)).toNat = config.baseThreshold.toNat := by
  rw [threshold_scaled (by norm_num) le_rfl, scaled_full]

/-- The doubling wraps to less than the base. -/
theorem threshold_wraps (large : ¬config.baseThreshold.toNat < 2 ^ 31) :
    (dynamicThreshold config 1).toNat < config.baseThreshold.toNat := by
  have word := config.baseThreshold.toNat_lt
  rw [threshold_doubled (by norm_num)]
  omega

theorem threshold_monotone_iff : ThresholdMonotone config ↔ config.baseThreshold.toNat < 2 ^ 31 := by
  constructor
  · intro monotone
    by_contra large
    have join := monotone (9 / 10) 1 (by norm_num) (by norm_num) le_rfl
    rw [UInt32.le_iff_toNat_le, threshold_at_join] at join
    have wraps := threshold_wraps large
    omega
  · intro small u u' _ le _
    exact threshold_monotone small le

/-! ## What is admitted -/

theorem evaluate_admits : evaluate config opts utilization = .kAdmit ↔
    opts.entryType = .kSystemPrompt ∨ config.minRecomputeCost ≤ opts.recomputeCost ∧
      dynamicThreshold config utilization ≤ opts.recomputeCost := by
  unfold evaluate
  by_cases prompt : opts.entryType = .kSystemPrompt
  · simp [prompt]
  by_cases cheap : opts.recomputeCost < config.minRecomputeCost
  · simp [prompt, cheap]
  by_cases below : opts.recomputeCost < dynamicThreshold config utilization
  · have positive : 0 < dynamicThreshold config utilization :=
      UInt32.lt_of_le_of_lt UInt32.zero_le below
    simp [prompt, cheap, below, positive]
  · simp [prompt, cheap, below, UInt32.not_lt.1 cheap, UInt32.not_lt.1 below]

def MonotoneInUtilization (config : AdmissionConfig) : Prop :=
  ∀ (opts : PutOpts) (u u' : Rat), 0 ≤ u → u ≤ u' → u' ≤ 1 →
    evaluate config opts u' = .kAdmit → evaluate config opts u = .kAdmit

def MonotoneInCost (config : AdmissionConfig) : Prop :=
  ∀ (opts : PutOpts) (u : Rat) (recomputeCost : UInt32), 0 ≤ u → u ≤ 1 →
    opts.recomputeCost ≤ recomputeCost → evaluate config opts u = .kAdmit →
      evaluate config { opts with recomputeCost } u = .kAdmit

structure AdmissionMonotone (config : AdmissionConfig) : Prop where
  utilization : MonotoneInUtilization config
  cost : MonotoneInCost config
  threshold : ThresholdMonotone config

theorem monotone_in_cost (config : AdmissionConfig) : MonotoneInCost config := by
  intro opts u recomputeCost _ _ more admitted
  rw [evaluate_admits] at admitted ⊢
  rcases admitted with prompt | ⟨enough, reached⟩
  · exact .inl prompt
  · exact .inr ⟨UInt32.le_trans enough more, UInt32.le_trans reached more⟩

theorem threshold_le_base (high : utilization ≤ 9 / 10) :
    dynamicThreshold config utilization ≤ config.baseThreshold := by
  by_cases idle : utilization < 7 / 10
  · rw [threshold_idle idle]
    exact UInt32.zero_le
  · rw [UInt32.le_iff_toNat_le, threshold_scaled (not_lt.1 idle) high]
    exact scaled_le_base high

/-- A cost that passes the wrapped threshold and fails the base. -/
theorem cost_between (large : ¬config.baseThreshold.toNat < 2 ^ 31)
    (below : config.minRecomputeCost < config.baseThreshold) :
    ∃ cost : UInt32, config.minRecomputeCost ≤ cost ∧ dynamicThreshold config 1 ≤ cost ∧
      cost < config.baseThreshold := by
  have wraps : dynamicThreshold config 1 < config.baseThreshold := threshold_wraps large
  by_cases order : config.minRecomputeCost ≤ dynamicThreshold config 1
  · exact ⟨_, order, UInt32.le_refl _, wraps⟩
  · exact ⟨_, UInt32.le_refl _, UInt32.le_of_lt (UInt32.not_le.1 order), below⟩

theorem monotone_in_utilization_iff : MonotoneInUtilization config ↔
    config.baseThreshold.toNat < 2 ^ 31 ∨ config.baseThreshold ≤ config.minRecomputeCost := by
  constructor
  · intro monotone
    by_contra neither
    rw [not_or, UInt32.not_le] at neither
    rcases cost_between neither.1 neither.2 with ⟨recomputeCost, enough, passes, below⟩
    have admitted : evaluate config { recomputeCost } 1 = .kAdmit :=
      evaluate_admits.2 (.inr ⟨enough, passes⟩)
    have emptier := monotone { recomputeCost } (9 / 10) 1 (by norm_num) (by norm_num) le_rfl admitted
    rcases evaluate_admits.1 emptier with prompt | ⟨_, reached⟩
    · contradiction
    · rw [UInt32.le_iff_toNat_le, threshold_at_join, ← UInt32.le_iff_toNat_le] at reached
      exact absurd below (UInt32.not_lt.2 reached)
  · intro condition opts u u' _ le _ admitted
    rw [evaluate_admits] at admitted ⊢
    rcases admitted with prompt | ⟨enough, reached⟩
    · exact .inl prompt
    refine .inr ⟨enough, ?_⟩
    rcases condition with small | covered
    · exact UInt32.le_trans (threshold_monotone small le) reached
    · by_cases full : 9 / 10 < u
      · -- both utilizations take the doubled threshold
        rw [UInt32.le_iff_toNat_le, threshold_doubled (full.trans_le le)] at reached
        rwa [UInt32.le_iff_toNat_le, threshold_doubled full]
      · have base : dynamicThreshold config u ≤ config.baseThreshold :=
          threshold_le_base (not_lt.1 full)
        exact UInt32.le_trans base (UInt32.le_trans covered enough)

/-- Admission is monotone exactly when the doubled base threshold does not
wrap. Where it wraps, the decisions alone are still monotone if the minimum
cost already covers the base threshold. -/
theorem admission_monotone_iff (config : AdmissionConfig) :
    (AdmissionMonotone config ↔ config.baseThreshold.toNat < 2 ^ 31) ∧
      (MonotoneInUtilization config ∧ MonotoneInCost config ↔
        config.baseThreshold.toNat < 2 ^ 31 ∨
          config.baseThreshold ≤ config.minRecomputeCost) := by
  refine ⟨?_, ?_⟩
  · constructor
    · intro monotone
      exact threshold_monotone_iff.1 monotone.threshold
    · intro small
      exact
        { utilization := monotone_in_utilization_iff.2 (.inl small)
          cost := monotone_in_cost config
          threshold := threshold_monotone_iff.2 small }
  · rw [monotone_in_utilization_iff, and_iff_left (monotone_in_cost config)]

/-- A put that is turned away at 90% and admitted into a full store. -/
theorem doubled_threshold_wraps :
    let config : AdmissionConfig := { minRecomputeCost := 0, baseThreshold := 2 ^ 31 }
    evaluate config { recomputeCost := 100 } 1 = .kAdmit ∧
      evaluate config { recomputeCost := 100 } (9 / 10) = .kRejectDynamicThreshold ∧
      ¬AdmissionMonotone config := by
  have admitted : evaluate { minRecomputeCost := 0, baseThreshold := 2 ^ 31 }
      { recomputeCost := 100 } 1 = .kAdmit := by decide +kernel
  have rejected : evaluate { minRecomputeCost := 0, baseThreshold := 2 ^ 31 }
      { recomputeCost := 100 } (9 / 10) = .kRejectDynamicThreshold := by decide +kernel
  refine ⟨admitted, rejected, ?_⟩
  intro monotone
  have emptier := monotone.utilization _ (9 / 10) 1 (by norm_num) (by norm_num) le_rfl admitted
  rw [rejected] at emptier
  contradiction

end AdmissionControl

end AttentionDB
