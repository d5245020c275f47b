import AttentionDB.Core.Types
import Mathlib.Data.Rat.Floor

/-!
# Admission control

The three admission rules. Utilization is a `double` in the source and an exact
rational here; the doubled threshold wraps at 32 bits as in the source.
-/

namespace AttentionDB

set_option autoImplicit false

inductive AdmissionResult where
  | kAdmit
  | kRejectLowCost
  | kRejectDynamicThreshold
  deriving DecidableEq, Repr

structure AdmissionControl where
  config : AdmissionConfig
  totalEvaluated : Nat := 0
  totalRejected : Nat := 0

namespace AdmissionControl

/-- `dynamic_threshold`: nothing below 70%, twice the base above 90%, and the
truncated linear scale in between. -/
def dynamicThreshold (config : AdmissionConfig) (utilization : Rat) : UInt32 :=
  if utilization < 7 / 10 then 0
  else if 9 / 10 < utilization then config.baseThreshold * 2
  else
    let fraction := (utilization - 7 / 10) / (2 / 10)
    UInt32.ofNat (config.baseThreshold.toNat * fraction).floor.toNat

def evaluate (config : AdmissionConfig) (opts : PutOpts) (utilization : Rat) : AdmissionResult :=
  if opts.entryType = .kSystemPrompt then .kAdmit
  else if opts.recomputeCost < config.minRecomputeCost then .kRejectLowCost
  else
    let threshold := dynamicThreshold config utilization
    if 0 < threshold ∧ opts.recomputeCost < threshold then .kRejectDynamicThreshold else .kAdmit

def recordEvaluation (a : AdmissionControl) (result : AdmissionResult) : AdmissionControl :=
  { a with
    totalEvaluated := a.totalEvaluated + 1
    totalRejected := if result = .kAdmit then a.totalRejected else a.totalRejected + 1 }

end AdmissionControl

end AttentionDB
