import AttentionDB.Lib.GuardedRuns
import Mathlib.Order.Basic

/-!
# Runs that come to an end

A run of `n` allowed steps from a state. Where every allowed step lowers a
measure, no run is longer than the measure of its first state, and each run can
be continued until no allowed step is left.
-/

namespace GuardedRuns

set_option autoImplicit false

variable {State Label : Type*} {machine : Machine State Label} {guard : State → Label → Prop}

inductive Steps (machine : Machine State Label) (guard : State → Label → Prop) (state : State) :
    Nat → State → Prop where
  | refl : Steps machine guard state 0 state
  | step {n : Nat} {middle after : State} {label : Label} (run : Steps machine guard state n middle)
      (allowed : guard middle label) (moved : machine.exec middle label = some after) :
      Steps machine guard state (n + 1) after

def Quiescent (machine : Machine State Label) (guard : State → Label → Prop) (state : State) : Prop :=
  ∀ label, guard state label → machine.exec state label = none

/-- A run goes on where the state before it was reached. -/
theorem Steps.reached {weak : State → Label → Prop}
    (implied : ∀ state label, guard state label → weak state label)
    {state after : State} {n : Nat} (run : Steps machine guard state n after)
    (reached : ReachWithin machine weak state) : ReachWithin machine weak after := by
  induction run with
  | refl => exact reached
  | step _ allowed moved ih => exact .next ih (implied _ _ allowed) moved

/-- The measure rule. -/
theorem Steps.length_le (measure : State → Nat) (inv : State → Prop)
    (keep : ∀ state label after, inv state → guard state label →
      machine.exec state label = some after → inv after)
    (lowers : ∀ state label after, inv state → guard state label →
      machine.exec state label = some after → measure after < measure state)
    {state after : State} {n : Nat} (holds : inv state) (run : Steps machine guard state n after) :
    inv after ∧ n + measure after ≤ measure state := by
  induction run with
  | refl => exact ⟨holds, by omega⟩
  | step _ allowed moved ih =>
      obtain ⟨kept, bound⟩ := ih
      have lower := lowers _ _ _ kept allowed moved
      exact ⟨keep _ _ _ kept allowed moved, by omega⟩

/-- A run that cannot go on exists from every state. -/
theorem exists_quiescent (measure : State → Nat) (inv : State → Prop)
    (keep : ∀ state label after, inv state → guard state label →
      machine.exec state label = some after → inv after)
    (lowers : ∀ state label after, inv state → guard state label →
      machine.exec state label = some after → measure after < measure state)
    {state : State} (holds : inv state) :
    ∃ n after, Steps machine guard state n after ∧ Quiescent machine guard after := by
  by_contra never
  -- otherwise a run of any length exists, against the measure
  have longer : ∀ n, ∃ after, Steps machine guard state n after := by
    intro n
    induction n with
    | zero => exact ⟨state, .refl⟩
    | succ n ih =>
        obtain ⟨middle, run⟩ := ih
        by_cases stuck : Quiescent machine guard middle
        · exact absurd ⟨n, middle, run, stuck⟩ never
        · simp only [Quiescent, not_forall] at stuck
          obtain ⟨label, allowed, moves⟩ := stuck
          obtain ⟨after, moved⟩ := Option.ne_none_iff_exists'.1 moves
          exact ⟨after, run.step allowed moved⟩
  obtain ⟨after, run⟩ := longer (measure state + 1)
  have bound := (run.length_le measure inv keep lowers holds).2
  omega

end GuardedRuns
