import Mathlib.Tactic.TypeStar

/-!
# Runs of a labelled machine

A machine is a set of initial states and an executable step. A label carries
everything the environment decides, so the step itself is a partial function.
A guard restricts which step may be taken from which state: the same machine
is used for every run and for the runs whose steps all meet a condition.
-/

namespace GuardedRuns

set_option autoImplicit false

structure Machine (State Label : Type*) where
  start : State → Prop
  exec : State → Label → Option State

variable {State Label : Type*}

inductive ReachWithin (machine : Machine State Label) (guard : State → Label → Prop) :
    State → Prop where
  | start {state : State} (initial : machine.start state) : ReachWithin machine guard state
  | next {state after : State} {label : Label} (reached : ReachWithin machine guard state)
      (allowed : guard state label) (moved : machine.exec state label = some after) :
      ReachWithin machine guard after

def Reach (machine : Machine State Label) : State → Prop :=
  ReachWithin machine fun _ _ => True

theorem ReachWithin.weaken {machine : Machine State Label}
    {strong weak : State → Label → Prop} (implied : ∀ state label, strong state label → weak state label)
    {state : State} (reached : ReachWithin machine strong state) :
    ReachWithin machine weak state := by
  induction reached with
  | start initial => exact .start initial
  | next _ allowed moved ih => exact .next ih (implied _ _ allowed) moved

/-- One more step, by its label. -/
theorem ReachWithin.by_label {machine : Machine State Label} {guard : State → Label → Prop}
    {state after : State} (label : Label) (reached : ReachWithin machine guard state)
    (allowed : guard state label) (moved : machine.exec state label = some after) :
    ReachWithin machine guard after :=
  .next reached allowed moved

/-- The run rule: an invariant of the initial states that every allowed step
keeps holds in every state of every allowed run. -/
theorem ReachWithin.invariant {machine : Machine State Label} {guard : State → Label → Prop}
    (inv : State → Prop) (base : ∀ state, machine.start state → inv state)
    (keep : ∀ state label after, inv state → guard state label →
      machine.exec state label = some after → inv after)
    {state : State} (reached : ReachWithin machine guard state) : inv state := by
  induction reached with
  | start initial => exact base _ initial
  | next _ allowed moved ih => exact keep _ _ _ ih allowed moved

/-- The run rule under a bound on the whole run that is stated about its last
state, such as a counter staying below a limit. The bound is inherited by
every earlier state because steps never undo it. -/
theorem ReachWithin.invariant_under {machine : Machine State Label}
    {guard : State → Label → Prop} (bound inv : State → Prop)
    (earlier : ∀ state label after, machine.exec state label = some after →
      bound after → bound state)
    (base : ∀ state, machine.start state → inv state)
    (keep : ∀ state label after, bound after → inv state → guard state label →
      machine.exec state label = some after → inv after)
    {state : State} (reached : ReachWithin machine guard state) (bounded : bound state) :
    inv state := by
  induction reached with
  | start initial => exact base _ initial
  | next _ allowed moved ih =>
      exact keep _ _ _ bounded (ih (earlier _ _ _ moved bounded)) allowed moved

/-- The state after a step, or the same state where the step is not enabled. -/
def next (machine : Machine State Label) (state : State) (label : Label) : State :=
  (machine.exec state label).getD state

theorem exec_next {machine : Machine State Label} {state : State} {label : Label}
    (enabled : (machine.exec state label).isSome = true) :
    machine.exec state label = some (next machine state label) := by
  rcases Option.isSome_iff_exists.1 enabled with ⟨after, moved⟩
  simp [next, moved]

/-- One more step that is known to be enabled. -/
theorem ReachWithin.to_next {machine : Machine State Label} {guard : State → Label → Prop}
    {state : State} (label : Label) (reached : ReachWithin machine guard state)
    (allowed : guard state label) (enabled : (machine.exec state label).isSome = true) :
    ReachWithin machine guard (GuardedRuns.next machine state label) :=
  .next reached allowed (exec_next enabled)

def last (machine : Machine State Label) (state : State) (labels : List Label) : State :=
  labels.foldl (next machine) state

/-- Every label is enabled in its turn, and each step passes a check. -/
def passes (machine : Machine State Label) (check : State → Label → Bool) :
    State → List Label → Bool
  | _, [] => true
  | state, label :: labels =>
      check state label && (machine.exec state label).isSome &&
        passes machine check (next machine state label) labels

/-- A run by a list of labels. The check that each step passes implies the
guard in the states that satisfy an invariant. -/
theorem ReachWithin.to_last {machine : Machine State Label} {guard : State → Label → Prop}
    (inv : State → Prop) (check : State → Label → Bool)
    (sound : ∀ state label, inv state → check state label = true → guard state label)
    (keep : ∀ state label after, inv state → check state label = true →
      machine.exec state label = some after → inv after)
    {state : State} (reached : ReachWithin machine guard state) (holds : inv state)
    (labels : List Label) (passing : passes machine check state labels = true) :
    ReachWithin machine guard (last machine state labels) := by
  induction labels generalizing state with
  | nil => exact reached
  | cons label labels ih =>
      simp only [passes, Bool.and_eq_true] at passing
      rcases passing with ⟨⟨checked, enabled⟩, rest⟩
      have allowed := sound state label holds checked
      have kept := keep state label _ holds checked (exec_next enabled)
      exact ih (reached.to_next label allowed enabled) kept rest

/-- Without a guard every step passes. -/
theorem Reach.to_last {machine : Machine State Label} {state : State} (reached : Reach machine state)
    (labels : List Label) (enabled : passes machine (fun _ _ => true) state labels = true) :
    Reach machine (last machine state labels) :=
  ReachWithin.to_last (fun _ => True) (fun _ _ => true) (fun _ _ _ _ => trivial)
    (fun _ _ _ _ _ _ => trivial) reached trivial labels enabled

end GuardedRuns
