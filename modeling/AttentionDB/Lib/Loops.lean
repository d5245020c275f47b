import Mathlib.Tactic.TypeStar

/-!
# Loops

A loop is the step of its body, which either leaves with a result or goes on
with a state, run with fuel. What a loop returns, and that it returns, come from
one description of the body: an invariant, a postcondition for the ways out, and
a measure that each round lowers.
-/

namespace Loops

set_option autoImplicit false

variable {State Result : Type*}

def run (body : State → Result ⊕ State) : Nat → State → Option Result
  | 0, _ => none
  | fuel + 1, state =>
      match body state with
      | .inl result => some result
      | .inr next => run body fuel next

/-- With enough fuel there is a result, and every result has the postcondition. -/
def Returns (loop : Nat → Option Result) (post : Result → Prop) : Prop :=
  (∃ fuel, (loop fuel).isSome) ∧ ∀ fuel result, loop fuel = some result → post result

theorem Returns.weaken {loop : Nat → Option Result} {strong weak : Result → Prop}
    (returns : Returns loop strong) (implied : ∀ result, strong result → weak result) :
    Returns loop weak :=
  ⟨returns.1, fun fuel result ran => implied result (returns.2 fuel result ran)⟩

section Rule

variable {body : State → Result ⊕ State} {post : Result → Prop} (inv : State → Prop)
  (measure : State → Nat)

theorem run_post (round : ∀ state, inv state → (body state).elim post inv) (fuel : Nat)
    (state : State) (holds : inv state) (result : Result)
    (ran : run body fuel state = some result) : post result := by
  induction fuel generalizing state with
  | zero => contradiction
  | succ fuel ih =>
      have one := round state holds
      rw [run] at ran
      cases step : body state with
      | inl out =>
          rw [step] at ran one
          cases ran
          exact one
      | inr next =>
          rw [step] at ran one
          exact ih next one ran

theorem run_ends
    (round : ∀ state, inv state →
      (body state).elim (fun _ => True) fun next => inv next ∧ measure next < measure state)
    (bound : Nat) (state : State) (holds : inv state) (below : measure state ≤ bound) :
    (run body (bound + 1) state).isSome := by
  induction bound generalizing state with
  | zero =>
      have one := round state holds
      rw [run]
      cases step : body state with
      | inl out => rfl
      | inr next =>
          rw [step] at one
          have lower := one.2
          omega
  | succ bound ih =>
      have one := round state holds
      rw [run]
      cases step : body state with
      | inl out => rfl
      | inr next =>
          rw [step] at one
          have lower := one.2
          exact ih next one.1 (by omega)

/-- The rule for a loop: each round leaves with the postcondition, or keeps the
invariant and lowers the measure. -/
theorem returns_of_round
    (round : ∀ state, inv state →
      (body state).elim post fun next => inv next ∧ measure next < measure state)
    (state : State) (holds : inv state) : Returns (run body · state) post := by
  refine ⟨⟨measure state + 1, ?_⟩, ?_⟩
  · apply run_ends inv measure _ _ _ holds (Nat.le_refl _)
    intro state holds
    have one := round state holds
    cases step : body state with
    | inl out => trivial
    | inr next => rw [step] at one; exact one
  · intro fuel result ran
    apply run_post inv _ fuel state holds result ran
    intro state holds
    have one := round state holds
    cases step : body state with
    | inl out => rw [step] at one; exact one
    | inr next => rw [step] at one; exact one.1

end Rule

end Loops
