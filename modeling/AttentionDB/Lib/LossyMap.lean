import AttentionDB.Lib.GuardedRuns
import Mathlib.Logic.Function.Basic

/-!
# Maps that forget

What a cache promises: a map from keys to values in which every store may
forget other keys, and the new one too. What was forgotten does not come back,
a value is never an older one, and a value that the policy calls durable is not
forgotten. Which answers are right for what is stored is the policy's matter.
-/

namespace LossyMaps

open GuardedRuns

set_option autoImplicit false

variable {Key Value Reply : Type*} [DecidableEq Key]

structure CachePolicy (Value Reply : Type*) where
  durable : Value → Prop
  answers : Option Value → Reply → Prop

/-- A finished call, with what the caller was told. -/
inductive CacheEvent (Key Value Reply : Type*) where
  | stored (key : Key) (value : Value)
  | turnedAway (key : Key) (value : Value)
  | answered (key : Key) (reply : Reply)
  | removed (key : Key)
  | absent (key : Key)
  deriving DecidableEq

/-- Nothing but values that are not durable is lost. -/
def Forgets (policy : CachePolicy Value Reply) (before after : Key → Option Value) : Prop :=
  ∀ key, after key = before key ∨
    after key = none ∧ ∀ value, before key = some value → ¬policy.durable value

/-- What a call does to the contents. Only a store forgets. -/
inductive CacheStep (policy : CachePolicy Value Reply) (contents : Key → Option Value) :
    CacheEvent Key Value Reply → (Key → Option Value) → Prop where
  | stored {after : Key → Option Value} (key : Key) (value : Value)
      (forgets : Forgets policy (Function.update contents key (some value)) after) :
      CacheStep policy contents (.stored key value) after
  | turnedAway (key : Key) (value : Value) : CacheStep policy contents (.turnedAway key value) contents
  | answered (key : Key) (reply : Reply) (right : policy.answers (contents key) reply) :
      CacheStep policy contents (.answered key reply) contents
  | removed (key : Key) (value : Value) (present : contents key = some value) :
      CacheStep policy contents (.removed key) (Function.update contents key none)
  | absent (key : Key) (missing : contents key = none) : CacheStep policy contents (.absent key) contents

inductive CacheHistory (policy : CachePolicy Value Reply) :
    List (CacheEvent Key Value Reply) → (Key → Option Value) → Prop where
  | nil : CacheHistory policy [] fun _ => none
  | cons {events : List (CacheEvent Key Value Reply)} {event : CacheEvent Key Value Reply}
      {before after : Key → Option Value} (earlier : CacheHistory policy events before)
      (step : CacheStep policy before event after) : CacheHistory policy (event :: events) after

section Histories

variable {policy : CachePolicy Value Reply} {events : List (CacheEvent Key Value Reply)}
  {contents : Key → Option Value} {key : Key} {value : Value}

end Histories

/-- Two maps with the same keys, and related values under them. -/
def Related {Other : Type*} (rel : Value → Other → Prop) (left : Key → Option Value)
    (right : Key → Option Other) : Prop :=
  ∀ key, (left key = none ∧ right key = none) ∨
    ∃ value other, left key = some value ∧ right key = some other ∧ rel value other

section Related

variable {Other : Type*} {rel : Value → Other → Prop} {left : Key → Option Value}
  {right after : Key → Option Other} {key : Key} {value : Value} {other : Other}

theorem Related.update (related : Related rel left right) (new : rel value other) :
    Related rel (Function.update left key (some value)) (Function.update right key (some other)) := by
  intro asked
  by_cases same : asked = key
  · subst same
    exact .inr ⟨value, other, by simp, by simp, new⟩
  · rw [Function.update_of_ne same, Function.update_of_ne same]
    exact related asked

theorem Related.erase (related : Related rel left right) (key : Key) :
    Related rel (Function.update left key none) (Function.update right key none) := by
  intro asked
  by_cases same : asked = key
  · subst same
    exact .inl ⟨by simp, by simp⟩
  · rw [Function.update_of_ne same, Function.update_of_ne same]
    exact related asked

/-- A value is changed in place to one that is still related. -/
theorem Related.change (related : Related rel left right) (key : Key) {changed : Value → Value}
    (still : ∀ value other, rel value other → rel (changed value) other) :
    Related rel (Function.update left key ((left key).map changed)) right := by
  intro asked
  by_cases same : asked = key
  · subst same
    rw [Function.update_self]
    rcases related asked with ⟨absent, missing⟩ | ⟨value, other, isValue, isOther, holds⟩
    · exact .inl ⟨by rw [absent]; rfl, missing⟩
    · exact .inr ⟨changed value, other, by rw [isValue]; rfl, isOther, still value other holds⟩
  · rw [Function.update_of_ne same]
    exact related asked

omit [DecidableEq Key] in
/-- A map of related values forgets what the other one forgets. -/
theorem Related.forgets {Reply OtherReply : Type*} {policy : CachePolicy Value Reply}
    {otherPolicy : CachePolicy Other OtherReply} (related : Related rel left right)
    (durable : ∀ value other, rel value other → policy.durable value → otherPolicy.durable other)
    (forgets : Forgets otherPolicy right after) :
    ∃ leftAfter, Forgets policy left leftAfter ∧ Related rel leftAfter after := by
  refine ⟨fun key => if after key = none then none else left key, fun key => ?_, fun key => ?_⟩
  · rcases forgets key with kept | ⟨lost, notDurable⟩
    · rcases related key with ⟨absent, absentRight⟩ | ⟨value, other, isValue, isOther, _⟩
      · exact .inl (by simp [absent])
      · exact .inl (by simp [kept, isOther])
    · refine .inr ⟨by simp [lost], fun value isValue isDurable => ?_⟩
      rcases related key with ⟨absent, _⟩ | ⟨known, other, isKnown, isOther, holds⟩
      · rw [absent] at isValue
        contradiction
      · rw [isKnown] at isValue
        cases isValue
        exact notDurable other isOther (durable _ other holds isDurable)
  · rcases forgets key with kept | ⟨lost, _⟩
    · rcases related key with ⟨absent, absentRight⟩ | ⟨value, other, isValue, isOther, holds⟩
      · exact .inl ⟨by simp [absent], kept.trans absentRight⟩
      · exact .inr ⟨value, other, by simp [kept, isOther, isValue], kept.trans isOther, holds⟩
    · exact .inl ⟨by simp [lost], lost⟩

end Related

/-- The refinement rule. A machine that records its calls has a history if
every step of it is a step of the map, or records and changes nothing. -/
theorem reach_history {State Label : Type*} {machine : Machine State Label}
    {guard : State → Label → Prop} (policy : CachePolicy Value Reply)
    (events : State → List (CacheEvent Key Value Reply)) (contents : State → Key → Option Value)
    (bound : State → Prop)
    (earlier : ∀ state label after, machine.exec state label = some after → bound after → bound state)
    (base : ∀ state, machine.start state → bound state →
      events state = [] ∧ contents state = fun _ => none)
    (step : ∀ state label after, ReachWithin machine guard state → bound after → guard state label →
      machine.exec state label = some after →
      (events after = events state ∧ contents after = contents state) ∨
        ∃ event, events after = event :: events state ∧
          CacheStep policy (contents state) event (contents after))
    {state : State} (reached : ReachWithin machine guard state) (bounded : bound state) :
    CacheHistory policy (events state) (contents state) := by
  induction reached with
  | start initial =>
      obtain ⟨noEvents, empty⟩ := base _ initial bounded
      rw [noEvents, empty]
      exact .nil
  | next before allowed moved ih =>
      have history := ih (earlier _ _ _ moved bounded)
      rcases step _ _ _ before bounded allowed moved with ⟨sameEvents, same⟩ | ⟨event, recorded, taken⟩
      · rw [sameEvents, same]
        exact history
      · rw [recorded]
        exact .cons history taken

end LossyMaps
