import AttentionDB.Lib.GuardedRuns
import Mathlib.Data.List.Basic
import Mathlib.Data.List.Nodup
import Mathlib.Logic.Function.Basic
import Mathlib.Logic.Relation

/-!
# Linearizable histories

A history lists what the callers of an object see: when a thread invokes an
operation and what it gets back, oldest first. It is linearizable if its calls
can be put one after the other so that each answers as the sequential object
would, and no call is put before one that had returned when it was invoked.
Calls that have not returned may have taken effect or not.

An object that is atomic has such a history: a call takes effect in one step
between its invocation and its return, and what it returns is one of the answers
that were right at that step. A machine is linearizable if its steps are steps
of an atomic object.
-/

namespace Linearizability

open GuardedRuns Relation

set_option autoImplicit false

variable {Thread Op Answer State : Type*}

structure SeqObject (State Op Answer : Type*) where
  init : State
  step : State → Op → Answer → State → Prop

inductive CallEvent (Thread Op Answer : Type*) where
  | invoked (thread : Thread) (op : Op)
  | returned (thread : Thread) (answer : Answer)
  deriving DecidableEq

def CallEvent.thread : CallEvent Thread Op Answer → Thread
  | .invoked thread _ | .returned thread _ => thread

structure Operation (Thread Op Answer : Type*) where
  thread : Thread
  op : Op
  answer : Answer
  invokedAt : Nat

/-- The calls one after the other, each with an answer that is right. -/
inductive SeqObject.Runs (object : SeqObject State Op Answer) :
    State → List (Operation Thread Op Answer) → State → Prop where
  | nil (state : State) : Runs object state [] state
  | cons {before middle after : State} {call : Operation Thread Op Answer}
      {calls : List (Operation Thread Op Answer)}
      (right : object.step before call.op call.answer middle) (rest : Runs object middle calls after) :
      Runs object before (call :: calls) after

section Histories

variable {history : List (CallEvent Thread Op Answer)}

/-- The call that a thread invoked at one place of the history returned at another. -/
structure ReturnsAt (history : List (CallEvent Thread Op Answer)) (thread : Thread)
    (invokedAt returnedAt : Nat) (answer : Answer) : Prop where
  later : invokedAt < returnedAt
  returned : history[returnedAt]? = some (.returned thread answer)
  between : ∀ place event, invokedAt < place → place < returnedAt → history[place]? = some event →
    event.thread ≠ thread

/-- An order of the calls of a history that the sequential object could have run. -/
structure Linearization (object : SeqObject State Op Answer)
    (history : List (CallEvent Thread Op Answer)) (order : List (Operation Thread Op Answer)) :
    Prop where
  legal : ∃ final, object.Runs object.init order final
  invoked : ∀ call ∈ order, history[call.invokedAt]? = some (.invoked call.thread call.op)
  once : (order.map Operation.invokedAt).Nodup
  complete : ∀ thread op invokedAt returnedAt answer,
    history[invokedAt]? = some (.invoked thread op) →
    ReturnsAt history thread invokedAt returnedAt answer →
    ∃ call ∈ order, call.invokedAt = invokedAt ∧ call.answer = answer
  realTime : order.Pairwise fun first second => ∀ returnedAt answer,
    ReturnsAt history second.thread second.invokedAt returnedAt answer → first.invokedAt < returnedAt

/-- The order in which the object was seen, if there is one. -/
def Linearizable (object : SeqObject State Op Answer) (history : List (CallEvent Thread Op Answer)) :
    Prop :=
  ∃ order, Linearization object history order

end Histories

/-! ## Atomic objects -/

/-- Where a thread is: between calls, in a call that has not taken effect, or in
one that took effect, with the object before and after it. -/
inductive Phase (Op State : Type*) where
  | idle
  | waiting (invokedAt : Nat) (op : Op)
  | settled (invokedAt : Nat) (op : Op) (before after : State)

structure AtomicState (Thread Op Answer State : Type*) where
  history : List (CallEvent Thread Op Answer)
  phases : Thread → Phase Op State
  contents : State

variable [DecidableEq Thread] {object : SeqObject State Op Answer}

inductive AtomicStep (object : SeqObject State Op Answer) (s : AtomicState Thread Op Answer State) :
    AtomicState Thread Op Answer State → Prop where
  | invoke (thread : Thread) (op : Op) (here : s.phases thread = .idle) : AtomicStep object s
      { s with
        history := s.history ++ [.invoked thread op]
        phases := Function.update s.phases thread (.waiting s.history.length op) }
  | settle (thread : Thread) {invokedAt : Nat} {op : Op} {answer : Answer} {after : State}
      (here : s.phases thread = .waiting invokedAt op)
      (possible : object.step s.contents op answer after) : AtomicStep object s
      { s with
        phases := Function.update s.phases thread (.settled invokedAt op s.contents after)
        contents := after }
  | respond (thread : Thread) {invokedAt : Nat} {op : Op} {before after : State} (answer : Answer)
      (here : s.phases thread = .settled invokedAt op before after)
      (right : object.step before op answer after) : AtomicStep object s
      { s with
        history := s.history ++ [.returned thread answer]
        phases := Function.update s.phases thread .idle }

def AtomicState.start (object : SeqObject State Op Answer) : AtomicState Thread Op Answer State where
  history := []
  phases _ := .idle
  contents := object.init

/-! ### The order in which calls took effect -/

structure Effect (Thread Op Answer State : Type*) where
  call : Operation Thread Op Answer
  before : State
  after : State

/-- The effects follow on each other. -/
inductive Chained (object : SeqObject State Op Answer) :
    State → List (Effect Thread Op Answer State) → State → Prop where
  | nil (state : State) : Chained object state [] state
  | cons {after : State} (effect : Effect Thread Op Answer State)
      {effects : List (Effect Thread Op Answer State)}
      (right : object.step effect.before effect.call.op effect.call.answer effect.after)
      (rest : Chained object effect.after effects after) :
      Chained object effect.before (effect :: effects) after

section Chains

variable {effects : List (Effect Thread Op Answer State)} {before after : State}

omit [DecidableEq Thread] in
theorem Chained.runs (chained : Chained object before effects after) :
    object.Runs before (effects.map Effect.call) after := by
  induction chained with
  | nil state => exact .nil state
  | cons effect right rest ih => exact .cons right ih

omit [DecidableEq Thread] in
theorem Chained.snoc (chained : Chained object before effects after)
    {effect : Effect Thread Op Answer State} (follows : effect.before = after)
    (right : object.step effect.before effect.call.op effect.call.answer effect.after) :
    Chained object before (effects ++ [effect]) effect.after := by
  induction chained with
  | nil state =>
      subst follows
      exact .cons effect right (.nil _)
  | cons first firstRight rest ih => exact .cons first firstRight (ih follows)

/-- The answer that the call invoked at a place gives after all. -/
def answered (place : Nat) (answer : Answer) (effect : Effect Thread Op Answer State) :
    Effect Thread Op Answer State :=
  if effect.call.invokedAt = place then { effect with call := { effect.call with answer } } else effect

omit [DecidableEq Thread] in
@[simp] theorem answered_place (place : Nat) (answer : Answer) (effect : Effect Thread Op Answer State) :
    (answered place answer effect).call.invokedAt = effect.call.invokedAt := by
  unfold answered
  split <;> rfl

omit [DecidableEq Thread] in
@[simp] theorem answered_thread (place : Nat) (answer : Answer) (effect : Effect Thread Op Answer State) :
    (answered place answer effect).call.thread = effect.call.thread := by
  unfold answered
  split <;> rfl

omit [DecidableEq Thread] in
@[simp] theorem answered_op (place : Nat) (answer : Answer) (effect : Effect Thread Op Answer State) :
    (answered place answer effect).call.op = effect.call.op := by
  unfold answered
  split <;> rfl

omit [DecidableEq Thread] in
@[simp] theorem answered_states (place : Nat) (answer : Answer)
    (effect : Effect Thread Op Answer State) :
    (answered place answer effect).before = effect.before ∧
      (answered place answer effect).after = effect.after := by
  unfold answered
  split <;> exact ⟨rfl, rfl⟩

omit [DecidableEq Thread] in
theorem answered_here {place : Nat} (answer : Answer) {effect : Effect Thread Op Answer State}
    (here : effect.call.invokedAt = place) : (answered place answer effect).call.answer = answer := by
  unfold answered
  rw [if_pos here]

omit [DecidableEq Thread] in
theorem answered_elsewhere {place : Nat} (answer : Answer) {effect : Effect Thread Op Answer State}
    (elsewhere : effect.call.invokedAt ≠ place) : answered place answer effect = effect := if_neg elsewhere

omit [DecidableEq Thread] in
/-- Another right answer of one call does not disturb the rest. -/
theorem Chained.answered (chained : Chained object before effects after) (place : Nat) (answer : Answer)
    (right : ∀ effect ∈ effects, effect.call.invokedAt = place →
      object.step effect.before effect.call.op answer effect.after) :
    Chained object before (effects.map (answered place answer)) after := by
  induction chained with
  | nil state => exact .nil state
  | cons first firstRight rest ih =>
      rw [List.map_cons]
      have tail := ih fun effect member => right effect (List.mem_cons_of_mem _ member)
      have states := answered_states place answer first
      rw [← states.2] at tail
      have head : object.step (Linearizability.answered place answer first).before
          (Linearizability.answered place answer first).call.op
          (Linearizability.answered place answer first).call.answer
          (Linearizability.answered place answer first).after := by
        rw [states.1, states.2, answered_op]
        by_cases here : first.call.invokedAt = place
        · rw [answered_here answer here]
          exact right first List.mem_cons_self here
        · rw [answered_elsewhere answer here]
          exact firstRight
      rw [← states.1]
      exact .cons _ head tail

end Chains

/-! ### Atomic objects are linearizable -/

/-- What is known of a thread from where it is. -/
inductive PhaseKnown (history : List (CallEvent Thread Op Answer))
    (effects : List (Effect Thread Op Answer State)) (thread : Thread) : Phase Op State → Prop where
  | idle : PhaseKnown history effects thread .idle
  | waiting (invokedAt : Nat) (op : Op) (place : history[invokedAt]? = some (.invoked thread op))
      (last : ∀ later event, invokedAt < later → history[later]? = some event → event.thread ≠ thread)
      (fresh : ∀ effect ∈ effects, effect.call.invokedAt ≠ invokedAt) :
      PhaseKnown history effects thread (.waiting invokedAt op)
  | settled (invokedAt : Nat) (op : Op) (before after : State)
      (place : history[invokedAt]? = some (.invoked thread op))
      (last : ∀ later event, invokedAt < later → history[later]? = some event → event.thread ≠ thread)
      (effect : Effect Thread Op Answer State) (member : effect ∈ effects)
      (at_place : effect.call.invokedAt = invokedAt) (same : effect.call.op = op)
      (from_before : effect.before = before) (to_after : effect.after = after) :
      PhaseKnown history effects thread (.settled invokedAt op before after)

structure Ordered (object : SeqObject State Op Answer) (s : AtomicState Thread Op Answer State)
    (effects : List (Effect Thread Op Answer State)) : Prop where
  chained : Chained object object.init effects s.contents
  linearizes : Linearization object s.history (effects.map Effect.call)
  known : ∀ thread, PhaseKnown s.history effects thread (s.phases thread)

section Growth

variable {history : List (CallEvent Thread Op Answer)} {order : List (Operation Thread Op Answer)}
  {effects : List (Effect Thread Op Answer State)} {event : CallEvent Thread Op Answer}
  {thread : Thread} {phase : Phase Op State}

omit [DecidableEq Thread] in
theorem place_snoc {place : Nat} {found : CallEvent Thread Op Answer} :
    (history ++ [event])[place]? = some found ↔
      history[place]? = some found ∨ place = history.length ∧ found = event := by
  rcases Nat.lt_trichotomy place history.length with before | here | beyond
  · rw [List.getElem?_append_left before]
    constructor
    · exact .inl
    · rintro (found | ⟨rfl, _⟩)
      · exact found
      · exact absurd before (Nat.lt_irrefl _)
  · subst here
    simp [eq_comm]
  · have nothing : (history ++ [event])[place]? = none := by
      apply List.getElem?_eq_none
      rw [List.length_append, List.length_singleton]
      omega
    have nothingBefore : history[place]? = none := List.getElem?_eq_none (by omega)
    rw [nothing, nothingBefore]
    constructor
    · intro absurdity
      contradiction
    · rintro (absurdity | ⟨rfl, _⟩)
      · contradiction
      · exact absurd beyond (Nat.lt_irrefl _)

omit [DecidableEq Thread] in
theorem place_lt {place : Nat} {found : CallEvent Thread Op Answer}
    (isFound : history[place]? = some found) : place < history.length :=
  (List.getElem?_eq_some_iff.1 isFound).1

omit [DecidableEq Thread] in
/-- A return in the longer history was there before, or it is the new event. -/
theorem returns_snoc {invokedAt returnedAt : Nat} {answer : Answer}
    (returns : ReturnsAt (history ++ [event]) thread invokedAt returnedAt answer) :
    ReturnsAt history thread invokedAt returnedAt answer ∨
      returnedAt = history.length ∧ event = .returned thread answer ∧
        ∀ place found, invokedAt < place → history[place]? = some found → found.thread ≠ thread := by
  rcases place_snoc.1 returns.returned with returned | ⟨atEnd, isEvent⟩
  · left
    refine ⟨returns.later, returned, ?_⟩
    intro place found after before isFound
    exact returns.between place found after before (place_snoc.2 (.inl isFound))
  · right
    refine ⟨atEnd, isEvent.symm, ?_⟩
    intro place found after isFound
    have before : place < returnedAt := by
      rw [atEnd]
      exact place_lt isFound
    exact returns.between place found after before (place_snoc.2 (.inl isFound))

omit [DecidableEq Thread] in
/-- An event more. If it is a return, the order has the call with that answer. -/
theorem Linearization.snoc (linearizes : Linearization object history order)
    (placed : ∀ thread op invokedAt answer, history[invokedAt]? = some (.invoked thread op) →
      event = .returned thread answer →
      (∀ place found, invokedAt < place → history[place]? = some found → found.thread ≠ thread) →
      ∃ call ∈ order, call.invokedAt = invokedAt ∧ call.answer = answer) :
    Linearization object (history ++ [event]) order where
  legal := linearizes.legal
  invoked call member := place_snoc.2 (.inl (linearizes.invoked call member))
  once := linearizes.once
  complete := by
    intro thread op invokedAt returnedAt answer invoked returns
    have earlier : history[invokedAt]? = some (.invoked thread op) := by
      rcases place_snoc.1 invoked with earlier | ⟨atEnd, _⟩
      · exact earlier
      · -- nothing stands behind the last event
        have bound := place_lt returns.returned
        have later := returns.later
        rw [List.length_append, List.length_singleton] at bound
        omega
    rcases returns_snoc returns with before | ⟨_, isReturn, last⟩
    · exact linearizes.complete thread op invokedAt returnedAt answer earlier before
    · exact placed thread op invokedAt answer earlier isReturn last
  realTime := by
    refine linearizes.realTime.imp_of_mem ?_
    intro first second firstMember secondMember before returnedAt answer returns
    rcases returns_snoc returns with earlier | ⟨atEnd, _, _⟩
    · exact before returnedAt answer earlier
    · rw [atEnd]
      exact place_lt (linearizes.invoked first firstMember)

omit [DecidableEq Thread] in
/-- A thread that an event is not about knows what it knew. -/
theorem PhaseKnown.snoc (known : PhaseKnown history effects thread phase)
    (other : event.thread ≠ thread) : PhaseKnown (history ++ [event]) effects thread phase := by
  have still : ∀ invokedAt : Nat,
      (∀ later found, invokedAt < later → history[later]? = some found → found.thread ≠ thread) →
      ∀ later found, invokedAt < later → (history ++ [event])[later]? = some found →
        found.thread ≠ thread := by
    intro invokedAt last later found beyond isFound
    rcases place_snoc.1 isFound with before | ⟨_, isEvent⟩
    · exact last later found beyond before
    · rw [isEvent]
      exact other
  cases known with
  | idle => exact .idle
  | waiting invokedAt op place last fresh =>
      exact .waiting invokedAt op (place_snoc.2 (.inl place)) (still invokedAt last) fresh
  | settled invokedAt op before after place last effect member at_place same from_before to_after =>
      exact .settled invokedAt op before after (place_snoc.2 (.inl place)) (still invokedAt last) effect
        member at_place same from_before to_after

omit [DecidableEq Thread] in
/-- So does one whose call another effect is not of. -/
theorem PhaseKnown.effect (known : PhaseKnown history effects thread phase)
    {effect : Effect Thread Op Answer State} (other : effect.call.thread ≠ thread)
    (invoked : history[effect.call.invokedAt]? = some (.invoked effect.call.thread effect.call.op)) :
    PhaseKnown history (effects ++ [effect]) thread phase := by
  cases known with
  | idle => exact .idle
  | waiting invokedAt op place last fresh =>
      refine .waiting invokedAt op place last ?_
      intro found member same
      rcases List.mem_append.1 member with earlier | new
      · exact fresh found earlier same
      · rw [List.mem_singleton.1 new] at same
        rw [same, place] at invoked
        cases invoked
        exact other rfl
  | settled invokedAt op before after place last old member at_place same from_before to_after =>
      exact .settled invokedAt op before after place last old (List.mem_append_left _ member) at_place
        same from_before to_after

omit [DecidableEq Thread] in
theorem PhaseKnown.answered (known : PhaseKnown history effects thread phase) (place : Nat)
    (answer : Answer) : PhaseKnown history (effects.map (answered place answer)) thread phase := by
  cases known with
  | idle => exact .idle
  | waiting invokedAt op isPlace last fresh =>
      refine .waiting invokedAt op isPlace last ?_
      intro found member
      rcases List.mem_map.1 member with ⟨old, wasMember, rfl⟩
      rw [answered_place]
      exact fresh old wasMember
  | settled invokedAt op before after isPlace last effect member at_place same from_before to_after =>
      have states := answered_states place answer effect
      exact .settled invokedAt op before after isPlace last _ (List.mem_map_of_mem member)
        ((answered_place place answer effect).trans at_place)
        ((answered_op place answer effect).trans same) (states.1.trans from_before)
        (states.2.trans to_after)

end Growth

section Steps

variable {s after : AtomicState Thread Op Answer State} {effects : List (Effect Thread Op Answer State)}

omit [DecidableEq Thread] in
theorem start_ordered :
    Ordered object (AtomicState.start object : AtomicState Thread Op Answer State) [] where
  chained := .nil _
  linearizes :=
    { legal := ⟨_, .nil _⟩
      invoked := by
        intro call member
        cases member
      once := List.nodup_nil
      complete := by
        intro thread op invokedAt returnedAt answer invoked
        cases invoked
      realTime := .nil }
  known thread := .idle

/-- The phase of a thread that moved on, and those of the others. -/
theorem known_update {history : List (CallEvent Thread Op Answer)} {phases : Thread → Phase Op State}
    {mover : Thread} {phase : Phase Op State} (own : PhaseKnown history effects mover phase)
    (others : ∀ thread, thread ≠ mover → PhaseKnown history effects thread (phases thread))
    (thread : Thread) : PhaseKnown history effects thread (Function.update phases mover phase thread) := by
  by_cases same : thread = mover
  · subst same
    rw [Function.update_self]
    exact own
  · rw [Function.update_of_ne same]
    exact others thread same

theorem invoke_ordered (ordered : Ordered object s effects) (thread : Thread) (op : Op) :
    Ordered object
      { s with
        history := s.history ++ [.invoked thread op]
        phases := Function.update s.phases thread (.waiting s.history.length op) } effects where
  chained := ordered.chained
  linearizes := by
    refine ordered.linearizes.snoc ?_
    intro caller called invokedAt answer invoked isReturn
    contradiction
  known := by
    apply known_update
    · refine .waiting s.history.length op (place_snoc.2 (.inr ⟨rfl, rfl⟩)) ?_ ?_
      · intro later found beyond isFound
        have bound := place_lt isFound
        rw [List.length_append, List.length_singleton] at bound
        omega
      · intro effect member same
        have place := ordered.linearizes.invoked effect.call (List.mem_map_of_mem member)
        have bound := place_lt place
        omega
    · intro other different
      exact (ordered.known other).snoc (Ne.symm different)

theorem settle_ordered (ordered : Ordered object s effects) {thread : Thread} {invokedAt : Nat} {op : Op}
    {answer : Answer} {contents : State} (here : s.phases thread = .waiting invokedAt op)
    (possible : object.step s.contents op answer contents) :
    ∃ effects, Ordered object
      { s with
        phases := Function.update s.phases thread (.settled invokedAt op s.contents contents)
        contents } effects := by
  have known := ordered.known thread
  rw [here] at known
  cases known with
  | waiting _ _ place last fresh =>
      let effect : Effect Thread Op Answer State :=
        { call := { thread, op, answer, invokedAt }, before := s.contents, after := contents }
      have chained : Chained object object.init (effects ++ [effect]) contents :=
        ordered.chained.snoc rfl possible
      refine ⟨effects ++ [effect], chained, ?_, ?_⟩
      · have lin := ordered.linearizes
        rw [List.map_append, List.map_singleton]
        refine ⟨⟨contents, ?_⟩, ?_, ?_, ?_, ?_⟩
        · have runs := chained.runs
          rwa [List.map_append, List.map_singleton] at runs
        · intro call member
          rcases List.mem_append.1 member with earlier | new
          · exact lin.invoked call earlier
          · rw [List.mem_singleton.1 new]
            exact place
        · rw [List.map_append, List.map_singleton]
          apply lin.once.append (List.nodup_singleton _)
          intro found listed isNew
          rw [List.mem_singleton.1 isNew, List.map_map] at listed
          rcases List.mem_map.1 listed with ⟨old, member, same⟩
          exact fresh old member same
        · intro caller called invokedAt returnedAt answer invoked returns
          rcases lin.complete caller called invokedAt returnedAt answer invoked returns with
            ⟨call, member, right⟩
          exact ⟨call, List.mem_append_left _ member, right⟩
        · rw [List.pairwise_append]
          refine ⟨lin.realTime, List.pairwise_singleton _ _, ?_⟩
          intro first _ second isNew returnedAt answer returns
          -- the call that takes effect now has not returned
          rw [List.mem_singleton.1 isNew] at returns
          exact absurd rfl (last returnedAt _ returns.later returns.returned)
      · apply known_update
        · exact .settled invokedAt op s.contents contents place last effect
            (List.mem_append_right _ (List.mem_singleton.2 rfl)) rfl rfl rfl rfl
        · intro other different
          exact (ordered.known other).effect (Ne.symm different) place

theorem respond_ordered (ordered : Ordered object s effects) {thread : Thread} {invokedAt : Nat} {op : Op}
    {before contents : State} {answer : Answer}
    (here : s.phases thread = .settled invokedAt op before contents)
    (right : object.step before op answer contents) :
    ∃ effects, Ordered object
      { s with
        history := s.history ++ [.returned thread answer]
        phases := Function.update s.phases thread .idle } effects := by
  have known := ordered.known thread
  rw [here] at known
  cases known with
  | settled _ _ _ _ place last effect member at_place same from_before to_after =>
      have lin := ordered.linearizes
      have places : ((effects.map (answered invokedAt answer)).map Effect.call).map
          Operation.invokedAt = (effects.map Effect.call).map Operation.invokedAt := by
        simp only [List.map_map]
        exact List.map_congr_left fun effect _ => answered_place invokedAt answer effect
      have onlyOne : ∀ other ∈ effects, other.call.invokedAt = invokedAt → other = effect := by
        intro other isOther otherPlace
        have nodup := lin.once
        rw [List.map_map] at nodup
        exact List.inj_on_of_nodup_map nodup isOther member (otherPlace.trans at_place.symm)
      have chained : Chained object object.init (effects.map (answered invokedAt answer)) s.contents := by
        apply ordered.chained.answered
        intro other isOther otherPlace
        rw [onlyOne other isOther otherPlace, same, from_before, to_after]
        exact right
      refine ⟨effects.map (answered invokedAt answer), chained, ?_, ?_⟩
      · have changed : Linearization object s.history
            ((effects.map (answered invokedAt answer)).map Effect.call) := by
          refine ⟨⟨_, chained.runs⟩, ?_, ?_, ?_, ?_⟩
          · intro call isCall
            rcases List.mem_map.1 isCall with ⟨new, isNew, rfl⟩
            rcases List.mem_map.1 isNew with ⟨old, wasMember, rfl⟩
            rw [answered_place, answered_thread, answered_op]
            exact lin.invoked old.call (List.mem_map_of_mem wasMember)
          · rw [places]
            exact lin.once
          · intro caller called place' returnedAt given invoked returns
            rcases lin.complete caller called place' returnedAt given invoked returns with
              ⟨call, isCall, atPlace, gives⟩
            rcases List.mem_map.1 isCall with ⟨old, wasMember, rfl⟩
            refine ⟨(answered invokedAt answer old).call,
              List.mem_map_of_mem (List.mem_map_of_mem wasMember), ?_, ?_⟩
            · rw [answered_place]
              exact atPlace
            · have elsewhere : old.call.invokedAt ≠ invokedAt := by
                intro isHere
                -- the call at that place has not returned
                rw [atPlace] at isHere
                subst isHere
                rw [place] at invoked
                cases invoked
                exact last returnedAt _ returns.later returns.returned rfl
              rw [answered_elsewhere answer elsewhere]
              exact gives
          · have before := lin.realTime
            simp only [List.pairwise_map] at before ⊢
            refine before.imp ?_
            intro first second ordering returnedAt given returns
            rw [answered_thread, answered_place] at returns
            rw [answered_place]
            exact ordering returnedAt given returns
        refine changed.snoc ?_
        intro caller called invokedThere given invoked isReturn lastThere
        cases isReturn
        have isHere : invokedThere = invokedAt := by
          rcases Nat.lt_trichotomy invokedThere invokedAt with earlier | isHere | later
          · exact absurd rfl (lastThere invokedAt _ earlier place)
          · exact isHere
          · exact absurd rfl (last invokedThere _ later invoked)
        subst isHere
        refine ⟨(answered invokedThere answer effect).call,
          List.mem_map_of_mem (List.mem_map_of_mem member), ?_, answered_here answer at_place⟩
        rw [answered_place]
        exact at_place
      · apply known_update
        · exact .idle
        · intro other different
          exact ((ordered.known other).answered invokedAt answer).snoc (Ne.symm different)

theorem atomic_step_ordered (ordered : Ordered object s effects) (step : AtomicStep object s after) :
    ∃ effects, Ordered object after effects := by
  cases step with
  | invoke thread op here => exact ⟨effects, invoke_ordered ordered thread op⟩
  | settle thread here possible => exact settle_ordered ordered here possible
  | respond thread answer here right => exact respond_ordered ordered here right

theorem atomic_ordered (steps : ReflTransGen (AtomicStep object) (.start object) s) :
    ∃ effects, Ordered object s effects := by
  induction steps with
  | refl => exact ⟨[], start_ordered⟩
  | tail _ step ih =>
      obtain ⟨effects, ordered⟩ := ih
      exact atomic_step_ordered ordered step

/-- The history of an atomic object is linearizable. -/
theorem atomic_linearizable (steps : ReflTransGen (AtomicStep object) (.start object) s) :
    Linearizable object s.history := by
  obtain ⟨effects, ordered⟩ := atomic_ordered steps
  exact ⟨_, ordered.linearizes⟩

end Steps

/-- The simulation rule. A machine whose steps are steps of an atomic object, or
none, has linearizable histories. -/
theorem reach_linearizable {Concrete Label : Type*} {machine : Machine Concrete Label}
    {guard : Concrete → Label → Prop} (history : Concrete → List (CallEvent Thread Op Answer))
    (simulates : Concrete → AtomicState Thread Op Answer State → Prop) (bound : Concrete → Prop)
    (same : ∀ concrete s, simulates concrete s → s.history = history concrete)
    (earlier : ∀ concrete label after, machine.exec concrete label = some after →
      bound after → bound concrete)
    (base : ∀ concrete, machine.start concrete → bound concrete → simulates concrete (.start object))
    (step : ∀ concrete label after s, bound after → simulates concrete s → guard concrete label →
      machine.exec concrete label = some after →
      ∃ next, ReflTransGen (AtomicStep object) s next ∧ simulates after next)
    {concrete : Concrete} (reached : ReachWithin machine guard concrete) (bounded : bound concrete) :
    Linearizable object (history concrete) := by
  have simulated : ∃ s, ReflTransGen (AtomicStep object) (.start object) s ∧ simulates concrete s := by
    apply reached.invariant_under bound (fun concrete => bound concrete →
      ∃ s, ReflTransGen (AtomicStep object) (.start object) s ∧ simulates concrete s) earlier _ _
        bounded bounded
    · intro initial start bounded
      exact ⟨_, .refl, base initial start bounded⟩
    · intro before label after boundAfter ih allowed moved _
      obtain ⟨s, steps, holds⟩ := ih (earlier before label after moved boundAfter)
      obtain ⟨next, more, holdsNext⟩ := step before label after s boundAfter holds allowed moved
      exact ⟨next, steps.trans more, holdsNext⟩
  obtain ⟨s, steps, holds⟩ := simulated
  rw [← same concrete s holds]
  exact atomic_linearizable steps

end Linearizability
