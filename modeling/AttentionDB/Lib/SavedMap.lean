import AttentionDB.Lib.LossyMap

/-!
# Maps that are saved and restored

A map that forgets, on a machine that stops and starts again. Now and then the
map is copied, and later the copy may replace the saved one. Some values have
reached a place from which they are not forgotten, and only these are restored:
a new map is the saved copy without the others. What was stored since the copy
was taken is gone then, and what was removed since is back.
-/

namespace LossyMaps

set_option autoImplicit false

variable {Key Value Reply : Type*} [DecidableEq Key]

/-- A value, whether it is where restarts find it, and whether it was stored
since the last one. -/
structure Held (Value : Type*) where
  value : Value
  settled : Bool
  fresh : Bool := true

def restored (saved : Key → Option (Held Value)) : Key → Option (Held Value) :=
  fun key => ((saved key).filter (·.settled)).map fun held => { held with fresh := false }

/-- The map of the running machine, if there is one, the copy that is on its way
to replace the saved one, and the saved one. -/
structure SavedMap (Key Value : Type*) where
  current : Option (Key → Option (Held Value)) := none
  copy : Option (Key → Option (Held Value)) := none
  saved : Key → Option (Held Value) := fun _ => none

/-- What a call does to the map. No call forgets another key. -/
inductive HeldStep (policy : CachePolicy (Held Value) Reply) (contents : Key → Option (Held Value)) :
    CacheEvent Key Value Reply → (Key → Option (Held Value)) → Prop where
  | stored (key : Key) (value : Value) (settled : Bool) :
      HeldStep policy contents (.stored key value)
        (Function.update contents key (some { value, settled }))
  | turnedAway (key : Key) (value : Value) : HeldStep policy contents (.turnedAway key value) contents
  | answered (key : Key) (reply : Reply)
      (right : policy.answers (contents key) reply) :
      HeldStep policy contents (.answered key reply) contents
  | removed (key : Key) (present : contents key ≠ none) :
      HeldStep policy contents (.removed key) (Function.update contents key none)
  | absent (key : Key) (missing : contents key = none) :
      HeldStep policy contents (.absent key) contents

/-- Values settle, and values that are neither settled nor durable are lost. -/
def Settles (policy : CachePolicy (Held Value) Reply) (before after : Key → Option (Held Value)) : Prop :=
  ∀ key, after key = before key ∨ ∃ held, before key = some held ∧ held.settled = false ∧
    (after key = some { held with settled := true } ∨ after key = none ∧ ¬policy.durable held)

section Settles

variable {policy : CachePolicy (Held Value) Reply} {contents : Key → Option (Held Value)} {key : Key}
  {held : Held Value}

omit [DecidableEq Key] in
theorem Settles.refl (policy : CachePolicy (Held Value) Reply) (contents : Key → Option (Held Value)) :
    Settles policy contents contents :=
  fun _ => .inl rfl

theorem Settles.lost (wasThere : contents key = some held) (unsettled : held.settled = false)
    (cheap : ¬policy.durable held) : Settles policy contents (Function.update contents key none) := by
  intro asked
  by_cases same : asked = key
  · subst same
    exact .inr ⟨held, wasThere, unsettled, .inr ⟨by simp, cheap⟩⟩
  · exact .inl (Function.update_of_ne same _ _)

theorem Settles.moved (wasThere : contents key = some held) (unsettled : held.settled = false) :
    Settles policy contents (Function.update contents key (some { held with settled := true })) := by
  intro asked
  by_cases same : asked = key
  · subst same
    exact .inr ⟨held, wasThere, unsettled, .inl (by simp)⟩
  · exact .inl (Function.update_of_ne same _ _)

end Settles

/-- What happens to the map, seen from outside. -/
inductive SavedMark (Key Value Reply : Type*) where
  | call (event : CacheEvent Key Value Reply)
  | settled
  | copied
  | replaced
  | stopped
  | started
  deriving DecidableEq

/-- The marks of a run, newest first, and the maps it left. -/
inductive SavedRun (policy : CachePolicy (Held Value) Reply) :
    List (SavedMark Key Value Reply) → SavedMap Key Value → Prop where
  | nil : SavedRun policy [] {}
  | call {marks : List (SavedMark Key Value Reply)} {event : CacheEvent Key Value Reply}
      {map : SavedMap Key Value} {contents after : Key → Option (Held Value)}
      (earlier : SavedRun policy marks map) (running : map.current = some contents)
      (step : HeldStep policy contents event after) :
      SavedRun policy (.call event :: marks) { map with current := some after }
  | settled {marks : List (SavedMark Key Value Reply)} {map : SavedMap Key Value}
      {contents after : Key → Option (Held Value)} (earlier : SavedRun policy marks map)
      (running : map.current = some contents) (settles : Settles policy contents after) :
      SavedRun policy (.settled :: marks) { map with current := some after }
  | copied {marks : List (SavedMark Key Value Reply)} {map : SavedMap Key Value}
      {contents : Key → Option (Held Value)} (earlier : SavedRun policy marks map)
      (running : map.current = some contents) :
      SavedRun policy (.copied :: marks) { map with copy := some contents }
  | replaced {marks : List (SavedMark Key Value Reply)} {map : SavedMap Key Value}
      {copy : Key → Option (Held Value)} (earlier : SavedRun policy marks map)
      (isCopy : map.copy = some copy) :
      SavedRun policy (.replaced :: marks) { map with saved := copy }
  | stopped {marks : List (SavedMark Key Value Reply)} {map : SavedMap Key Value}
      (earlier : SavedRun policy marks map) :
      SavedRun policy (.stopped :: marks) { map with current := none, copy := none }
  | started {marks : List (SavedMark Key Value Reply)} {map : SavedMap Key Value}
      (earlier : SavedRun policy marks map) (down : map.current = none) :
      SavedRun policy (.started :: marks) { map with current := some (restored map.saved) }

/-! ## What the marks say of the values -/

/-- The values that were stored last, now, when the map was copied, and in the
saved copy. A start goes back to the saved copy. -/
structure Expected (Key Value : Type*) where
  current : Key → Option Value := fun _ => none
  copy : Key → Option Value := fun _ => none
  saved : Key → Option Value := fun _ => none

def expected : List (SavedMark Key Value Reply) → Expected Key Value
  | [] => {}
  | .call (.stored key value) :: earlier =>
      { expected earlier with current := Function.update (expected earlier).current key (some value) }
  | .call (.removed key) :: earlier =>
      { expected earlier with current := Function.update (expected earlier).current key none }
  | .copied :: earlier => { expected earlier with copy := (expected earlier).current }
  | .replaced :: earlier => { expected earlier with saved := (expected earlier).copy }
  | .started :: earlier => { expected earlier with current := (expected earlier).saved }
  | .call (.turnedAway _ _) :: earlier | .call (.answered _ _) :: earlier
  | .call (.absent _) :: earlier | .settled :: earlier | .stopped :: earlier => expected earlier

/-- Every value that is there is the one that was stored last. -/
def Follows (contents : Key → Option (Held Value)) (values : Key → Option Value) : Prop :=
  ∀ key held, contents key = some held → values key = some held.value

section Values

variable {policy : CachePolicy (Held Value) Reply} {contents after : Key → Option (Held Value)}
  {values : Key → Option Value} {key : Key} {value : Value}

theorem Follows.stored (follows : Follows contents values) (key : Key) (value : Value) (settled : Bool) :
    Follows (Function.update contents key (some { value, settled }))
      (Function.update values key (some value)) := by
  intro asked held isHeld
  by_cases same : asked = key
  · subst same
    rw [Function.update_self] at isHeld ⊢
    cases isHeld
    rfl
  · rw [Function.update_of_ne same] at isHeld ⊢
    exact follows asked held isHeld

theorem Follows.removed (follows : Follows contents values) (key : Key) :
    Follows (Function.update contents key none) (Function.update values key none) := by
  intro asked held isHeld
  by_cases same : asked = key
  · subst same
    rw [Function.update_self] at isHeld
    contradiction
  · rw [Function.update_of_ne same] at isHeld ⊢
    exact follows asked held isHeld

omit [DecidableEq Key] in
theorem Follows.settles (follows : Follows contents values) (settles : Settles policy contents after) :
    Follows after values := by
  intro key held isHeld
  rcases settles key with same | ⟨before, wasThere, _, moved | ⟨lost, _⟩⟩
  · exact follows key held (same ▸ isHeld)
  · rw [isHeld] at moved
    cases moved
    exact follows key before wasThere
  · rw [lost] at isHeld
    contradiction

omit [DecidableEq Key] in
theorem Follows.restored (follows : Follows contents values) :
    Follows (restored contents) values := by
  intro key held isHeld
  rcases Option.map_eq_some_iff.1 isHeld with ⟨before, wasThere, rfl⟩
  exact follows key before (Option.filter_eq_some_iff.1 wasThere).1

/-- No value is an older one than the marks say. -/
theorem SavedRun.follows {marks : List (SavedMark Key Value Reply)} {map : SavedMap Key Value}
    (run : SavedRun policy marks map) :
    (∀ contents, map.current = some contents → Follows contents (expected marks).current) ∧
      (∀ copy, map.copy = some copy → Follows copy (expected marks).copy) ∧
      Follows map.saved (expected marks).saved := by
  induction run with
  | nil => exact ⟨nofun, nofun, nofun⟩
  | call earlier running step ih =>
      have before := ih.1 _ running
      refine ⟨fun contents isContents => ?_, ?_⟩
      · cases isContents
        cases step with
        | stored key value settled => exact before.stored key value settled
        | removed key => exact before.removed key
        | turnedAway | answered | absent => exact before
      · cases step <;> exact ih.2
  | settled earlier running settles ih =>
      refine ⟨fun contents isContents => ?_, ih.2⟩
      cases isContents
      exact (ih.1 _ running).settles settles
  | copied earlier running ih =>
      refine ⟨ih.1, fun copy isCopy => ?_, ih.2.2⟩
      cases isCopy
      exact ih.1 _ running
  | replaced earlier isCopy ih => exact ⟨ih.1, ih.2.1, ih.2.1 _ isCopy⟩
  | stopped earlier ih => exact ⟨nofun, nofun, ih.2.2⟩
  | started earlier down ih =>
      refine ⟨fun contents isContents => ?_, ih.2⟩
      cases isContents
      exact ih.2.2.restored

/-- A call is answered for the value that the marks say, or for none. -/
theorem SavedRun.answered {marks : List (SavedMark Key Value Reply)} {map : SavedMap Key Value}
    {key : Key} {reply : Reply} (run : SavedRun policy (.call (.answered key reply) :: marks) map) :
    policy.answers none reply ∨
      ∃ held, (expected marks).current key = some held.value ∧ policy.answers (some held) reply := by
  cases run with
  | @call _ _ before contents _ earlier running step =>
      have follows := earlier.follows.1 contents running
      cases step with
      | answered _ _ right =>
          cases there : contents key with
          | none =>
              rw [there] at right
              exact .inl right
          | some held =>
              rw [there] at right
              exact .inr ⟨held, follows key held there, right⟩

end Values

end LossyMaps
