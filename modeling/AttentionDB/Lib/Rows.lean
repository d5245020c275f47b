import Mathlib.Data.List.Basic
import Mathlib.Tactic.TypeStar

/-!
# Items in a row

Items with a position and a size that follow each other without a gap, from a
start to a stop: the entries of a log, the fields of a record, the blocks of a
file. A row grows at its stop, and a walk from its start meets every item.
-/

namespace Rows

set_option autoImplicit false

variable {α : Type*} {position size : α → Nat}

inductive Row (position size : α → Nat) : Nat → Nat → List α → Prop where
  | nil (here : Nat) : Row position size here here []
  | cons {item : α} {items : List α} {stop : Nat}
      (rest : Row position size (position item + size item) stop items) :
      Row position size (position item) stop (item :: items)

theorem Row.start_le_stop {start stop : Nat} {items : List α}
    (row : Row position size start stop items) : start ≤ stop := by
  induction row with
  | nil here => exact Nat.le_refl here
  | cons rest ih => omega

theorem Row.head {start stop : Nat} {item : α} {items : List α}
    (row : Row position size start stop (item :: items)) :
    position item = start ∧ Row position size (start + size item) stop items := by
  cases row with
  | cons rest => exact ⟨rfl, rest⟩

/-- Every item of a row lies between its ends. -/
theorem Row.within {start stop : Nat} {items : List α} (row : Row position size start stop items) :
    ∀ item ∈ items, start ≤ position item ∧ position item + size item ≤ stop := by
  induction row with
  | nil here => simp
  | @cons first items stop rest ih =>
      intro item member
      have longer := rest.start_le_stop
      rcases List.mem_cons.1 member with rfl | later
      · exact ⟨Nat.le_refl _, longer⟩
      · have bounds := ih item later
        exact ⟨by omega, bounds.2⟩

/-- A row takes one more item at its stop. -/
theorem Row.snoc {start stop : Nat} {items : List α} (row : Row position size start stop items)
    {item : α} (next : position item = stop) :
    Row position size start (stop + size item) (items ++ [item]) := by
  induction row with
  | nil here =>
      subst next
      exact .cons (.nil _)
  | cons rest ih => exact .cons (ih next)

/-- A row whose walk has not reached the stop has an item at the walk's position. -/
theorem Row.next {start stop : Nat} {items : List α} (row : Row position size start stop items)
    (before : start < stop) : ∃ item rest, items = item :: rest := by
  cases row with
  | nil here => exact absurd before (Nat.lt_irrefl _)
  | cons rest => exact ⟨_, _, rfl⟩

/-- With items of positive size, a row that stops where it starts is empty. -/
theorem Row.nothing {start : Nat} {items : List α} (row : Row position size start start items)
    (positive : ∀ item ∈ items, 0 < size item) : items = [] := by
  cases items with
  | nil => rfl
  | cons item items =>
      have bounds := row.within item List.mem_cons_self
      have room := positive item List.mem_cons_self
      omega

/-- A row of items of positive size has at most as many as fit between its ends. -/
theorem Row.length_le {start stop : Nat} {items : List α} (row : Row position size start stop items)
    (positive : ∀ item ∈ items, 0 < size item) : items.length ≤ stop - start := by
  induction row with
  | nil here => simp
  | @cons first items stop rest ih =>
      have few := ih fun item member => positive item (List.mem_cons_of_mem _ member)
      have room := positive first List.mem_cons_self
      have longer := rest.start_le_stop
      simp only [List.length_cons]
      omega

end Rows
