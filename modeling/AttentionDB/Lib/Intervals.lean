import Mathlib.Data.Finset.Card
import Mathlib.Order.Interval.Finset.Nat
import Mathlib.Algebra.GroupWithZero.Nat

/-!
# Disjoint intervals of numbers

An interval is a start and a length. Pairwise disjoint intervals inside a range
cannot be longer, all together, than the range.
-/

namespace Intervals

set_option autoImplicit false

structure Interval where
  start : Nat
  length : Nat

namespace Interval

def stop (r : Interval) : Nat := r.start + r.length

def Apart (r s : Interval) : Prop := r.stop ≤ s.start ∨ s.stop ≤ r.start

def points (r : Interval) : Finset Nat := Finset.Ico r.start r.stop

end Interval

def covered : List Interval → Finset Nat
  | [] => ∅
  | r :: rest => r.points ∪ covered rest

theorem mem_covered (intervals : List Interval) (n : Nat) :
    n ∈ covered intervals ↔ ∃ r ∈ intervals, n ∈ r.points := by
  induction intervals with
  | nil => simp [covered]
  | cons r rest ih => simp [covered, ih]

theorem card_covered (intervals : List Interval) (apart : intervals.Pairwise Interval.Apart) :
    (covered intervals).card = (intervals.map Interval.length).sum := by
  induction intervals with
  | nil => rfl
  | cons r rest ih =>
      obtain ⟨first, later⟩ := List.pairwise_cons.1 apart
      have disjoint : Disjoint r.points (covered rest) := by
        rw [Finset.disjoint_left]
        intro n inFirst inRest
        obtain ⟨s, member, inside⟩ := (mem_covered rest n).1 inRest
        have separate := first s member
        simp only [Interval.points, Finset.mem_Ico] at inFirst inside
        rcases separate with before | after <;> omega
      have size : r.points.card = r.length := by simp [Interval.points, Interval.stop]
      rw [covered, Finset.card_union_of_disjoint disjoint, ih later, size]
      simp

theorem sum_lengths_le (intervals : List Interval) (low high : Nat)
    (inside : ∀ r ∈ intervals, low ≤ r.start ∧ r.stop ≤ high)
    (apart : intervals.Pairwise Interval.Apart) :
    (intervals.map Interval.length).sum ≤ high - low := by
  have subset : covered intervals ⊆ Finset.Ico low high := by
    intro n member
    obtain ⟨r, inList, inside_r⟩ := (mem_covered intervals n).1 member
    have bounds := inside r inList
    simp only [Interval.points, Finset.mem_Ico] at inside_r ⊢
    omega
  calc
    (intervals.map Interval.length).sum = (covered intervals).card := (card_covered _ apart).symm
    _ ≤ (Finset.Ico low high).card := Finset.card_le_card subset
    _ = high - low := by simp

end Intervals
