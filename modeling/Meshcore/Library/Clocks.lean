import Mathlib.Algebra.BigOperators.Intervals
import Mathlib.Algebra.Order.Monoid.Defs
import Mathlib.Algebra.Order.Monoid.Unbundled.MinMax
import Mathlib.Order.Lattice

/-! A clock that is moved from two sides. At the start of each round it is set forward
to the time the round is due, if it is behind; the work of the round then takes it on
from there. What a round takes too long is not lost to the rounds after it. -/
namespace Clocks

open Finset

variable {α : Type*} [AddCommMonoid α] [LinearOrder α] [IsOrderedAddMonoid α] [OrderBot α]
  {ι : Type*} [DecidableEq ι]

/-- The clock `t` after so many rounds, each due at `start` and taking `cost`. -/
def clock (start cost : ℕ → α) (t : α) : ℕ → α
  | 0 => t
  | k + 1 => max (clock start cost t k) (start k) + cost k

theorem max_sup_add (s : Finset ι) (f : ι → α) (x c : α) :
    max x (s.sup f) + c = max (x + c) (s.sup fun j => f j + c) := by
  induction s using Finset.induction with
  | empty => simp
  | insert j s fresh ih =>
    calc max x ((insert j s).sup f) + c
        = max (f j) (max x (s.sup f)) + c := by rw [sup_insert, max_left_comm]
      _ = max (f j + c) (max x (s.sup f) + c) := (max_add_add_right _ _ _).symm
      _ = max (x + c) ((insert j s).sup fun j => f j + c) := by
        rw [ih, sup_insert, max_left_comm]

/-- The clock is the latest of what it would show had only one of the rounds set it, or
none. -/
theorem clock_eq (start cost : ℕ → α) (t : α) (k : ℕ) : clock start cost t k =
    max (t + ∑ i ∈ range k, cost i)
      ((range k).sup fun j => start j + ∑ i ∈ Ico j k, cost i) := by
  induction k with
  | zero => simp [clock]
  | succ k ih =>
    have carried (j : ℕ) (earlier : j ∈ range k) : start j + ∑ i ∈ Ico j (k + 1), cost i =
        start j + ∑ i ∈ Ico j k, cost i + cost k := by
      rw [sum_Ico_succ_top (mem_range.mp earlier).le, add_assoc]
    have last : ∑ i ∈ Ico k (k + 1), cost i = cost k := by simp
    rw [clock, ih, ← max_add_add_right, max_sup_add, add_assoc, ← sum_range_succ,
      range_add_one, sup_insert, last, sup_congr rfl carried, max_assoc]
    exact congrArg (max _) (max_comm _ _)

end Clocks
