import Mathlib.Algebra.Order.Ring.Defs
import Mathlib.Algebra.Order.Group.Abs
import Mathlib.Tactic.Linarith

/-! A point moving toward a goal that it does not pass: how far it has come depends on the ground
it may have covered, not on where it stopped on the way. -/

namespace Approach

variable {K : Type*} [Field K] [LinearOrder K] [IsStrictOrderedRing K] {goal x s t : K}

/-- The point nearest to `goal` that is at most `s` away from `x`. -/
def toward (goal x s : K) : K := max (x - s) (min (x + s) goal)

theorem toward_of_le (h : x ≤ goal) (hs : 0 ≤ s) : toward goal x s = min (x + s) goal :=
  max_eq_right (le_min (by linarith) (by linarith))

theorem toward_of_ge (h : goal ≤ x) (hs : 0 ≤ s) : toward goal x s = max (x - s) goal := by
  unfold toward
  rw [min_eq_right (by linarith)]

theorem toward_zero (goal x : K) : toward goal x 0 = x := by
  obtain h | h := le_total x goal
  · rw [toward_of_le h le_rfl, add_zero, min_eq_left h]
  · rw [toward_of_ge h le_rfl, sub_zero, max_eq_left h]

/-- The goal is never passed from below. -/
theorem toward_mem_of_le (h : x ≤ goal) (hs : 0 ≤ s) : x ≤ toward goal x s ∧ toward goal x s ≤ goal := by
  rw [toward_of_le h hs]
  exact ⟨le_min (by linarith) h, min_le_right _ _⟩

/-- The goal is never passed from above. -/
theorem toward_mem_of_ge (h : goal ≤ x) (hs : 0 ≤ s) : goal ≤ toward goal x s ∧ toward goal x s ≤ x := by
  rw [toward_of_ge h hs]
  exact ⟨le_max_right _ _, max_le (by linarith) h⟩

/-- Two moves toward one goal are one move. -/
theorem toward_toward (hs : 0 ≤ s) (ht : 0 ≤ t) : toward goal (toward goal x s) t = toward goal x (s + t) := by
  obtain h | h := le_total x goal
  · rw [toward_of_le (toward_mem_of_le h hs).2 ht, toward_of_le h hs, toward_of_le h (add_nonneg hs ht)]
    obtain hnear | hfar := le_total goal (x + s)
    · rw [min_eq_right hnear, min_eq_right (by linarith), min_eq_right (by linarith)]
    · rw [min_eq_left hfar, add_assoc]
  · rw [toward_of_ge (toward_mem_of_ge h hs).1 ht, toward_of_ge h hs, toward_of_ge h (add_nonneg hs ht)]
    obtain hnear | hfar := le_total (x - s) goal
    · rw [max_eq_right hnear, max_eq_right (by linarith), max_eq_right (by linarith)]
    · rw [max_eq_left hfar, sub_sub]

/-- The goal is reached just when it is no further away than the move. -/
theorem toward_eq_goal_iff (hs : 0 ≤ s) : toward goal x s = goal ↔ |goal - x| ≤ s := by
  obtain h | h := le_total x goal
  · rw [toward_of_le h hs, abs_of_nonneg (sub_nonneg.2 h), min_eq_right_iff]
    constructor <;> intro hle <;> linarith
  · rw [toward_of_ge h hs, abs_of_nonpos (sub_nonpos.2 h), max_eq_right_iff]
    constructor <;> intro hle <;> linarith

/-- A longer move leaves less of the way. -/
theorem dist_toward_le (hs : 0 ≤ s) (hst : s ≤ t) : |goal - toward goal x t| ≤ |goal - toward goal x s| := by
  have ht : 0 ≤ t := hs.trans hst
  have hsum : toward goal x t = toward goal (toward goal x s) (t - s) := by
    rw [toward_toward hs (sub_nonneg.2 hst), add_sub_cancel]
  rw [hsum]
  generalize toward goal x s = y
  obtain h | h := le_total y goal
  · have hmem := toward_mem_of_le h (sub_nonneg.2 hst)
    rw [abs_of_nonneg (sub_nonneg.2 hmem.2), abs_of_nonneg (sub_nonneg.2 h)]
    linarith
  · have hmem := toward_mem_of_ge h (sub_nonneg.2 hst)
    rw [abs_of_nonpos (sub_nonpos.2 hmem.1), abs_of_nonpos (sub_nonpos.2 h)]
    linarith

/-- The move stays between where it starts and the goal. -/
theorem toward_mem (goal x : K) (hs : 0 ≤ s) : min x goal ≤ toward goal x s ∧ toward goal x s ≤ max x goal := by
  obtain h | h := le_total x goal
  · rw [min_eq_left h, max_eq_right h]
    exact toward_mem_of_le h hs
  · rw [min_eq_right h, max_eq_left h]
    exact toward_mem_of_ge h hs

end Approach
