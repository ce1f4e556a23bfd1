import Mathlib.Algebra.Order.Field.Basic
import Mathlib.Algebra.CharZero.Defs
import Mathlib.Algebra.Order.BigOperators.Group.List
import Mathlib.Data.List.DropRight
import Mathlib.Tactic.FieldSimp
import Mathlib.Tactic.Ring
import Mathlib.Tactic.Linarith

/-! A mean computed one sample at a time, and the window of the last samples it is taken of. -/

namespace RunningMean

section Window

variable {α : Type*}

/-- Sliding a window by one sample: drop what no longer fits, and append. -/
theorem rtake_append {width : ℕ} (hwidth : 0 < width) (xs : List α) (x : α) :
    (xs ++ [x]).rtake width =
      (xs.rtake width).drop ((xs.rtake width).length - min (xs.rtake width).length (width - 1)) ++ [x] := by
  have hlength : (xs.rtake width).length = min xs.length width := by
    rw [List.rtake, List.length_drop]
    omega
  rw [hlength, List.rtake, List.rtake, List.drop_drop, List.length_append, List.length_singleton,
    List.drop_append_of_le_length (by omega)]
  congr 2
  omega

theorem length_rtake (width : ℕ) (xs : List α) : (xs.rtake width).length = min xs.length width := by
  rw [List.rtake, List.length_drop]
  omega

theorem mem_of_mem_rtake {width : ℕ} {xs : List α} {x : α} (h : x ∈ xs.rtake width) : x ∈ xs := List.mem_of_mem_drop h

end Window

section Mean

variable {K : Type*} [Field K] [LinearOrder K] [IsStrictOrderedRing K]

def mean (xs : List K) : K := xs.sum / xs.length

theorem mean_append (xs : List K) (x : K) : mean (xs ++ [x]) = mean xs + (x - mean xs) / (xs.length + 1 : ℕ) := by
  unfold mean
  rw [List.sum_append, List.sum_singleton, List.length_append, List.length_singleton]
  have hnext : ((xs.length + 1 : ℕ) : K) ≠ 0 := Nat.cast_ne_zero.2 (Nat.succ_ne_zero _)
  by_cases hempty : xs.length = 0
  · obtain rfl := List.length_eq_zero_iff.1 hempty
    simp
  · have hlength : (xs.length : K) ≠ 0 := Nat.cast_ne_zero.2 hempty
    field_simp
    push_cast
    ring

theorem le_mean {xs : List K} {low : K} (hne : xs ≠ []) (h : ∀ x ∈ xs, low ≤ x) : low ≤ mean xs := by
  have hpos : (0 : K) < xs.length := Nat.cast_pos.2 (List.length_pos_iff.2 hne)
  rw [mean, le_div_iff₀ hpos]
  have hsum := List.card_nsmul_le_sum xs low h
  rw [nsmul_eq_mul] at hsum
  linarith

theorem mean_le {xs : List K} {high : K} (hne : xs ≠ []) (h : ∀ x ∈ xs, x ≤ high) : mean xs ≤ high := by
  have hpos : (0 : K) < xs.length := Nat.cast_pos.2 (List.length_pos_iff.2 hne)
  rw [mean, div_le_iff₀ hpos]
  have hsum := List.sum_le_card_nsmul xs high h
  rw [nsmul_eq_mul] at hsum
  linarith

end Mean
end RunningMean
