import Mathlib.Data.List.Basic

/-! The last entries of a growing list, as a bounded ring holds them. -/

namespace Window

variable {α : Type*} (n : ℕ) (l : List α)

/-- The last `n` entries. -/
def last : List α := l.drop (l.length - n)

theorem length_last : (last n l).length = min n l.length := by
  rw [last, List.length_drop]
  omega

theorem last_concat (hn : 0 < n) (a : α) : last n (l ++ [a]) = l.drop (l.length + 1 - n) ++ [a] := by
  rw [last, List.length_append, List.length_singleton, List.drop_append_of_le_length (by omega)]

/-- A full ring that drops its front before it takes a new entry still holds the last `n`. -/
theorem push (hn : 0 < n) (a : α) :
    (if (last n l).length = n then (last n l).tail else last n l) ++ [a] = last n (l ++ [a]) := by
  have hlen := length_last n l
  rw [last_concat n l hn, hlen]
  by_cases hfull : n ≤ l.length
  · rw [if_pos (by omega), last, List.tail_drop, show l.length - n + 1 = l.length + 1 - n by omega]
  · rw [if_neg (by omega), last, show l.length - n = l.length + 1 - n by omega]

theorem getLast?_last (hn : 0 < n) : (last n l).getLast? = l.getLast? := by
  rw [last, List.getLast?_drop]
  by_cases h : l.length ≤ l.length - n
  · rw [if_pos h, List.eq_nil_of_length_eq_zero (show l.length = 0 by omega), List.getLast?_nil]
  · rw [if_neg h]

/-- A new last entry in place of the old one is new in the window too. -/
theorem replace (hn : 0 < n) (hl : l ≠ []) (a : α) : (last n l).dropLast ++ [a] = last n (l.dropLast ++ [a]) := by
  obtain ⟨init, x, rfl⟩ := l.eq_nil_or_concat'.resolve_left hl
  rw [last_concat n init hn, List.dropLast_concat, List.dropLast_concat, last_concat n init hn]

theorem drop_last {k : ℕ} (h : l.length - n ≤ k) : (last n l).drop (k - (l.length - n)) = l.drop k := by
  rw [last, List.drop_drop]
  congr 1
  omega

end Window
