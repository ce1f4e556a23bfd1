import Mathlib.Data.List.Basic
import Mathlib.Tactic.IntervalCases

/-! Decimal numerals of naturals: they are read back, they differ for different numbers, they
hold digits only and have no leading zero. -/

namespace Decimal

theorem repr_injective {m n : ℕ} (h : m.repr = n.repr) : m = n := by
  have hdigits := congrArg String.toList h
  rw [Nat.toList_repr, Nat.toList_repr] at hdigits
  have hvalue := congrArg (fun l => Nat.ofDigitChars 10 l 0) hdigits
  simpa using hvalue

theorem isDigit_of_mem {n : ℕ} {c : Char} (h : c ∈ n.repr.toList) : c.isDigit = true := by
  rw [Nat.toList_repr] at h
  exact Nat.isDigit_of_mem_toDigits (by decide) (by decide) h

theorem all_isDigit (n : ℕ) : n.repr.toList.all Char.isDigit = true :=
  List.all_eq_true.2 fun _ => isDigit_of_mem

theorem toList_ne_nil (n : ℕ) : n.repr.toList ≠ [] := by
  rw [Nat.toList_repr]
  exact Nat.toDigits_ne_nil

theorem not_mem_of_not_isDigit {n : ℕ} {c : Char} (h : c.isDigit = false) : c ∉ n.repr.toList := fun hmem =>
  absurd ((isDigit_of_mem hmem).symm.trans h) (by decide)

/-- Only zero starts with a zero. -/
theorem head_ne_zero {n : ℕ} (h : 0 < n) : n.repr.toList.head? ≠ some '0' := by
  induction n using Nat.strong_induction_on with
  | _ n ih =>
    by_cases hlt : n < 10
    · rw [Nat.repr_of_lt hlt]
      interval_cases n <;> decide
    · have hge : 10 ≤ n := not_lt.1 hlt
      rw [Nat.repr_of_ge hge, String.toList_append, List.head?_append_of_ne_nil _ (toList_ne_nil _)]
      exact ih (n / 10) (by omega) (by omega)

/-- Texts that are cut at the first separator are read apart again. -/
theorem cut_injective {α : Type*} {c : α} {x x' z z' : List α} (hx : c ∉ x) (hx' : c ∉ x')
    (h : x ++ c :: z = x' ++ c :: z') : x = x' ∧ z = z' := by
  induction x generalizing x' with
  | nil =>
    cases x' with
    | nil => exact ⟨rfl, (List.cons.inj h).2⟩
    | cons a x' => exact absurd ((List.cons.inj h).1 ▸ List.mem_cons_self) hx'
  | cons a x ih =>
    cases x' with
    | nil => exact absurd ((List.cons.inj h).1 ▸ List.mem_cons_self) hx
    | cons a' x' =>
      obtain ⟨rfl, htail⟩ := List.cons.inj h
      obtain ⟨rfl, rfl⟩ := ih (fun hm => hx (List.mem_cons_of_mem _ hm))
        (fun hm => hx' (List.mem_cons_of_mem _ hm)) htail
      exact ⟨rfl, rfl⟩

/-- Two numerals around a separator that is no digit are read apart again. -/
theorem pair_injective {c : Char} (hc : c.isDigit = false) {a b a' b' : ℕ}
    (h : a.repr.toList ++ c :: b.repr.toList = a'.repr.toList ++ c :: b'.repr.toList) : a = a' ∧ b = b' := by
  have hcut := cut_injective (not_mem_of_not_isDigit hc) (not_mem_of_not_isDigit hc) h
  exact ⟨repr_injective (String.toList_inj.1 hcut.1), repr_injective (String.toList_inj.1 hcut.2)⟩

end Decimal
