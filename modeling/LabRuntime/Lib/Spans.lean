import Mathlib.Algebra.BigOperators.Group.List.Basic
import Mathlib.Algebra.Order.Group.Nat
import Mathlib.Algebra.Ring.Nat

/-! Items that take consecutive numbers from one counter, and quantities summed over the items
up to a number. An item may take no number; then it carries no quantity either. -/

namespace Spans

variable {μ : Type*} (first count : μ → ℕ)

/-- The last number an item takes. -/
def last (m : μ) : ℕ := first m + count m - 1

/-- How many numbers the items take together. -/
def total (ms : List μ) : ℕ := (ms.map count).sum

/-- After the number `n`, each item takes the next numbers in turn. -/
def Chained : ℕ → List μ → Prop
  | _, [] => True
  | n, m :: ms => (count m ≠ 0 → first m = n + 1) ∧ Chained (n + count m) ms

@[simp] theorem total_nil : total count [] = 0 := rfl

@[simp] theorem total_cons (m : μ) (ms : List μ) : total count (m :: ms) = count m + total count ms := by
  simp [total]

@[simp] theorem total_append (ms ns : List μ) : total count (ms ++ ns) = total count ms + total count ns := by
  simp [total]

variable {first count}

@[simp] theorem chained_nil {n : ℕ} : Chained first count n [] := trivial

theorem chained_cons {n : ℕ} {m : μ} {ms : List μ} :
    Chained first count n (m :: ms) ↔
      (count m ≠ 0 → first m = n + 1) ∧ Chained first count (n + count m) ms := Iff.rfl

theorem chained_append {n : ℕ} {ms ns : List μ} :
    Chained first count n (ms ++ ns) ↔
      Chained first count n ms ∧ Chained first count (n + total count ms) ns := by
  induction ms generalizing n with
  | nil => simp
  | cons m ms ih =>
    rw [List.cons_append, chained_cons, chained_cons, ih, total_cons, Nat.add_assoc, and_assoc]

theorem Chained.left {n : ℕ} {ms ns : List μ} (h : Chained first count n (ms ++ ns)) :
    Chained first count n ms := (chained_append.1 h).1

theorem Chained.right {n : ℕ} {ms ns : List μ} (h : Chained first count n (ms ++ ns)) :
    Chained first count (n + total count ms) ns := (chained_append.1 h).2

/-- Numbers are above the start of the chain and not above its end. -/
theorem Chained.bounds {n : ℕ} {ms : List μ} (h : Chained first count n ms) {m : μ} (hm : m ∈ ms)
    (hcount : count m ≠ 0) : n < first m ∧ last first count m ≤ n + total count ms := by
  induction ms generalizing n with
  | nil => cases hm
  | cons m' ms ih =>
    obtain ⟨hfirst, hrest⟩ := chained_cons.1 h
    rw [total_cons]
    rcases List.mem_cons.1 hm with rfl | hm
    · have := hfirst hcount
      unfold last
      omega
    · have := ih hrest hm
      omega

/-! ### A quantity of the items above a number -/

section Weight

variable {ω : Type*} [AddCommMonoid ω] (weight : μ → ω)

/-- The quantity of the items whose last number is above `n`. -/
def above (first count : μ → ℕ) (n : ℕ) (ms : List μ) : ω :=
  ((ms.filter fun m => n < last first count m).map weight).sum

/-- The quantity of all items. -/
def sum (ms : List μ) : ω := (ms.map weight).sum

@[simp] theorem sum_nil : sum weight [] = 0 := rfl

@[simp] theorem sum_cons (m : μ) (ms : List μ) : sum weight (m :: ms) = weight m + sum weight ms := by
  simp [sum]

@[simp] theorem sum_append (ms ns : List μ) : sum weight (ms ++ ns) = sum weight ms + sum weight ns := by
  simp [sum]

theorem above_append (n : ℕ) (ms ns : List μ) :
    above weight first count n (ms ++ ns) = above weight first count n ms + above weight first count n ns := by
  simp [above]

variable {weight}

/-- Every item that carries something takes a number. -/
def Counted (count : μ → ℕ) (weight : μ → ω) (ms : List μ) : Prop := ∀ m ∈ ms, count m = 0 → weight m = 0

theorem counted_append {ms ns : List μ} :
    Counted count weight (ms ++ ns) ↔ Counted count weight ms ∧ Counted count weight ns := by
  simp only [Counted, List.mem_append, or_imp, forall_and]

/-- Nothing of a chain is above its end. -/
theorem Chained.above_end {n k : ℕ} {ms : List μ} (h : Chained first count n ms)
    (hweight : Counted count weight ms) (hk : n + total count ms ≤ k) :
    above weight first count k ms = 0 := by
  refine List.sum_eq_zero fun w hw => ?_
  obtain ⟨m, hm, rfl⟩ := List.mem_map.1 hw
  obtain ⟨hm, hlast⟩ := List.mem_filter.1 hm
  have hlast : k < last first count m := of_decide_eq_true hlast
  by_cases hcount : count m = 0
  · exact hweight m hm hcount
  · have := (h.bounds hm hcount).2
    omega

/-- All of a chain is above the number before it. -/
theorem Chained.above_start {n k : ℕ} {ms : List μ} (h : Chained first count n ms)
    (hweight : Counted count weight ms) (hk : k ≤ n) :
    above weight first count k ms = sum weight ms := by
  induction ms generalizing n with
  | nil => rfl
  | cons m ms ih =>
    obtain ⟨hfirst, hrest⟩ := chained_cons.1 h
    rw [← List.singleton_append] at hweight
    obtain ⟨hhead, htail⟩ := counted_append.1 hweight
    rw [← List.singleton_append, above_append, ih hrest htail (by omega), sum_append]
    congr 1
    by_cases hcount : count m = 0
    · have hnone : weight m = 0 := hhead m List.mem_cons_self hcount
      rw [show sum weight [m] = 0 by simp [hnone]]
      refine List.sum_eq_zero fun w hw => ?_
      obtain ⟨m', hm', rfl⟩ := List.mem_map.1 hw
      obtain rfl : m' = m := by simpa using List.mem_of_mem_filter hm'
      exact hnone
    · have hlast : k < last first count m := by
        have := hfirst hcount
        unfold last
        omega
      simp [above, hlast]

/-- What is above the end of the first part of a chain is its second part. -/
theorem Chained.above_cut {n : ℕ} {ms ns : List μ} (h : Chained first count n (ms ++ ns))
    (hweight : Counted count weight (ms ++ ns)) :
    above weight first count (n + total count ms) (ms ++ ns) = sum weight ns := by
  obtain ⟨hleft, hright⟩ := counted_append.1 hweight
  rw [above_append, h.left.above_end hleft le_rfl, h.right.above_start hright le_rfl, zero_add]

end Weight
end Spans
