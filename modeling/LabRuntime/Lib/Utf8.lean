import Mathlib.Algebra.BigOperators.Group.List.Basic
import Mathlib.Algebra.Order.BigOperators.Group.List
import Mathlib.Algebra.Order.Group.Nat
import Mathlib.Algebra.Ring.Nat

/-! The bytes a text takes, as a sum over its characters. -/

namespace Utf8

def size (cs : List Char) : ℕ := (cs.map Char.utf8Size).sum

theorem utf8ByteSize_ofList (cs : List Char) : (String.ofList cs).utf8ByteSize = size cs := by
  induction cs with
  | nil => rfl
  | cons c cs ih =>
    rw [show String.ofList (c :: cs) = String.singleton c ++ String.ofList cs by simp,
      String.utf8ByteSize_append, String.utf8ByteSize_singleton, ih]
    rfl

theorem utf8ByteSize_eq (s : String) : s.utf8ByteSize = size s.toList := by
  rw [← utf8ByteSize_ofList, String.ofList_toList]

theorem length_le_size (cs : List Char) : cs.length ≤ size cs := by
  induction cs with
  | nil => exact le_rfl
  | cons c cs ih =>
    have hc := c.utf8Size_pos
    rw [size, List.map_cons, List.sum_cons, List.length_cons]
    rw [size] at ih
    omega

theorem size_ascii {cs : List Char} (h : ∀ c ∈ cs, c.toNat < 128) : size cs = cs.length := by
  induction cs with
  | nil => rfl
  | cons c cs ih =>
    have hc : c.utf8Size = 1 := by
      have := h c List.mem_cons_self
      have hval : c.val ≤ 127 := by
        rw [UInt32.le_iff_toNat_le]
        exact Nat.le_of_lt_succ this
      simp [Char.utf8Size, hval]
    have hcs := ih fun d hd => h d (List.mem_cons_of_mem c hd)
    rw [size] at hcs
    rw [size, List.map_cons, List.sum_cons, hc, hcs, List.length_cons]
    omega

theorem size_append (cs ds : List Char) : size (cs ++ ds) = size cs + size ds := by
  rw [size, List.map_append, List.sum_append]
  rfl

/-- Where every character is replaced by at most `k` times its bytes, so is the whole. -/
theorem size_flatMap_le {f : Char → List Char} {k : ℕ} {cs : List Char}
    (h : ∀ c ∈ cs, size (f c) ≤ k * c.utf8Size) : size (cs.flatMap f) ≤ k * size cs := by
  induction cs with
  | nil => exact Nat.zero_le _
  | cons c cs ih =>
    have hc := h c List.mem_cons_self
    have hcs := ih fun d hd => h d (List.mem_cons_of_mem c hd)
    have hsize : size (c :: cs) = c.utf8Size + size cs := rfl
    rw [List.flatMap_cons, size_append, hsize, Nat.mul_add]
    exact Nat.add_le_add hc hcs

end Utf8
