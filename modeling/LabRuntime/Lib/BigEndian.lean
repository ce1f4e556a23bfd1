import Mathlib.Algebra.Order.Group.Nat
import Mathlib.Tactic.Ring
import Mathlib.Tactic.Linarith

/-! Naturals as byte strings of a fixed width, most significant byte first. They are read back,
and their lexicographic order is that of the numbers. -/

namespace BigEndian

def bytes : ℕ → ℕ → List UInt8
  | 0, _ => []
  | w + 1, n => UInt8.ofNat (n / 256 ^ w) :: bytes w (n % 256 ^ w)

def value (bs : List UInt8) : ℕ := bs.foldl (fun n b => n * 256 + b.toNat) 0

@[simp] theorem length_bytes (w n : ℕ) : (bytes w n).length = w := by
  induction w generalizing n with
  | zero => rfl
  | succ w ih => rw [bytes, List.length_cons, ih]

theorem toNat_head {w n : ℕ} (h : n < 256 ^ (w + 1)) : (UInt8.ofNat (n / 256 ^ w)).toNat = n / 256 ^ w := by
  have hlt : n / 256 ^ w < 256 := Nat.div_lt_of_lt_mul (by rw [← pow_succ]; exact h)
  simpa using hlt

theorem foldl_bytes {w n : ℕ} (h : n < 256 ^ w) (a : ℕ) :
    (bytes w n).foldl (fun n b => n * 256 + b.toNat) a = a * 256 ^ w + n := by
  induction w generalizing n a with
  | zero =>
    obtain rfl : n = 0 := by simpa using h
    simp [bytes]
  | succ w ih =>
    rw [bytes, List.foldl_cons, ih (Nat.mod_lt _ (by positivity)), toNat_head h, pow_succ]
    have hdiv := Nat.div_add_mod n (256 ^ w)
    calc (a * 256 + n / 256 ^ w) * 256 ^ w + n % 256 ^ w
        = a * (256 ^ w * 256) + (256 ^ w * (n / 256 ^ w) + n % 256 ^ w) := by ring
      _ = a * (256 ^ w * 256) + n := by rw [hdiv]

theorem value_bytes {w n : ℕ} (h : n < 256 ^ w) : value (bytes w n) = n := by
  rw [value, foldl_bytes h, Nat.zero_mul, Nat.zero_add]

theorem lt_iff_divMod (m n b : ℕ) : m < n ↔ m / b < n / b ∨ (m / b = n / b ∧ m % b < n % b) := by
  have hm := Nat.div_add_mod m b
  have hn := Nat.div_add_mod n b
  constructor
  · intro h
    rcases Nat.lt_or_ge (m / b) (n / b) with hlt | hge
    · exact .inl hlt
    · have heq : m / b = n / b := le_antisymm (Nat.div_le_div_right h.le) hge
      rw [heq] at hm
      exact .inr ⟨heq, by omega⟩
  · rintro (h | ⟨heq, h⟩)
    · by_contra hge
      exact absurd (Nat.div_le_div_right (not_lt.1 hge)) (not_le.2 h)
    · rw [heq] at hm
      omega

/-- Byte strings of one width, compared byte by byte, are ordered as the numbers they hold. -/
theorem bytes_lt_iff {w m n : ℕ} (hm : m < 256 ^ w) (hn : n < 256 ^ w) :
    (bytes w m).map UInt8.toNat < (bytes w n).map UInt8.toNat ↔ m < n := by
  induction w generalizing m n with
  | zero =>
    obtain rfl : m = 0 := by simpa using hm
    obtain rfl : n = 0 := by simpa using hn
    simp [bytes]
  | succ w ih =>
    have hpos : 0 < 256 ^ w := by positivity
    rw [bytes, bytes, List.map_cons, List.map_cons, List.cons_lt_cons_iff, toNat_head hm, toNat_head hn,
      ih (Nat.mod_lt _ hpos) (Nat.mod_lt _ hpos)]
    exact (lt_iff_divMod m n _).symm

theorem bytes_injective {w m n : ℕ} (hm : m < 256 ^ w) (hn : n < 256 ^ w) (h : bytes w m = bytes w n) : m = n := by
  rw [← value_bytes hm, h, value_bytes hn]

end BigEndian
