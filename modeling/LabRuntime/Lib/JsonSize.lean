import LabRuntime.Lib.JsonText
import LabRuntime.Lib.Utf8

/-! How many bytes a document takes when it is written without blanks: strings with their
escapes, numbers as they are printed, a comma between neighbours. -/

namespace JsonText

/-- The bytes of a character inside a written string. -/
def escapedSize (c : Char) : ℕ :=
  if c = '"' ∨ c = '\\' ∨ c.toNat = 0x08 ∨ c.toNat = 0x09 ∨ c.toNat = 0x0a ∨ c.toNat = 0x0c ∨ c.toNat = 0x0d then 2
  else if c.toNat < 0x20 then 6
  else c.utf8Size

def stringSize (s : String) : ℕ := 2 + (s.toList.map escapedSize).sum

namespace Value

variable {ν : Type} (number : ν → ℕ)

mutual

/-- The bytes of a compact document, given the bytes its numbers are printed in. -/
def textSize : Value ν String → ℕ
  | .null => 4
  | .bool b => if b then 4 else 5
  | .number n => number n
  | .string s => stringSize s
  | .array items => 2 + (items.length - 1) + itemSizes items
  | .object members => 2 + (members.length - 1) + memberSizes members

def itemSizes : List (Value ν String) → ℕ
  | [] => 0
  | v :: vs => v.textSize + itemSizes vs

def memberSizes : List (String × Value ν String) → ℕ
  | [] => 0
  | (key, v) :: ms => stringSize key + 1 + v.textSize + memberSizes ms

end

mutual

/-- Equality of documents with the same order of members. -/
def beq [BEq ν] : Value ν String → Value ν String → Bool
  | .null, .null => true
  | .bool a, .bool b => a == b
  | .number a, .number b => a == b
  | .string a, .string b => a == b
  | .array as, .array bs => beqItems as bs
  | .object as, .object bs => beqMembers as bs
  | _, _ => false

def beqItems [BEq ν] : List (Value ν String) → List (Value ν String) → Bool
  | [], [] => true
  | a :: as, b :: bs => a.beq b && beqItems as bs
  | _, _ => false

def beqMembers [BEq ν] : List (String × Value ν String) → List (String × Value ν String) → Bool
  | [], [] => true
  | (k, a) :: as, (l, b) :: bs => k == l && a.beq b && beqMembers as bs
  | _, _ => false

end

instance [BEq ν] : BEq (Value ν String) := ⟨beq⟩

end Value

/-! ### Bounds -/

theorem escapedSize_le (c : Char) : escapedSize c ≤ 6 * c.utf8Size := by
  have hpos := c.utf8Size_pos
  unfold escapedSize
  split_ifs <;> omega

/-- Every byte of a text takes at most six. -/
theorem stringSize_le (s : String) : stringSize s ≤ 2 + 6 * s.utf8ByteSize := by
  rw [stringSize, Utf8.utf8ByteSize_eq, Utf8.size]
  refine Nat.add_le_add_left ?_ 2
  induction s.toList with
  | nil => exact Nat.zero_le _
  | cons c cs ih =>
    have hc := escapedSize_le c
    simp only [List.map_cons, List.sum_cons]
    omega

theorem escapedSize_digit {c : Char} (h : c.isDigit = true) : escapedSize c = 1 := by
  have hrange : 48 ≤ c.toNat ∧ c.toNat ≤ 57 := by
    simp only [Char.isDigit, Bool.and_eq_true, decide_eq_true_eq] at h
    exact ⟨UInt32.le_iff_toNat_le.1 h.1, UInt32.le_iff_toNat_le.1 h.2⟩
  have hquote : c ≠ '"' := by rintro rfl; exact absurd hrange.1 (by decide)
  have hslash : c ≠ '\\' := by rintro rfl; exact absurd hrange.2 (by decide)
  have hsize : c.utf8Size = 1 := by
    have hval : c.val ≤ 127 := by
      rw [UInt32.le_iff_toNat_le]
      exact hrange.2.trans (by decide)
    simp [Char.utf8Size, hval]
  rw [escapedSize, if_neg, if_neg, hsize]
  · omega
  · rintro (h | h | h | h | h | h | h)
    · exact hquote h
    · exact hslash h
    · omega
    · omega
    · omega
    · omega
    · omega

/-- A numeral is written digit by digit. -/
theorem stringSize_repr (n : ℕ) : stringSize n.repr = 2 + n.repr.toList.length := by
  have hdigits : ∀ c ∈ n.repr.toList, escapedSize c = 1 := fun c hc => by
    rw [Nat.toList_repr] at hc
    exact escapedSize_digit (Nat.isDigit_of_mem_toDigits (by decide) (by decide) hc)
  rw [stringSize, List.map_congr_left hdigits, List.map_const', List.sum_const_nat, mul_one]

theorem length_repr_le {m n : ℕ} (h : m ≤ n) : m.repr.toList.length ≤ n.repr.toList.length := by
  rw [Nat.toList_repr, Nat.toList_repr]
  have hpos : 0 < (Nat.toDigits 10 n).length := List.length_pos_iff.2 Nat.toDigits_ne_nil
  have hn := (Nat.length_toDigits_le_iff (by decide) hpos).1 (le_refl (Nat.toDigits 10 n).length)
  exact (Nat.length_toDigits_le_iff (by decide) hpos).2 (lt_of_le_of_lt h hn)

theorem stringSize_repr_le {m n : ℕ} (h : m ≤ n) : stringSize m.repr ≤ stringSize n.repr := by
  rw [stringSize_repr, stringSize_repr]
  exact Nat.add_le_add_left (length_repr_le h) 2

end JsonText
