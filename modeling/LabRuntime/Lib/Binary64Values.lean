import LabRuntime.Lib.Binary64

/-! Values of binary64 up to the sign of a zero: what an operation makes of two operands does not
depend on it, and an integral value is the double of its integer. -/

namespace F64

/-- The same value, up to the sign of a zero. -/
def Same (x y : F64) : Prop := x = y ∨ x.magnitude = 0 ∧ y.magnitude = 0

@[refl] theorem Same.refl (x : F64) : Same x x := .inl rfl

theorem Same.symm {x y : F64} (h : Same x y) : Same y x := h.imp Eq.symm And.symm

theorem Same.magnitude_eq {x y : F64} (h : Same x y) : x.magnitude = y.magnitude := by
  rcases h with rfl | ⟨hx, hy⟩
  · rfl
  · rw [hx, hy]

theorem Same.isFinite_eq {x y : F64} (h : Same x y) : x.isFinite = y.isFinite := by
  rw [isFinite, isFinite, h.magnitude_eq]

theorem Same.isNan_eq {x y : F64} (h : Same x y) : x.isNan = y.isNan := by
  rw [isNan, isNan, h.magnitude_eq]

theorem Same.key_eq {x y : F64} (h : Same x y) : x.key = y.key := by
  rcases h with rfl | ⟨hx, hy⟩
  · rfl
  · simp [key, hx, hy]

theorem Same.le_iff {x y z : F64} (h : Same x y) : (z ≤ x ↔ z ≤ y) ∧ (x ≤ z ↔ y ≤ z) := by
  simp only [le_def, h.isNan_eq, h.key_eq, and_self]

/-! ### Patterns -/

theorem magnitude_lt (x : F64) : x.magnitude < 2 ^ 63 := Nat.mod_lt _ (by decide)

theorem toNat_bits (x : F64) : x.bits.toNat = (if x.sign then 2 ^ 63 else 0) + x.magnitude := by
  have hlt := x.bits.isLt
  simp only [sign, magnitude, decide_eq_true_eq]
  split_ifs <;> omega

theorem ext_pattern {x y : F64} (hs : x.sign = y.sign) (hm : x.magnitude = y.magnitude) : x = y := by
  have hbits : x.bits = y.bits := BitVec.eq_of_toNat_eq (by rw [toNat_bits, toNat_bits, hs, hm])
  cases x
  cases y
  exact congrArg mk hbits

theorem toNat_ofMagnitude (neg : Bool) {m : ℕ} (hm : m < 2 ^ 63) :
    (ofMagnitude neg m).bits.toNat = (if neg then 2 ^ 63 else 0) + m := by
  have hlt : (if neg then 2 ^ 63 else 0) + m < 2 ^ 64 := by split_ifs <;> omega
  rw [ofMagnitude, BitVec.toNat_ofNat, Nat.mod_eq_of_lt hlt]

@[simp] theorem magnitude_ofMagnitude (neg : Bool) {m : ℕ} (hm : m < 2 ^ 63) : (ofMagnitude neg m).magnitude = m := by
  rw [magnitude, toNat_ofMagnitude neg hm]
  split_ifs <;> omega

@[simp] theorem sign_ofMagnitude (neg : Bool) {m : ℕ} (hm : m < 2 ^ 63) : (ofMagnitude neg m).sign = neg := by
  rw [sign, toNat_ofMagnitude neg hm]
  cases neg <;> simp
  omega

/-! ### Rounding -/

theorem roundMagnitude_le (p inf num den : ℕ) : roundMagnitude p inf num den ≤ inf := Nat.min_le_right _ _

theorem roundMagnitude_lt (num den : ℕ) : roundMagnitude 52 infMagnitude num den < 2 ^ 63 :=
  (roundMagnitude_le ..).trans_lt (by decide)

@[simp] theorem roundMagnitude_zero (p inf den : ℕ) : roundMagnitude p inf 0 den = 0 := by
  have hup : 2 * (0 % (den * 2 ^ (Nat.log2 (0 / den) - p))) < den * 2 ^ (Nat.log2 (0 / den) - p) ∨
      2 * (0 % (den * 2 ^ (Nat.log2 (0 / den) - p))) = den * 2 ^ (Nat.log2 (0 / den) - p) ∧
        0 / (den * 2 ^ (Nat.log2 (0 / den) - p)) % 2 = 0 := by
    simp only [Nat.zero_mod, Nat.mul_zero, Nat.zero_div, and_true]
    omega
  simp only [roundMagnitude]
  rw [if_pos hup]
  simp

/-- A whole number of units does not round to nothing. -/
theorem roundMagnitude_pos {num : ℕ} (h : num ≠ 0) : roundMagnitude 52 infMagnitude num 1 ≠ 0 := by
  simp only [roundMagnitude, Nat.div_one, Nat.one_mul]
  have hpos : 0 < infMagnitude := by decide
  have hsig : 0 < num / 2 ^ (num.log2 - 52) := by
    have hpow : 2 ^ (num.log2 - 52) ≤ 2 ^ num.log2 := Nat.pow_le_pow_right (by omega) (Nat.sub_le ..)
    exact Nat.div_pos (hpow.trans (Nat.log2_self_le h)) (Nat.two_pow_pos _)
  omega

@[simp] theorem magnitude_ofUnits (neg : Bool) (num den : ℕ) :
    (ofUnits neg num den).magnitude = roundMagnitude 52 infMagnitude num den :=
  magnitude_ofMagnitude neg (roundMagnitude_lt num den)

@[simp] theorem sign_ofUnits (neg : Bool) (num den : ℕ) : (ofUnits neg num den).sign = neg :=
  sign_ofMagnitude neg (roundMagnitude_lt num den)

/-! ### Units -/

theorem absUnits_def (x : F64) :
    x.absUnits = if x.magnitude / 2 ^ 52 = 0 then x.magnitude % 2 ^ 52
      else (x.magnitude % 2 ^ 52 + 2 ^ 52) * 2 ^ (x.magnitude / 2 ^ 52 - 1) := rfl

/-- The order of magnitudes is the order of values. -/
theorem absUnits_lt {x y : F64} (h : x.magnitude < y.magnitude) : x.absUnits < y.absUnits := by
  rw [absUnits_def, absUnits_def]
  have hx := Nat.div_add_mod x.magnitude (2 ^ 52)
  have hy := Nat.div_add_mod y.magnitude (2 ^ 52)
  have hmx : x.magnitude % 2 ^ 52 < 2 ^ 52 := Nat.mod_lt _ (by decide)
  have hmy : y.magnitude % 2 ^ 52 < 2 ^ 52 := Nat.mod_lt _ (by decide)
  generalize x.magnitude / 2 ^ 52 = ex at *
  generalize y.magnitude / 2 ^ 52 = ey at *
  generalize x.magnitude % 2 ^ 52 = mx at *
  generalize y.magnitude % 2 ^ 52 = my at *
  have hle : ex ≤ ey := by
    by_contra hlt
    have : ey + 1 ≤ ex := by omega
    omega
  rcases Nat.eq_or_lt_of_le hle with rfl | hlt
  · -- one exponent
    have hm : mx < my := by omega
    split_ifs
    · exact hm
    · exact Nat.mul_lt_mul_of_pos_right (by omega) (Nat.two_pow_pos _)
  · rw [if_neg (by omega : ey ≠ 0)]
    have hpos := Nat.two_pow_pos (ey - 1)
    have hone : 1 ≤ 2 ^ (ey - 1) := hpos
    split_ifs with hzero
    · calc mx < 2 ^ 52 := hmx
        _ ≤ my + 2 ^ 52 := Nat.le_add_left ..
        _ ≤ (my + 2 ^ 52) * 2 ^ (ey - 1) := Nat.le_mul_of_pos_right _ hpos
    · -- the next binade starts where this one ends
      have hpow : 2 ^ (ey - 1) = 2 ^ (ey - ex) * 2 ^ (ex - 1) := by
        rw [← Nat.pow_add]
        congr 1
        omega
      have htwo : 2 ^ 1 ≤ 2 ^ (ey - ex) := Nat.pow_le_pow_right Nat.two_pos (by omega)
      rw [hpow, ← Nat.mul_assoc]
      refine Nat.mul_lt_mul_of_pos_right ?_ (Nat.two_pow_pos _)
      calc mx + 2 ^ 52 < 2 ^ 52 * 2 := by omega
        _ ≤ (my + 2 ^ 52) * 2 ^ (ey - ex) := Nat.mul_le_mul (Nat.le_add_left ..) htwo

theorem magnitude_of_absUnits {x y : F64} (h : x.absUnits = y.absUnits) : x.magnitude = y.magnitude := by
  rcases Nat.lt_trichotomy x.magnitude y.magnitude with hlt | heq | hgt
  · exact absurd (absUnits_lt hlt) (by omega)
  · exact heq
  · exact absurd (absUnits_lt hgt) (by omega)

theorem absUnits_of_magnitude {x y : F64} (h : x.magnitude = y.magnitude) : x.absUnits = y.absUnits := by
  rw [absUnits_def, absUnits_def, h]

theorem absUnits_zero {x : F64} (h : x.magnitude = 0) : x.absUnits = 0 := by
  rw [absUnits_def, h]
  rfl

theorem magnitude_zero {x : F64} (h : x.absUnits = 0) : x.magnitude = 0 := by
  by_contra hne
  have hlt : (ofMagnitude false 0).absUnits < x.absUnits :=
    absUnits_lt (by rw [magnitude_ofMagnitude false (by decide)]; omega)
  omega

theorem natAbs_units (x : F64) : x.units.natAbs = x.absUnits := by
  rw [units]
  split_ifs <;> simp

@[simp] theorem magnitude_neg (x : F64) : x.neg.magnitude = x.magnitude := magnitude_ofMagnitude _ x.magnitude_lt

@[simp] theorem sign_neg (x : F64) : x.neg.sign = !x.sign := sign_ofMagnitude _ x.magnitude_lt

theorem units_neg (x : F64) : x.neg.units = -x.units := by
  have habs : x.neg.absUnits = x.absUnits := absUnits_of_magnitude x.magnitude_neg
  rw [units, units, habs, sign_neg]
  cases x.sign <;> simp

theorem Same.units_eq {x y : F64} (h : Same x y) : x.units = y.units := by
  rcases h with rfl | ⟨hx, hy⟩
  · rfl
  · simp [units, absUnits_zero hx, absUnits_zero hy]

/-! ### Operations -/

theorem isFinite_of_magnitude_zero {x : F64} (h : x.magnitude = 0) : x.isFinite = true := by
  rw [isFinite, h]
  decide

theorem mul_finite {x y : F64} (hx : x.isFinite = true) (hy : y.isFinite = true) :
    x.mul y = ofUnits (x.sign != y.sign) (x.absUnits * y.absUnits) (2 ^ 1074) := by
  rw [mul, isNan_of_isFinite hx, isNan_of_isFinite hy, hx, hy, if_neg (by decide), if_neg (by decide)]

theorem add_finite {x y : F64} (hx : x.isFinite = true) (hy : y.isFinite = true) :
    x.add y = ofUnits (if x.units + y.units = 0 then x.sign && y.sign else decide (x.units + y.units < 0))
      (x.units + y.units).natAbs 1 := by
  simp [add, isNan_of_isFinite hx, isNan_of_isFinite hy, hx, hy]

/-- A product does not see the sign of a zero. -/
theorem Same.mul {x x' y y' : F64} (hx : Same x x') (hy : Same y y') (hfx : x.isFinite = true) (hfy : y.isFinite = true) :
    Same (x.mul y) (x'.mul y') := by
  have hfx' := hx.isFinite_eq ▸ hfx
  have hfy' := hy.isFinite_eq ▸ hfy
  rcases hx with rfl | ⟨hx, hx'⟩
  · rcases hy with rfl | ⟨hy, hy'⟩
    · rfl
    · refine .inr ⟨?_, ?_⟩ <;> rw [mul_finite hfx ‹_›, magnitude_ofUnits]
      · rw [absUnits_zero hy, Nat.mul_zero, roundMagnitude_zero]
      · rw [absUnits_zero hy', Nat.mul_zero, roundMagnitude_zero]
  · refine .inr ⟨?_, ?_⟩
    · rw [mul_finite hfx hfy, magnitude_ofUnits, absUnits_zero hx, Nat.zero_mul, roundMagnitude_zero]
    · rw [mul_finite hfx' hfy', magnitude_ofUnits, absUnits_zero hx', Nat.zero_mul, roundMagnitude_zero]

theorem Same.add_finite {x x' y y' : F64} (hx : Same x x') (hy : Same y y') (hfx : x.isFinite = true) (hfy : y.isFinite = true) :
    Same (x.add y) (x'.add y') := by
  have hfx' := hx.isFinite_eq ▸ hfx
  have hfy' := hy.isFinite_eq ▸ hfy
  rw [F64.add_finite hfx hfy, F64.add_finite hfx' hfy', hx.units_eq, hy.units_eq]
  by_cases hsum : x'.units + y'.units = 0
  · rw [hsum]
    refine .inr ⟨?_, ?_⟩ <;> rw [magnitude_ofUnits, Int.natAbs_zero, roundMagnitude_zero]
  · rw [if_neg hsum, if_neg hsum]

/-- What is not finite has one pattern. -/
theorem Same.eq_of_not_finite {x y : F64} (h : Same x y) (hx : ¬ x.isFinite = true) : x = y := by
  rcases h with h | ⟨hzero, -⟩
  · exact h
  · exact absurd (isFinite_of_magnitude_zero hzero) hx

/-- A sum does not see the sign of a zero. -/
theorem Same.add {x x' y y' : F64} (hx : Same x x') (hy : Same y y') : Same (x.add y) (x'.add y') := by
  by_cases hfx : x.isFinite = true
  · by_cases hfy : y.isFinite = true
    · exact hx.add_finite hy hfx hfy
    · obtain rfl := hy.eq_of_not_finite hfy
      have hfx' := hx.isFinite_eq ▸ hfx
      refine .inl ?_
      simp only [F64.add, isNan_of_isFinite hfx, isNan_of_isFinite hfx', hfx, hfx', hfy, Bool.false_or, Bool.not_true,
        Bool.false_eq_true, if_false, Bool.not_false, if_true]
  · obtain rfl := hx.eq_of_not_finite hfx
    refine .inl ?_
    by_cases hfy : y.isFinite = true
    · have hfy' := hy.isFinite_eq ▸ hfy
      simp only [F64.add, isNan_of_isFinite hfy, isNan_of_isFinite hfy', hfx, hfy, hfy', Bool.or_false, Bool.not_true,
        Bool.false_and, Bool.false_eq_true, if_false, Bool.not_false, if_true]
    · rw [hy.eq_of_not_finite hfy]

/-- Values that compare equal. -/
theorem same_of_beq {x y : F64} (h : (x == y) = true) : Same x y := by
  obtain ⟨-, -, hkey⟩ := (beq_iff x y).1 h
  unfold key at hkey
  by_cases hzero : x.magnitude = 0
  · refine .inr ⟨hzero, ?_⟩
    split_ifs at hkey <;> omega
  · refine .inl (ext_pattern ?_ ?_)
    · cases hx : x.sign <;> cases hy : y.sign <;> simp only [hx, hy, if_true, Bool.false_eq_true, if_false] at hkey ⊢ <;> omega
    · split_ifs at hkey <;> omega

/-! ### Integral values -/

/-- Where a finite value has no fraction, it is the double of its integer part. -/
theorem same_ofInt_toInt {x : F64} (hx : x.isFinite = true) (h : (x.fract == zero) = true) : Same x (ofInt x.toInt) := by
  have hzero : x.fract.magnitude = 0 := by
    have hkey := ((beq_iff _ _).1 h).2.2
    have hz : zero.key = 0 := by decide
    rw [hz, key] at hkey
    split_ifs at hkey <;> omega
  have htrunc : x.trunc.isFinite = true := by
    cases hf : x.trunc.isFinite with
    | true => rfl
    | false =>
      -- an infinite summand would be the sum
      have hneg : x.trunc.neg.isFinite = false := by rw [isFinite, magnitude_neg, ← isFinite, hf]
      have hpos : infMagnitude ≤ x.trunc.neg.magnitude := by simpa [isFinite] using hneg
      have hnot : ¬ infMagnitude ≤ x.fract.magnitude := by rw [hzero]; decide
      refine absurd ?_ hnot
      rw [fract, sub, add, isNan_of_isFinite hx, Bool.false_or]
      by_cases hnan : x.trunc.neg.isNan = true
      · rw [if_pos hnan]
        decide +kernel
      · rw [if_neg hnan, if_neg (by simp [hx]), if_pos (by simp [hneg])]
        exact hpos
  have hneg : x.trunc.neg.isFinite = true := by rw [isFinite, magnitude_neg, ← isFinite, htrunc]
  have hunits : x.units = x.trunc.units := by
    rw [fract, sub, add_finite hx hneg, magnitude_ofUnits, units_neg] at hzero
    by_contra hne
    exact roundMagnitude_pos (by omega) hzero
  have hmag : x.trunc.magnitude = (ofInt x.toInt).magnitude := by
    rw [trunc, if_pos hx, ofInt, magnitude_ofUnits, magnitude_ofUnits]
    rw [toInt]
    generalize x.absUnits / 2 ^ 1074 = whole
    cases x.sign <;> simp only [if_true, Bool.false_eq_true, if_false, Int.natAbs_neg, Int.natAbs_natCast]
  have hsame : x.magnitude = (ofInt x.toInt).magnitude := by
    rw [← hmag]
    refine magnitude_of_absUnits ?_
    rw [← natAbs_units, ← natAbs_units, hunits]
  by_cases hm : x.magnitude = 0
  · exact .inr ⟨hm, hsame ▸ hm⟩
  · refine .inl (ext_pattern ?_ hsame)
    have hpos : x.absUnits / 2 ^ 1074 ≠ 0 := by
      intro hk
      have hround : (ofInt x.toInt).magnitude = 0 := by
        rw [← hmag, trunc, if_pos hx, magnitude_ofUnits, hk, Nat.zero_mul, roundMagnitude_zero]
      exact hm (hsame.trans hround)
    rw [ofInt, sign_ofUnits, toInt]
    cases x.sign with
    | true => simp only [if_true]; exact (decide_eq_true (by omega)).symm
    | false => simp only [Bool.false_eq_true, if_false]; exact (decide_eq_false (by omega)).symm

end F64
