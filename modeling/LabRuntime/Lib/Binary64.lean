import Mathlib.Data.Nat.Log
import Mathlib.Tactic

/-! IEEE 754 binary64 as bit patterns. Every finite double is an integer multiple of
`2 ^ -1074`, so a finite value is carried as that integer (`units`) and every operation is
exact integer arithmetic followed by one rounding to nearest, ties to even. -/

/-- A binary64 bit pattern. -/
structure F64 where
  bits : BitVec 64
  deriving DecidableEq, Repr

namespace F64

def sign (x : F64) : Bool := decide (2 ^ 63 ≤ x.bits.toNat)

/-- The bit pattern without its sign; the order of magnitudes is the order of values. -/
def magnitude (x : F64) : ℕ := x.bits.toNat % 2 ^ 63

/-- The magnitude of an infinity; larger magnitudes are NaNs. -/
def infMagnitude : ℕ := 2047 * 2 ^ 52

def isNan (x : F64) : Bool := decide (infMagnitude < x.magnitude)

def isFinite (x : F64) : Bool := decide (x.magnitude < infMagnitude)

/-- Order key of a value that is not a NaN; both zeros have key 0. -/
def key (x : F64) : ℤ := if x.sign then -(x.magnitude : ℤ) else x.magnitude

instance : LE F64 := ⟨fun x y => x.isNan = false ∧ y.isNan = false ∧ x.key ≤ y.key⟩
instance : LT F64 := ⟨fun x y => x.isNan = false ∧ y.isNan = false ∧ x.key < y.key⟩
instance : BEq F64 := ⟨fun x y => !x.isNan && !y.isNan && x.key == y.key⟩

theorem le_def (x y : F64) : x ≤ y ↔ x.isNan = false ∧ y.isNan = false ∧ x.key ≤ y.key := Iff.rfl
theorem lt_def (x y : F64) : x < y ↔ x.isNan = false ∧ y.isNan = false ∧ x.key < y.key := Iff.rfl

instance (x y : F64) : Decidable (x ≤ y) := decidable_of_iff _ (le_def x y).symm
instance (x y : F64) : Decidable (x < y) := decidable_of_iff _ (lt_def x y).symm

theorem beq_iff (x y : F64) : (x == y) = true ↔ x.isNan = false ∧ y.isNan = false ∧ x.key = y.key := by
  show (!x.isNan && !y.isNan && x.key == y.key) = true ↔ _
  simp [and_assoc]

theorem isNan_of_isFinite {x : F64} (h : x.isFinite = true) : x.isNan = false := by
  simp only [isFinite, decide_eq_true_eq] at h
  simp only [isNan, decide_eq_false_iff_not]
  omega

theorem beq_self {x : F64} (h : x.isNan = false) : (x == x) = true := (beq_iff x x).2 ⟨h, h, rfl⟩

theorem beq_symm {x y : F64} (h : (x == y) = true) : (y == x) = true := by
  obtain ⟨hx, hy, e⟩ := (beq_iff x y).1 h
  exact (beq_iff y x).2 ⟨hy, hx, e.symm⟩

theorem beq_trans {x y z : F64} (h1 : (x == y) = true) (h2 : (y == z) = true) : (x == z) = true := by
  obtain ⟨hx, -, e1⟩ := (beq_iff x y).1 h1
  obtain ⟨-, hz, e2⟩ := (beq_iff y z).1 h2
  exact (beq_iff x z).2 ⟨hx, hz, e1.trans e2⟩

theorem le_trans {x y z : F64} (h1 : x ≤ y) (h2 : y ≤ z) : x ≤ z :=
  ⟨h1.1, h2.2.1, Int.le_trans h1.2.2 h2.2.2⟩

theorem le_of_beq_of_le {x y z : F64} (h1 : (x == y) = true) (h2 : y ≤ z) : x ≤ z := by
  obtain ⟨hx, -, e⟩ := (beq_iff x y).1 h1
  exact ⟨hx, h2.2.1, e ▸ h2.2.2⟩

theorem le_of_le_of_beq {x y z : F64} (h1 : z ≤ y) (h2 : (x == y) = true) : z ≤ x := by
  obtain ⟨hx, -, e⟩ := (beq_iff x y).1 h2
  exact ⟨h1.1, hx, e ▸ h1.2.2⟩

/-! ### Construction and rounding -/

def ofMagnitude (neg : Bool) (m : ℕ) : F64 := ⟨BitVec.ofNat 64 ((if neg then 2 ^ 63 else 0) + m)⟩

def zero : F64 := ofMagnitude false 0
def nan : F64 := ofMagnitude false (infMagnitude + 2 ^ 51)
def infinity (neg : Bool) : F64 := ofMagnitude neg infMagnitude

/-- The magnitude of `num / den` rounded to nearest, ties to even, in a binary format with
`p` stored significand bits. `num / den` counts units of the last subnormal place, where the
pattern `shift * 2 ^ p + sig` has value `sig * 2 ^ shift`; a carry out of `sig` lands in the
next exponent by itself. -/
def roundMagnitude (p inf num den : ℕ) : ℕ :=
  let shift := (num / den).log2 - p
  let step := den * 2 ^ shift
  let sig := num / step
  let rest := 2 * (num % step)
  let up := if rest < step ∨ (rest = step ∧ sig % 2 = 0) then 0 else 1
  min (shift * 2 ^ p + (sig + up)) inf

/-- `num / den` units of `2 ^ -1074`, rounded. -/
def ofUnits (neg : Bool) (num den : ℕ) : F64 :=
  ofMagnitude neg (roundMagnitude 52 infMagnitude num den)

/-- Absolute value of a finite double in units of `2 ^ -1074`. -/
def absUnits (x : F64) : ℕ :=
  let e := x.magnitude / 2 ^ 52
  let m := x.magnitude % 2 ^ 52
  if e = 0 then m else (m + 2 ^ 52) * 2 ^ (e - 1)

def units (x : F64) : ℤ := if x.sign then -(x.absUnits : ℤ) else x.absUnits

def ofInt (i : ℤ) : F64 := ofUnits (decide (i < 0)) (i.natAbs * 2 ^ 1074) 1

/-- A decimal constant of the source, `num / den`. -/
def ofRatio (i : ℤ) (den : ℕ) : F64 := ofUnits (decide (i < 0)) (i.natAbs * 2 ^ 1074) den

/-! ### Arithmetic -/

def neg (x : F64) : F64 := ofMagnitude (!x.sign) x.magnitude
def abs (x : F64) : F64 := ofMagnitude false x.magnitude

def add (x y : F64) : F64 :=
  if x.isNan || y.isNan then nan
  else if !x.isFinite then (if !y.isFinite && x.sign != y.sign then nan else x)
  else if !y.isFinite then y
  else
    let sum := x.units + y.units
    let negative := if sum = 0 then x.sign && y.sign else decide (sum < 0)
    ofUnits negative sum.natAbs 1

def sub (x y : F64) : F64 := x.add y.neg

def mul (x y : F64) : F64 :=
  let negative := x.sign != y.sign
  if x.isNan || y.isNan then nan
  else if !x.isFinite || !y.isFinite then
    (if x.magnitude = 0 ∨ y.magnitude = 0 then nan else infinity negative)
  else ofUnits negative (x.absUnits * y.absUnits) (2 ^ 1074)

def div (x y : F64) : F64 :=
  let negative := x.sign != y.sign
  if x.isNan || y.isNan then nan
  else if !x.isFinite then (if !y.isFinite then nan else infinity negative)
  else if !y.isFinite then ofMagnitude negative 0
  else if y.magnitude = 0 then (if x.magnitude = 0 then nan else infinity negative)
  else ofUnits negative (x.absUnits * 2 ^ 1074) y.absUnits

/-- Round toward zero to an integral value. -/
def trunc (x : F64) : F64 :=
  if x.isFinite then ofUnits x.sign (x.absUnits / 2 ^ 1074 * 2 ^ 1074) 1 else x

def fract (x : F64) : F64 := x.sub x.trunc

/-- The integer part of a finite value, toward zero. -/
def toInt (x : F64) : ℤ :=
  if x.sign then -((x.absUnits / 2 ^ 1074 : ℕ) : ℤ) else (x.absUnits / 2 ^ 1074 : ℕ)

/-- Saturating conversion to an integer in `lo..hi`; a NaN becomes 0. -/
def toIntSat (lo hi : ℤ) (x : F64) : ℤ :=
  if x.isNan then 0
  else if !x.isFinite then (if x.sign then lo else hi)
  else max lo (min hi x.toInt)

def clamp (x lo hi : F64) : F64 := if x < lo then lo else if hi < x then hi else x

/-- `f64::min`: the other operand where one is a NaN. -/
def min' (x y : F64) : F64 := if x.isNan then y else if y.isNan then x else if y < x then y else x

/-- `f64::signum`: a NaN stays, both zeros keep their sign as one. -/
def signum (x : F64) : F64 := if x.isNan then nan else if x.sign then ofInt (-1) else ofInt 1

/-! ### binary32 interchange -/

def f32Infinity : ℕ := 255 * 2 ^ 23

/-- The exact double of a binary32 pattern. -/
def ofF32 (pattern : ℕ) : F64 :=
  let negative := decide (2 ^ 31 ≤ pattern)
  let m := pattern % 2 ^ 31
  if f32Infinity < m then nan
  else if m = f32Infinity then infinity negative
  else
    let e := m / 2 ^ 23
    let u := if e = 0 then m else (m % 2 ^ 23 + 2 ^ 23) * 2 ^ (e - 1)
    ofUnits negative (u * 2 ^ 925) 1

/-- Rounding to binary32 (`as f32`), as a pattern. -/
def toF32 (x : F64) : ℕ :=
  let s := if x.sign then 2 ^ 31 else 0
  if x.isNan then s + f32Infinity + 2 ^ 22
  else if !x.isFinite then s + f32Infinity
  else s + roundMagnitude 23 f32Infinity x.absUnits (2 ^ 925)

example : (ofRatio 1 10).bits = 0x3fb999999999999a#64 := by decide +kernel
example : ((ofInt 1234).mul (ofRatio 1 10)).bits = 0x405ed9999999999a#64 := by decide +kernel
example : ((ofInt 1).div (ofInt 3)).bits = 0x3fd5555555555555#64 := by decide +kernel

end F64
