import LabRuntime.Lib.Binary64Values
import LabRuntime.Simple.Plans

/-! A written scalar and its readback. An integer field decodes to the integer that was encoded; the
engineering value behind it went through the scale twice, and each step rounds. -/

namespace LabRuntime

open Checks

/-! ### Bytes of an integer -/

theorem leBytes_succ (w n : ℕ) : leBytes (w + 1) n = n.toUInt8 :: leBytes w (n / 256) := by
  simp only [leBytes, List.range_succ_eq_map, List.map_cons, Nat.pow_zero, Nat.div_one, List.map_map, List.cons.injEq,
    true_and]
  refine List.map_congr_left fun i _ => ?_
  simp only [Function.comp_apply, Nat.succ_eq_add_one]
  rw [Nat.pow_succ, Nat.mul_comm, Nat.div_div_eq_div_mul]

theorem ofLeBytes_leBytes {w n : ℕ} (h : n < 256 ^ w) : ofLeBytes (leBytes w n) = n := by
  induction w generalizing n with
  | zero =>
    have hn : n = 0 := by simpa using h
    rw [hn]
    rfl
  | succ w ih =>
    have hdiv : n / 256 < 256 ^ w := by
      rw [Nat.pow_succ] at h
      exact Nat.div_lt_of_lt_mul (by rw [Nat.mul_comm]; exact h)
    have hbyte : n.toUInt8.toNat = n % 256 := by simp
    rw [leBytes_succ]
    calc ofLeBytes (n.toUInt8 :: leBytes w (n / 256)) = n.toUInt8.toNat + 256 * ofLeBytes (leBytes w (n / 256)) := rfl
      _ = n % 256 + 256 * (n / 256) := by rw [hbyte, ih hdiv]
      _ = n := Nat.mod_add_div n 256

namespace SimpleScalarEncoding

variable {e : SimpleScalarEncoding}

@[simp] theorem order_order (bytes : List UInt8) : e.order (e.order bytes) = bytes := by
  unfold order
  split_ifs <;> simp

/-- The integer that a field stands for. -/
def fieldInteger (e : SimpleScalarEncoding) (n : ℕ) : ℤ :=
  if e.kind = .signed ∧ 2 ^ (8 * e.width) / 2 ≤ n then (n : ℤ) - 2 ^ (8 * e.width) else n

theorem encodeInteger_ok {value : ℤ} {n : ℕ} (h : e.encodeInteger value = some n) :
    n < 256 ^ e.width ∧ e.fieldInteger n = value := by
  have hpow : (256 : ℕ) ^ e.width = 2 ^ (8 * e.width) := by rw [Nat.pow_mul]
  have hpos : 0 < 2 ^ (8 * e.width) := Nat.two_pow_pos _
  have heven : 2 ^ (8 * e.width) % 2 = 0 := by cases e <;> rfl
  have hcast : (2 : ℤ) ^ (8 * e.width) = ((2 ^ (8 * e.width) : ℕ) : ℤ) := by norm_cast
  rw [hpow]
  unfold encodeInteger at h
  unfold fieldInteger
  rw [hcast] at h ⊢
  generalize 2 ^ (8 * e.width) = bound at *
  by_cases hkind : e.kind = .signed
  · simp only [hkind, if_true, true_and, Option.ite_none_right_eq_some, Option.some.injEq] at h ⊢
    obtain ⟨⟨hlo, hhi⟩, rfl⟩ := h
    have hmod := Int.emod_nonneg value (show (bound : ℤ) ≠ 0 by omega)
    have hlt := Int.emod_lt_of_pos value (show 0 < (bound : ℤ) by omega)
    rcases lt_or_ge value 0 with hneg | hpos'
    · -- two's complement: the value plus the bound
      have hvalue : value % bound = value + bound := by
        rw [← Int.add_emod_right]
        exact Int.emod_eq_of_lt (by omega) (by omega)
      rw [hvalue] at hmod hlt ⊢
      refine ⟨by omega, ?_⟩
      rw [if_pos (by omega)]
      omega
    · have hvalue : value % bound = value := Int.emod_eq_of_lt hpos' (by omega)
      rw [hvalue]
      refine ⟨by omega, ?_⟩
      rw [if_neg (by omega)]
      omega
  · simp only [hkind, if_false, false_and, Option.ite_none_right_eq_some, Option.some.injEq] at h ⊢
    obtain ⟨⟨hlo, hhi⟩, rfl⟩ := h
    omega

/-- A field of the width decodes to the integer it stands for. -/
theorem decode_integer {n : ℕ} (hkind : e.kind ≠ .float) (hn : n < 256 ^ e.width) :
    e.decode (e.order (leBytes e.width n)) =
      if (F64.ofInt (e.fieldInteger n)).isFinite then some (F64.ofInt (e.fieldInteger n)) else none := by
  unfold decode
  rw [if_neg (by simp [order_length, leBytes_length])]
  simp only [order_order, ofLeBytes_leBytes hn]
  have hvalue : e.fieldInteger n = match e.kind with
      | .signed => if n < 2 ^ (8 * e.width) / 2 then (n : ℤ) else (n : ℤ) - (2 ^ (8 * e.width) : ℕ)
      | _ => n := by
    unfold fieldInteger
    cases hk : e.kind with
    | signed =>
      simp only [true_and]
      by_cases hlow : n < 2 ^ (8 * e.width) / 2
      · rw [if_pos hlow, if_neg (by omega)]
      · rw [if_neg hlow, if_pos (by omega)]
        norm_cast
    | unsigned => simp
    | float => exact absurd hk hkind
  rw [hvalue]
  cases hk : e.kind with
  | signed => rfl
  | unsigned => rfl
  | float => exact absurd hk hkind

/-- An exact integral raw value in the encoding's range is read back as itself. -/
theorem decode_encode {engineering scale offset : F64} {raw : List UInt8} (hkind : e.kind ≠ .float)
    (h : e.encode engineering scale offset = some raw) :
    ∃ value, e.decode raw = some value ∧ F64.Same ((engineering.sub offset).div scale) value ∧
      ((engineering.sub offset).div scale).isFinite = true ∧ raw.length = e.width := by
  unfold encode at h
  rw [Option.ite_none_left_eq_some] at h
  obtain ⟨-, h⟩ := h
  generalize (engineering.sub offset).div scale = quotient at *
  simp only [Option.ite_none_left_eq_some, Bool.not_eq_true', Bool.not_eq_false] at h
  obtain ⟨hfinite, h⟩ := h
  cases hint : (exactInteger quotient).bind e.encodeInteger with
  | none =>
    rw [hint] at h
    cases h
  | some n =>
  rw [hint] at h
  obtain rfl := Option.some.inj h
  obtain ⟨value, hexact, hn⟩ := Option.bind_eq_some_iff.1 hint
  obtain ⟨hlt, hvalue⟩ := encodeInteger_ok hn
  have hinteger : (quotient.fract == F64.zero) = true ∧ quotient.toInt = value := by
    unfold exactInteger at hexact
    rw [Option.ite_none_left_eq_some] at hexact
    obtain ⟨hno, hexact⟩ := hexact
    simp only [Bool.or_eq_true, Bool.not_eq_true', not_or, Bool.not_eq_false] at hno
    exact ⟨hno.1.1, Option.some.inj hexact⟩
  have hsame := F64.same_ofInt_toInt hfinite hinteger.1
  rw [hinteger.2, ← hvalue] at hsame
  refine ⟨F64.ofInt (e.fieldInteger n), ?_, hsame, hfinite, by rw [order_length, leBytes_length]⟩
  rw [decode_integer hkind hlt, if_pos (hsame.isFinite_eq ▸ hfinite)]

theorem normalizeRaw_integer {bytes : List UInt8} (hkind : e.kind ≠ .float) (h : bytes.length = e.width) :
    e.normalizeRaw bytes = some bytes := by
  unfold normalizeRaw
  rw [if_neg (by simp [h])]
  cases hk : e.kind with
  | float => exact absurd hk hkind
  | signed => rfl
  | unsigned => rfl

end SimpleScalarEncoding

/-! ### The readback of a written value -/

/-- What a written value reads back as: through offset and scale, and back. -/
def SimpleWritePlan.carried (p : SimpleWritePlan) (engineering : F64) : F64 :=
  (((engineering.sub p.engineeringOffset).div p.scale).mul p.scale).add p.engineeringOffset

/-- A response of the exact length with its evidence in place and `field` in the extracted bytes. -/
structure SimpleResponsePlan.Carries (p : SimpleResponsePlan) (response field : List UInt8) : Prop where
  exact : response.length = p.exactLength
  comparisons : p.matches.all (fun comparison => comparison.holds response) = true
  checksum : p.checksum.all (fun checksum => checksum.holds response) = true
  field : slice response p.extractOffset p.encoding.width = some field

namespace SimpleResponsePlan

variable {p : SimpleResponsePlan} {response field : List UInt8}

theorem slice_length {bytes part : List UInt8} {start length : ℕ} (h : slice bytes start length = some part) :
    part.length = length := by
  unfold slice at h
  rw [Option.ite_none_right_eq_some] at h
  obtain ⟨hle, h⟩ := h
  rw [← Option.some.inj h, List.length_take, List.length_drop]
  omega

theorem decodeScalar_carries (h : p.Carries response field) (hkind : p.encoding.kind ≠ .float) :
    p.decodeScalar response = (p.encoding.decode field).bind fun raw =>
      if ((raw.mul p.scale).add p.engineeringOffset).isFinite then some ((raw.mul p.scale).add p.engineeringOffset, field)
      else none := by
  unfold decodeScalar
  rw [if_neg (by simp [h.exact, h.comparisons, h.checksum]), h.field]
  simp only [Option.bind_eq_bind, Option.bind_some]
  rw [SimpleScalarEncoding.normalizeRaw_integer hkind (slice_length h.field), Option.bind_some]

/-- A field that differs is never taken for the written one. -/
theorem verifyReadback_differs (descriptor : ParameterDescriptor) {raw : List UInt8} (h : p.Carries response field)
    (hkind : p.encoding.kind ≠ .float) (hne : field ≠ raw) :
    p.verifyReadback response descriptor raw = none ∨
      ∃ value, p.verifyReadback response descriptor raw = some (value, false) := by
  unfold verifyReadback
  rw [decodeScalar_carries h hkind]
  cases p.encoding.decode field with
  | none => exact .inl rfl
  | some number =>
    simp only [Option.bind_some]
    split_ifs
    · refine .inr ⟨(number.mul p.scale).add p.engineeringOffset, ?_⟩
      have hmatched : (field == raw) = false := beq_false_of_ne hne
      simp [hmatched]
    · exact .inl rfl

/-- The written field verifies where its engineering value passes the range check. -/
theorem verifyReadback_written (descriptor : ParameterDescriptor) {raw : List UInt8} {number : F64}
    (h : p.Carries response raw) (hkind : p.encoding.kind ≠ .float) (hdecode : p.encoding.decode raw = some number) :
    (∃ value, p.verifyReadback response descriptor raw = some (value, true)) ↔
      descriptor.valueSpec.validate (.float ((number.mul p.scale).add p.engineeringOffset)) = .ok () := by
  unfold verifyReadback
  rw [decodeScalar_carries h hkind, hdecode, Option.bind_some]
  by_cases hfinite : ((number.mul p.scale).add p.engineeringOffset).isFinite = true
  · rw [if_pos hfinite]
    cases hrange : descriptor.valueSpec.validate (.float ((number.mul p.scale).add p.engineeringOffset)) with
    | ok _ => simp [hrange]
    | error error => simp [hrange]
  · rw [if_neg hfinite]
    constructor
    · rintro ⟨_, hnone⟩
      cases hnone
    · intro hrange
      obtain ⟨_, _, _, _, _, hvalue, _⟩ := validate_float_ok hrange
      exact absurd hvalue hfinite

end SimpleResponsePlan

theorem validateFloat_iff {lo hi value : F64} : (ValueSpec.float lo hi).validate (.float value) = .ok () ↔
    lo.isFinite = true ∧ hi.isFinite = true ∧ lo ≤ value ∧ value ≤ hi := by
  constructor
  · intro h
    obtain ⟨lo', hi', hspec, hlo, hhi, -, hle, hge⟩ := validate_float_ok h
    obtain ⟨rfl, rfl⟩ := ValueSpec.float.inj hspec
    exact ⟨hlo, hhi, hle, hge⟩
  · rintro ⟨hlo, hhi, hle, hge⟩
    exact validate_float_of_bounds hlo hhi (isFinite_of_bounds hlo hhi hle hge) hle hge

theorem SimpleWritePlan.readback_scaled {plan : SimpleWritePlan} {readback : SimpleReadPlan} (h : plan.validate = .ok ())
    (hreadback : plan.readback = some readback) : readback.response.encoding = plan.encoding ∧
      F64.Same plan.scale readback.response.scale ∧ F64.Same plan.engineeringOffset readback.response.engineeringOffset ∧
      plan.scale.isFinite = true := by
  unfold SimpleWritePlan.validate at h
  rcases ite_eq_iff.1 h with ⟨-, h⟩ | ⟨hplan, h⟩
  · obtain ⟨_, h, -⟩ := bind_ok.1 h
    cases h
  simp only [not_or, Bool.not_eq_false] at hplan
  obtain ⟨-, -, hscale, -⟩ := hplan
  obtain ⟨length, -, h⟩ := bind_ok.1 h
  rcases ite_eq_iff.1 h with ⟨-, h⟩ | ⟨-, h⟩
  · obtain ⟨_, h, -⟩ := bind_ok.1 h
    cases h
  obtain ⟨_, -, h⟩ := bind_ok.1 h
  rw [hreadback] at h
  rcases ite_eq_iff.1 h with ⟨-, h⟩ | ⟨-, h⟩
  · obtain ⟨_, h, -⟩ := bind_ok.1 h
    cases h
  obtain ⟨_, -, h⟩ := bind_ok.1 h
  rcases ite_eq_iff.1 h with ⟨-, h⟩ | ⟨hscaled, -⟩
  · cases h
  simp only [ne_eq, not_or, not_not, Bool.not_eq_false] at hscaled
  obtain ⟨hencoding, hscales, hoffsets⟩ := hscaled
  exact ⟨hencoding, (F64.same_of_beq hscales).symm, (F64.same_of_beq hoffsets).symm, hscale⟩

/-- A readback that carries the written bytes verifies exactly where the value, carried through the
scale and back, is still inside the descriptor's range; other bytes never verify. -/
theorem readback_verifies_iff {plan : SimpleWritePlan} {readback : SimpleReadPlan} {descriptor : ParameterDescriptor}
    {lo hi engineering : F64} {request raw response field : List UInt8} (hvalid : plan.validate = .ok ())
    (hreadback : plan.readback = some readback) (hkind : plan.encoding.kind ≠ .float)
    (hspec : descriptor.valueSpec = .float lo hi) (hencode : plan.encode engineering = some (request, raw))
    (hcarries : readback.response.Carries response field) :
    ((field = raw → ∃ value, readback.response.verifyReadback response descriptor raw = some (value, true)) ∧
      (field ≠ raw → readback.response.verifyReadback response descriptor raw = none ∨
        ∃ value, readback.response.verifyReadback response descriptor raw = some (value, false))) ↔
    (field = raw → lo.isFinite = true ∧ hi.isFinite = true ∧ lo ≤ plan.carried engineering ∧
      plan.carried engineering ≤ hi) := by
  obtain ⟨hencoding, hscale, hoffset, hfinite⟩ := SimpleWritePlan.readback_scaled hvalid hreadback
  have hkind' : readback.response.encoding.kind ≠ .float := by
    rw [hencoding]
    exact hkind
  have hraw : plan.encoding.encode engineering plan.scale plan.engineeringOffset = some raw := by
    obtain ⟨raw', hraw, h⟩ := Option.bind_eq_some_iff.1 hencode
    obtain ⟨request', -, h⟩ := Option.bind_eq_some_iff.1 h
    rw [Option.ite_none_left_eq_some] at h
    obtain ⟨-, rfl⟩ := Prod.mk.inj (Option.some.inj h.2)
    exact hraw
  obtain ⟨number, hdecode, hnumber, hquotient, -⟩ := SimpleScalarEncoding.decode_encode hkind hraw
  have hsame : F64.Same (plan.carried engineering)
      ((number.mul readback.response.scale).add readback.response.engineeringOffset) :=
    (hnumber.mul hscale hquotient hfinite).add hoffset
  by_cases hfield : field = raw
  · subst hfield
    rw [← hencoding] at hdecode
    have hverify := SimpleResponsePlan.verifyReadback_written descriptor hcarries hkind' hdecode
    rw [hspec, validateFloat_iff, ← hsame.le_iff.1, ← hsame.le_iff.2] at hverify
    constructor
    · rintro ⟨hwritten, -⟩ hfield
      exact hverify.1 (hwritten hfield)
    · intro hrange
      exact ⟨fun hfield => hverify.2 (hrange hfield), fun hfield => absurd rfl hfield⟩
  · have hdiffers := SimpleResponsePlan.verifyReadback_differs descriptor hcarries hkind' hfield
    exact ⟨fun _ h => absurd h hfield, fun _ => ⟨fun h => absurd h hfield, fun _ => hdiffers⟩⟩

/-! ### A step of a tenth -/

def tenthReadback : SimpleReadPlan :=
  { request := [2]
    response := {
      exactLength := 3, «matches» := [⟨.literal, 0, [3]⟩], extractOffset := 1, encoding := .u16Be
      scale := F64.ofRatio 1 10, engineeringOffset := F64.zero, checksum := none } }

def tenthPlan : SimpleWritePlan :=
  { request := [.literal [1], .value], encoding := .u16Be, scale := F64.ofRatio 1 10, engineeringOffset := F64.zero
    ack := { exactLength := 1, «matches» := [⟨.literal, 0, [6]⟩], checksum := none }, readback := some tenthReadback }

def tenthDescriptor (max : F64) : ParameterDescriptor :=
  { id := 1, name := "setpoint", valueSpec := .float F64.zero max, unit := .unitless, access := .readWrite
    role := .actuator, writeEffect := .outputAffecting, signal := none }

/-- 3.4 is written as 34 steps of a tenth, which read back as 3.4000000000000004. -/
theorem boundary_readback_fails : ¬ ∀ (plan : SimpleWritePlan) (readback : SimpleReadPlan)
    (descriptor : ParameterDescriptor) (lo hi engineering : F64) (request raw response field : List UInt8),
    plan.validate = .ok () → plan.readback = some readback → plan.encoding.kind ≠ .float →
    descriptor.valueSpec = .float lo hi → lo.isFinite = true → hi.isFinite = true → lo ≤ engineering →
    engineering ≤ hi → plan.encode engineering = some (request, raw) → readback.response.Carries response field →
    (field = raw → ∃ value, readback.response.verifyReadback response descriptor raw = some (value, true)) ∧
      (field ≠ raw → readback.response.verifyReadback response descriptor raw = none ∨
        ∃ value, readback.response.verifyReadback response descriptor raw = some (value, false)) := by
  intro h
  have hnone : tenthReadback.response.verifyReadback [3, 0, 34] (tenthDescriptor (F64.ofRatio 34 10)) [0, 34] = none := by
    decide +kernel
  obtain ⟨hverifies, -⟩ := h tenthPlan tenthReadback (tenthDescriptor (F64.ofRatio 34 10)) F64.zero (F64.ofRatio 34 10)
    (F64.ofRatio 34 10) [1, 0, 34] [0, 34] [3, 0, 34] [0, 34] (by decide +kernel) rfl (by decide) rfl (by decide +kernel)
    (by decide +kernel) (by decide +kernel) (by decide +kernel) (by decide +kernel) ⟨rfl, rfl, rfl, rfl⟩
  obtain ⟨value, hsome⟩ := hverifies rfl
  rw [hnone] at hsome
  cases hsome

/-- Under a wider range the same response verifies. -/
theorem inner_readback_verifies :
    ∃ value, tenthReadback.response.verifyReadback [3, 0, 34] (tenthDescriptor (F64.ofInt 10)) [0, 34] = some (value, true) :=
  ((readback_verifies_iff (by decide +kernel : tenthPlan.validate = .ok ()) (rfl : tenthPlan.readback = some tenthReadback)
    (by decide) (rfl : (tenthDescriptor (F64.ofInt 10)).valueSpec = .float F64.zero (F64.ofInt 10))
    (by decide +kernel : tenthPlan.encode (F64.ofRatio 34 10) = some ([1, 0, 34], [0, 34]))
    ⟨rfl, rfl, rfl, rfl⟩).2 fun _ => by decide +kernel).1 rfl

end LabRuntime
