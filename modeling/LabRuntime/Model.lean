import LabRuntime.Lib.Binary64

/-! Identities, scalar schemas, units, descriptors and the typed rejections shared by every
part of the runtime. Counters are `u64` in the source; here they are naturals whose checked
additions stop at `u64Max`. Times are nanoseconds since the runtime's monotonic origin. -/

namespace LabRuntime

/-! ### Machine numbers -/

def u64Max : ℕ := 2 ^ 64 - 1

/-- `u64::checked_add`. -/
def checkedAdd (a b : ℕ) : Option ℕ := if a + b ≤ u64Max then some (a + b) else none

/-- `Duration::MAX`: `u64::MAX` seconds and 999 999 999 nanoseconds. -/
def durationMax : ℕ := 2 ^ 64 * 10 ^ 9 - 1

/-- `Duration::checked_add`. -/
def durationAdd (a b : ℕ) : Option ℕ := if a + b ≤ durationMax then some (a + b) else none

def fromSecs (n : ℕ) : ℕ := n * 10 ^ 9
def fromMillis (n : ℕ) : ℕ := n * 10 ^ 6

theorem checkedAdd_eq_some {a b c : ℕ} : checkedAdd a b = some c ↔ c = a + b ∧ a + b ≤ u64Max := by
  unfold checkedAdd
  split_ifs with h
  · simp only [Option.some.injEq]; exact ⟨fun e => ⟨e.symm, h⟩, fun e => e.1.symm⟩
  · simp only [false_iff]; exact fun e => h e.2

theorem checkedAdd_eq_none {a b : ℕ} : checkedAdd a b = none ↔ u64Max < a + b := by
  unfold checkedAdd
  split_ifs with h
  · simp only [false_iff]; omega
  · simp only [true_iff]; omega

theorem durationAdd_eq_some {a b c : ℕ} :
    durationAdd a b = some c ↔ c = a + b ∧ a + b ≤ durationMax := by
  unfold durationAdd
  split_ifs with h
  · simp only [Option.some.injEq]; exact ⟨fun e => ⟨e.symm, h⟩, fun e => e.1.symm⟩
  · simp only [false_iff]; exact fun e => h e.2

theorem durationAdd_eq_none {a b : ℕ} : durationAdd a b = none ↔ durationMax < a + b := by
  unfold durationAdd
  split_ifs with h
  · simp only [false_iff]; omega
  · simp only [true_iff]; omega

/-! ### Identities -/

abbrev InstrumentId := ℕ
abbrev ParameterId := ℕ
abbrev ResourceId := ℕ

structure SignalId where
  instrument : InstrumentId
  parameter : ParameterId
  deriving DecidableEq, Repr

/-! ### Values and their schemas -/

inductive ValueType
  | float | integer | boolean | text | enum
  deriving DecidableEq, Repr

inductive Value
  | float (value : F64)
  | integer (value : ℤ)
  | boolean (value : Bool)
  | text (value : String)
  | enum (value : String)
  deriving DecidableEq, Repr

def Value.valueType : Value → ValueType
  | .float _ => .float
  | .integer _ => .integer
  | .boolean _ => .boolean
  | .text _ => .text
  | .enum _ => .enum

inductive ValueSpec
  | float (min max : F64)
  | integer (min max : ℤ)
  | boolean
  | text (maxBytes : ℕ)
  | enum (choices : List String)
  deriving DecidableEq, Repr

def ValueSpec.valueType : ValueSpec → ValueType
  | .float .. => .float
  | .integer .. => .integer
  | .boolean => .boolean
  | .text _ => .text
  | .enum _ => .enum

def maxNameBytes : ℕ := 128
def maxTextBytes : ℕ := 1024
def maxEnumChoices : ℕ := 64

/-- `char::is_whitespace`: the Unicode `White_Space` property. -/
def isWhitespace (c : Char) : Bool :=
  let n := c.toNat
  (9 ≤ n && n ≤ 13) || n == 0x20 || n == 0x85 || n == 0xa0 || n == 0x1680 ||
    (0x2000 ≤ n && n ≤ 0x200a) || n == 0x2028 || n == 0x2029 || n == 0x202f || n == 0x205f ||
    n == 0x3000

/-- `text.trim().is_empty()`. -/
def isBlank (text : String) : Bool := text.toList.all isWhitespace

/-! ### Engineering units -/

/-- Bounded engineering-unit metadata; equality uses the canonical identity only. -/
structure EngineeringUnit where
  id : String
  symbol : String
  deriving Repr

instance : BEq EngineeringUnit := ⟨fun a b => a.id == b.id⟩

def EngineeringUnit.celsius : EngineeringUnit := ⟨"degC", "°C"⟩
def EngineeringUnit.percent : EngineeringUnit := ⟨"percent", "%"⟩
def EngineeringUnit.unitless : EngineeringUnit := ⟨"1", "1"⟩

theorem EngineeringUnit.beq_iff (a b : EngineeringUnit) : (a == b) = true ↔ a.id = b.id := by
  show (a.id == b.id) = true ↔ _
  simp

/-! ### Rejections -/

inductive OutputError
  | unknownActuator | invalidProfile | invalidState | staleLease | expired | wrongUnit | busy
  | nothingPending | unknownDispatch | invalidTime | counterExhausted
  deriving DecidableEq, Repr

inductive TransportError
  | queueFull | invalidTransaction | invalidTime | counterExhausted | duplicateResource
  | unknownResource | resourceLimit | resourceBusy | resourceUnavailable
  deriving DecidableEq, Repr

inductive CodecError
  | frameTooLong | wrongLength | badCrc | wrongAddress | wrongType | invalidValue | unrepresentable
  deriving DecidableEq, Repr

inductive ControllerError
  | unknownController | duplicateController | unknownReference | duplicateReference | invalidState
  | invalidConfiguration | inputUnavailable | staleInput | invalidTickTime | algorithm | output
  | revisionConflict | revisionExhausted
  deriving DecidableEq, Repr

/-- Why an explicit measurement attempt produced no usable value. -/
inductive MeasurementFailure
  | disabled | sensorFault | transport | processingWarmup | componentFailure
  deriving DecidableEq, Repr

inductive Error
  | controller (error : ControllerError)
  | output (error : OutputError)
  | transport (error : TransportError)
  | protocol (error : CodecError)
  | unknownInstrument (id : InstrumentId)
  | unknownParameter (instrument : InstrumentId) (parameter : ParameterId)
  | unknownSignal (id : SignalId)
  | duplicateInstrument (id : InstrumentId)
  | wrongType (expected actual : ValueType)
  | nonFinite
  | outOfRange
  | readOnlyParameter (id : ParameterId)
  | operationNotAllowed (id : ParameterId)
  | invalidConfiguration (reason : String)
  | recordingUnavailable
  | operationFailed
  | nonMonotonicTime (signal : SignalId) (previous requested : ℕ)
  | measurementUnavailable (signal : SignalId) (reason : MeasurementFailure)
  deriving DecidableEq, Repr

/-! ### Validation -/

def ValueSpec.definitionValid : ValueSpec → Bool
  | .float min max => min.isFinite && max.isFinite && decide (min ≤ max)
  | .integer min max => decide (min ≤ max)
  | .boolean => true
  | .text maxBytes => decide (maxBytes ≤ maxTextBytes)
  | .enum choices =>
    !choices.isEmpty && decide (choices.length ≤ maxEnumChoices) &&
      choices.zipIdx.all fun (choice, index) =>
        !isBlank choice && decide (choice.utf8ByteSize ≤ maxTextBytes) &&
          !(choices.take index).contains choice

def ValueSpec.validateDefinition (spec : ValueSpec) : Except Error Unit :=
  if spec.definitionValid then .ok () else .error (.invalidConfiguration "invalid value constraint")

/-- Whether a value of the spec's own kind meets its bounds. -/
def ValueSpec.admits : ValueSpec → Value → Bool
  | .float min max, .float value => decide (min ≤ value) && decide (value ≤ max)
  | .integer min max, .integer value => decide (min ≤ value) && decide (value ≤ max)
  | .boolean, .boolean _ => true
  | .text maxBytes, .text value => decide (value.utf8ByteSize ≤ maxBytes)
  | .enum choices, .enum value => choices.contains value
  | _, _ => false

def Value.isNonFinite : Value → Bool
  | .float value => !value.isFinite
  | _ => false

/-- Definition, exact type, finiteness and bounds, in this order. -/
def ValueSpec.validate (spec : ValueSpec) (value : Value) : Except Error Unit :=
  match spec.validateDefinition with
  | .error error => .error error
  | .ok _ =>
    if spec.valueType ≠ value.valueType then .error (.wrongType spec.valueType value.valueType)
    else if value.isNonFinite then .error .nonFinite
    else if spec.admits value then .ok () else .error .outOfRange

theorem validate_float_ok {spec : ValueSpec} {v : F64} (h : spec.validate (.float v) = .ok ()) :
    ∃ lo hi, spec = .float lo hi ∧ lo.isFinite = true ∧ hi.isFinite = true ∧ v.isFinite = true ∧
      lo ≤ v ∧ v ≤ hi := by
  unfold ValueSpec.validate ValueSpec.validateDefinition at h
  cases spec with
  | float lo hi =>
    by_cases hd : (ValueSpec.float lo hi).definitionValid
    · simp only [hd, if_true, ValueSpec.valueType, Value.valueType, ne_eq, not_true_eq_false,
        if_false, Value.isNonFinite, ValueSpec.admits, Bool.and_eq_true, decide_eq_true_eq] at h
      by_cases hf : v.isFinite = true
      · simp only [hf, Bool.not_true, Bool.false_eq_true, if_false] at h
        split_ifs at h with hb
        simp only [ValueSpec.definitionValid, Bool.and_eq_true, decide_eq_true_eq] at hd
        exact ⟨lo, hi, rfl, hd.1.1, hd.1.2, hf, hb.1, hb.2⟩
      · simp [hf] at h
    · simp [hd] at h
  | integer lo hi => by_cases hd : (ValueSpec.integer lo hi).definitionValid <;> simp [hd, ValueSpec.valueType, Value.valueType] at h
  | boolean => simp [ValueSpec.definitionValid, ValueSpec.valueType, Value.valueType] at h
  | text n => by_cases hd : (ValueSpec.text n).definitionValid <;> simp [hd, ValueSpec.valueType, Value.valueType] at h
  | enum cs => by_cases hd : (ValueSpec.enum cs).definitionValid <;> simp [hd, ValueSpec.valueType, Value.valueType] at h

theorem validate_float_of_bounds {lo hi v : F64} (hlo : lo.isFinite = true) (hhi : hi.isFinite = true)
    (hv : v.isFinite = true) (h1 : lo ≤ v) (h2 : v ≤ hi) :
    (ValueSpec.float lo hi).validate (.float v) = .ok () := by
  have hd : (ValueSpec.float lo hi).definitionValid = true := by
    simp [ValueSpec.definitionValid, hlo, hhi, F64.le_trans h1 h2]
  simp [ValueSpec.validate, ValueSpec.validateDefinition, hd, ValueSpec.valueType, Value.valueType,
    Value.isNonFinite, hv, ValueSpec.admits, h1, h2]

theorem isFinite_of_bounds {lo hi v : F64} (hlo : lo.isFinite = true) (hhi : hi.isFinite = true)
    (h1 : lo ≤ v) (h2 : v ≤ hi) : v.isFinite = true := by
  obtain ⟨-, -, h1⟩ := h1
  obtain ⟨-, -, h2⟩ := h2
  simp only [F64.isFinite, decide_eq_true_eq, F64.key] at *
  split_ifs at h1 h2 <;> omega

end LabRuntime
