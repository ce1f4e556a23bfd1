import LabRuntime.Signal
import LabRuntime.Lib.OrderedMap
import LabRuntime.Lib.Checks
import Mathlib.Data.String.Basic

/-! Managed observation components as plain data: definitions, jobs, results and completions, and
the executor port they cross. The numbers are of any type that has the operations the code uses of
`f64`. -/

namespace LabRuntime

/-- What the code uses of `f64`. -/
class Scalar (N : Type) where
  isFinite : N → Bool
  le : N → N → Bool
  same : N → N → Bool
  ofInt : ℤ → N
  add : N → N → N
  sub : N → N → N
  div : N → N → N
  fract : N → N
  toNat : N → ℕ

instance : Scalar F64 where
  isFinite := F64.isFinite
  le x y := decide (x ≤ y)
  same x y := x == y
  ofInt := F64.ofInt
  add := F64.add
  sub := F64.sub
  div := F64.div
  fract := F64.fract
  toNat x := (F64.toIntSat 0 u64Max x).toNat

/-- Exact arithmetic. -/
instance : Scalar ℚ where
  isFinite _ := true
  le x y := decide (x ≤ y)
  same x y := decide (x = y)
  ofInt n := n
  add x y := x + y
  sub x y := x - y
  div x y := x / y
  fract x := x - (if 0 ≤ x then x.floor else x.ceil)
  toNat x := x.floor.toNat

abbrev ComponentId := ℕ

def maxComponents : ℕ := 8
def maxImplementationIdBytes : ℕ := 64
def maxPlainBytes : ℕ := 4096

inductive ComponentError
  | unknown | invalidConfiguration | busy | dataLimit | inputUnavailable | invalidResult | deadline
  | memoryLimit | executionLimit | adapterCallLimit | invalidImplementation | executor | identityExhausted
  deriving DecidableEq, Repr

/-! ### Plain data -/

inductive PlainValue (N : Type)
  | number (value : N)
  | boolean (value : Bool)
  | text (value : String)
  | numbers (values : List N)
  deriving Repr, DecidableEq

structure PlainData (N : Type) where
  fields : OrderedMap String (PlainValue N)

namespace PlainData

variable {N : Type} [Scalar N]

def default : PlainData N := ⟨.empty⟩

/-- `char::is_ascii_graphic`. -/
def isAsciiGraphic (c : Char) : Bool := 0x21 ≤ c.toNat && c.toNat ≤ 0x7e

def keyValid (key : String) : Bool :=
  !key.isEmpty && decide (key.utf8ByteSize ≤ 32) && key.toList.all isAsciiGraphic

/-- The leaves of a value and its logical size, unless it exceeds a bound of its own. -/
def measure : PlainValue N → Option (ℕ × ℕ)
  | .number value => if Scalar.isFinite value then some (1, 9) else none
  | .boolean _ => some (1, 2)
  | .text value => if value.utf8ByteSize ≤ 128 then some (1, 3 + value.utf8ByteSize) else none
  | .numbers values =>
    if values.length ≤ 64 ∧ values.all Scalar.isFinite then some (values.length, 3 + values.length * 8) else none

/-- The bytes and leaves with one more field. -/
def countField (total : ℕ × ℕ) (field : String × PlainValue N) : Except ComponentError (ℕ × ℕ) :=
  if keyValid field.1 = false then .error .invalidConfiguration
  else
    match measure field.2 with
    | none => .error .dataLimit
    | some (leaves, size) =>
      let bytes := total.1 + (field.1.utf8ByteSize + 1 + size)
      if maxPlainBytes < bytes ∨ 256 < total.2 + leaves then .error .dataLimit
      else .ok (bytes, total.2 + leaves)

def validate (data : PlainData N) : Except ComponentError Unit := do
  Checks.reject (16 < data.fields.entries.length) .dataLimit
  discard (data.fields.entries.foldlM countField (0, 0))

end PlainData

/-! ### Definitions -/

inductive ComponentKind
  | source
  | transform (input : SignalId)
  deriving DecidableEq, Repr

structure ComponentManifest (N : Type) where
  schemaVersion : ℕ
  id : ComponentId
  instrument : InstrumentId
  name : String
  parameter : ParameterId
  kind : ComponentKind
  unit : EngineeringUnit
  min : N
  max : N
  warmupSamples : ℕ
  maxInputAge : ℕ
  historyCapacity : ℕ

def ComponentManifest.signal {N : Type} (m : ComponentManifest N) : SignalId := ⟨m.instrument, m.parameter⟩

def implementationIdValid (value : String) : Bool :=
  !value.isEmpty && decide (value.utf8ByteSize ≤ maxImplementationIdBytes) &&
    value.toList.all fun c => c.isLower || c.isDigit || c == '.' || c == '_' || c == '-'

structure ComponentImplementationId where
  value : String
  valid : implementationIdValid value = true
  deriving DecidableEq

structure ComponentDefinition (N : Type) where
  manifest : ComponentManifest N
  implementation : ComponentImplementationId
  config : PlainData N

/-! ### Jobs -/

inductive InvocationPhase
  | init | step
  deriving DecidableEq, Repr

structure Correlation where
  runtime : ℕ
  component : ComponentId
  generation : ℕ
  attempt : ℕ
  revision : ℕ
  deriving DecidableEq, Repr

structure CapturedInput (N : Type) where
  signal : SignalId
  value : N
  unit : EngineeringUnit
  time : ℕ
  freshnessTime : ℕ
  sourceGeneration : ℕ
  sourceRevision : ℕ
  sourceStateRevision : Option ℕ

structure Invocation (N : Type) where
  correlation : Correlation
  phase : InvocationPhase
  definition : ComponentDefinition N
  state : PlainData N
  time : ℕ
  dt : ℕ
  input : Option (CapturedInput N)

/-! ### Results -/

inductive ComponentStatus
  | init | warming | ready | unavailable
  deriving DecidableEq, Repr

structure ComponentResult (N : Type) where
  status : ComponentStatus
  value : Option N
  unit : EngineeringUnit
  state : PlainData N
  diagnostics : List String

structure ComponentCompletion (N : Type) where
  correlation : Correlation
  timely : Bool
  outcome : Except ComponentError (ComponentResult N)

inductive ComponentState
  | warming | ready | failed
  deriving DecidableEq, Repr

/-- The port to the workers, over executors of any kind. Polling takes at most one completion. -/
structure ComponentExecutor (N ε : Type) where
  trySubmit : Invocation N → ε → Except ComponentError Unit × ε
  tryPoll : ε → Option (ComponentCompletion N) × ε
  tryCancel : Correlation → ε → ε
  tryExpire : Correlation → ε → Bool × ε
  beginShutdown : ε → ε

end LabRuntime
