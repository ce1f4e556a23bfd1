import LabRuntime.Lib.OrderedMap
import LabRuntime.Model
import Mathlib.Data.String.Basic

/-! The deployment document as it is read: its tables under their own words. Equality is the one the
source derives, so numbers compare as numbers do and paths by their components. -/

namespace LabRuntime.Deployment

/-! ### Paths -/

/-- A path as it was written; it is compared by its components. -/
structure PathBuf where
  text : String
  deriving Repr

namespace PathBuf

def isAbsolute (p : PathBuf) : Bool := p.text.toList.head? == some '/'

/-- The parts between the separators: empty parts count for nothing, nor does a `.` that is not the first part. -/
def parts (p : PathBuf) : List (List Char) :=
  let pieces := p.text.toList.splitOn '/'
  let kept := pieces.filter fun part => !(part == [] || part == ['.'])
  if pieces.head? == some ['.'] then ['.'] :: kept else kept

instance : BEq PathBuf := ⟨fun p q => p.isAbsolute == q.isAbsolute && p.parts == q.parts⟩

def join (base declared : PathBuf) : PathBuf :=
  if declared.isAbsolute then declared
  else if base.text.toList.getLast?.any (· != '/') then ⟨base.text ++ "/" ++ declared.text⟩
  else ⟨base.text ++ declared.text⟩

def traversesParent (p : PathBuf) : Bool := p.parts.contains ['.', '.']

end PathBuf

/-! ### Values -/

inductive TomlValue
  | integer (value : ℤ)
  | float (value : F64)
  | boolean (value : Bool)
  | string (value : String)
  | datetime (text : String)
  | array (values : List TomlValue)
  | table (entries : List (String × TomlValue))

namespace TomlValue

mutual

def same : TomlValue → TomlValue → Bool
  | .integer x, .integer y => x == y
  | .float x, .float y => x == y
  | .boolean x, .boolean y => x == y
  | .string x, .string y => x == y
  | .datetime x, .datetime y => x == y
  | .array xs, .array ys => sameValues xs ys
  | .table xs, .table ys => sameEntries xs ys
  | _, _ => false

def sameValues : List TomlValue → List TomlValue → Bool
  | [], [] => true
  | x :: xs, y :: ys => same x y && sameValues xs ys
  | _, _ => false

def sameEntries : List (String × TomlValue) → List (String × TomlValue) → Bool
  | [], [] => true
  | x :: xs, y :: ys => x.1 == y.1 && (same x.2 y.2 && sameEntries xs ys)
  | _, _ => false

end

instance : BEq TomlValue := ⟨same⟩

end TomlValue

/-! ### Tables -/

structure RuntimeDto where
  key : String
  displayName : String
  deriving DecidableEq, Repr

structure WebSocketDto where
  enabled : Bool
  port : ℕ
  allowedOrigins : List String
  deriving DecidableEq, Repr

structure ServerDto where
  host : String
  port : ℕ
  websocket : WebSocketDto
  deriving DecidableEq, Repr

inductive RecordingPolicyDto
  | bestEffort | required
  deriving DecidableEq, Repr

structure RecordingDto where
  enabled : Bool
  path : PathBuf
  policy : RecordingPolicyDto
  deriving BEq, Repr

inductive ResourceKindDto
  | windowsComReadOnly | windowsCom
  deriving DecidableEq, Repr

inductive ParityDto
  | none | odd | even
  deriving DecidableEq, Repr

inductive FlowControlDto
  | none | software | hardware
  deriving DecidableEq, Repr

structure ResourceDto where
  id : ℕ
  key : String
  kind : ResourceKindDto
  port : String
  baudRate : ℕ
  dataBits : ℕ
  parity : ParityDto
  stopBits : ℕ
  flowControl : FlowControlDto
  readTimeoutMs : ℕ
  writeTimeoutMs : ℕ
  openTimeoutMs : ℕ
  recoveryTimeoutMs : ℕ
  deriving DecidableEq, Repr

structure VirtualMeasurementDto where
  id : ℕ
  key : String
  displayName : String
  historyCapacity : ℕ
  baseTemperature : F64
  measurementEnabled : Bool
  externalPublication : Bool
  pollPeriodMs : ℕ
  deriving DecidableEq, Repr

structure ThermalPlantDto where
  id : ℕ
  key : String
  displayName : String
  historyCapacity : ℕ
  ambientTemperature : F64
  initialTemperature : F64
  gainPerPercent : F64
  timeConstantMs : ℕ
  pollPeriodMs : ℕ
  deriving DecidableEq, Repr

structure MetakonDto where
  id : ℕ
  key : String
  definition : PathBuf
  resourceId : ℕ
  address : ℕ
  pollPeriodMs : ℕ
  queueTimeoutMs : ℕ
  transactionTimeoutMs : ℕ
  deriving Repr

structure SimpleDeviceDto where
  id : ℕ
  key : String
  displayName : String
  definition : PathBuf
  resourceId : ℕ
  address : UInt16
  channel : UInt16
  pollPeriodMs : ℕ
  queueTimeoutMs : ℕ
  transactionTimeoutMs : ℕ
  historyCapacity : ℕ
  deriving Repr

inductive InstrumentDto
  | virtualMeasurement (v : VirtualMeasurementDto)
  | thermalPlant (t : ThermalPlantDto)
  | metakon (m : MetakonDto)
  | simpleDevice (s : SimpleDeviceDto)
  deriving Repr

structure ManagedComponentDto where
  id : ℕ
  instrumentId : ℕ
  key : String
  displayName : String
  implementation : String
  config : OrderedMap String TomlValue
  inputInstrumentId : Option ℕ
  periodMs : ℕ

inductive ReferenceKindDto
  | fixed | ramp
  deriving DecidableEq, Repr

structure ReferenceDto where
  id : ℕ
  key : String
  kind : ReferenceKindDto
  value : F64
  target : Option F64
  rate : Option F64
  unitId : String
  unitSymbol : String
  deriving BEq, Repr

structure ControllerDto where
  id : ℕ
  key : String
  inputInstrumentId : ℕ
  inputParameterId : ℕ
  outputInstrumentId : ℕ
  outputParameterId : ℕ
  referenceId : ℕ
  periodMs : ℕ
  emaTimeConstantMs : ℕ
  emaWarmupSamples : ℕ
  kp : F64
  ki : F64
  kd : F64
  outputMin : F64
  outputMax : F64
  maxInputAgeMs : ℕ
  maxTickGapMs : ℕ
  leaseLifetimeMs : ℕ
  proposalTtlMs : ℕ
  deriving BEq, Repr

inductive EvidenceDto
  | ack | readback
  deriving DecidableEq, Repr

structure SafeProfileDto where
  instrumentId : ℕ
  parameterId : ℕ
  min : F64
  max : F64
  safeValue : F64
  maxLeaseMs : ℕ
  maxProposalTtlMs : ℕ
  requiredEvidence : EvidenceDto
  deriving BEq, Repr

structure DeploymentDto where
  schemaVersion : ℕ
  runtime : RuntimeDto
  server : ServerDto
  recording : RecordingDto
  resources : List ResourceDto
  instruments : List InstrumentDto
  managedComponents : List ManagedComponentDto
  references : List ReferenceDto
  controllers : List ControllerDto
  safeProfiles : List SafeProfileDto

instance : BEq ManagedComponentDto := ⟨fun c d =>
  c.id == d.id && c.instrumentId == d.instrumentId && c.key == d.key && c.displayName == d.displayName &&
    c.implementation == d.implementation && c.config.entries == d.config.entries &&
    c.inputInstrumentId == d.inputInstrumentId && c.periodMs == d.periodMs⟩

inductive InstrumentKind
  | virtualMeasurement | thermalPlant | metakon | simpleDevice
  deriving DecidableEq, Repr

def InstrumentKind.name : InstrumentKind → String
  | .virtualMeasurement => "virtual_measurement"
  | .thermalPlant => "thermal_plant"
  | .metakon => "metakon"
  | .simpleDevice => "simple_device"

namespace InstrumentDto

def id : InstrumentDto → ℕ
  | .virtualMeasurement v => v.id
  | .thermalPlant t => t.id
  | .metakon m => m.id
  | .simpleDevice s => s.id

def key : InstrumentDto → String
  | .virtualMeasurement v => v.key
  | .thermalPlant t => t.key
  | .metakon m => m.key
  | .simpleDevice s => s.key

def kind : InstrumentDto → InstrumentKind
  | .virtualMeasurement _ => .virtualMeasurement
  | .thermalPlant _ => .thermalPlant
  | .metakon _ => .metakon
  | .simpleDevice _ => .simpleDevice

def kindName (i : InstrumentDto) : String := i.kind.name

def pollPeriodMs : InstrumentDto → ℕ
  | .virtualMeasurement v => v.pollPeriodMs
  | .thermalPlant t => t.pollPeriodMs
  | .metakon m => m.pollPeriodMs
  | .simpleDevice s => s.pollPeriodMs

def boundResourceId : InstrumentDto → Option ℕ
  | .virtualMeasurement _ | .thermalPlant _ => none
  | .metakon m => some m.resourceId
  | .simpleDevice s => some s.resourceId

end InstrumentDto

/-- What the other tables can refer to of an instrument. -/
structure InstrumentHead where
  id : ℕ
  key : String
  kind : InstrumentKind
  resourceId : Option ℕ
  deriving DecidableEq, Repr

def InstrumentDto.head (i : InstrumentDto) : InstrumentHead := ⟨i.id, i.key, i.kind, i.boundResourceId⟩

/-- What the other tables can refer to of a managed component. -/
structure ComponentHead where
  id : ℕ
  instrumentId : ℕ
  inputInstrumentId : Option ℕ
  deriving DecidableEq, Repr

def ManagedComponentDto.head (c : ManagedComponentDto) : ComponentHead := ⟨c.id, c.instrumentId, c.inputInstrumentId⟩

end LabRuntime.Deployment
