import LabRuntime.Deployment.Validation
import LabRuntime.Managed.MovingMean
import LabRuntime.Simple.Schema

/-! The cross references of a deployment: one loop over each table, with the identities met so far. -/

namespace LabRuntime.Deployment

open LabRuntime

def heaterPower : ParameterId := 2

/-! ### Registered implementations -/

inductive ScalarType
  | text | integer | number | boolean
  deriving DecidableEq, Repr

inductive MutationClass
  | liveSafe | ordinaryLive | reinitialization | rebindRequired
  deriving DecidableEq, Repr

structure ComponentPropertyMetadata where
  id : String
  valueType : ScalarType
  minimum : Option ℤ
  maximum : Option ℤ
  mutationClass : MutationClass
  deriving DecidableEq, Repr

def movingMeanProperties : List ComponentPropertyMetadata :=
  [{ id := MovingMean.windowField, valueType := .integer, minimum := some 2, maximum := some 64, mutationClass := .reinitialization }]

def componentPropertyMetadata (implementation : String) : List ComponentPropertyMetadata :=
  if implementation = MovingMean.implementation.value then movingMeanProperties else []

def buildComponentDefinition (implementation : String) (definition : NativeComponentDefinition F64) :
    Except ComponentError (ComponentDefinition F64) :=
  if implementation = MovingMean.implementation.value then MovingMean.compose definition else .error .invalidConfiguration

def validateComponentConfiguration (implementation : String) (definition : NativeComponentDefinition F64) :
    Except ComponentError Unit :=
  (buildComponentDefinition implementation definition).map fun _ => ()

namespace ManagedComponentDto

/-- A value is of the registered type and within the registered bounds. -/
def fits (property : ComponentPropertyMetadata) : TomlValue → Bool
  | .integer value =>
    (property.valueType == .integer || property.valueType == .number) &&
      property.minimum.all (fun minimum => decide (minimum ≤ value)) &&
      property.maximum.all (fun maximum => decide (value ≤ maximum))
  | .float value =>
    property.valueType == .number && value.isFinite &&
      property.minimum.all (fun minimum => decide (F64.ofInt minimum ≤ value)) &&
      property.maximum.all (fun maximum => decide (value ≤ F64.ofInt maximum))
  | .boolean _ => property.valueType == .boolean
  | .string _ => property.valueType == .text
  | _ => false

def validatePropertyShape (c : ManagedComponentDto) (properties : List ComponentPropertyMetadata) : Checked Unit := do
  refuse (c.config.size ≠ properties.length) "managed component properties do not match registration"
  properties.forM fun property =>
    match c.config.get property.id with
    | none => .error (.invalid "managed component property is missing")
    | some value => refuse (fits property value = false) "managed component property has invalid type or bounds"

def plainNumber : TomlValue → Checked F64
  | .integer value => .ok (F64.ofInt value)
  | .float value => .ok value
  | _ => .error (.invalid "managed config arrays must contain numbers")

def plainValue : TomlValue → Checked (PlainValue F64)
  | .integer value => .ok (.number (F64.ofInt value))
  | .float value => .ok (.number value)
  | .boolean value => .ok (.boolean value)
  | .string value => .ok (.text value)
  | .array values => (values.mapM plainNumber).map .numbers
  | _ => .error (.invalid "managed config values must be bounded PlainData leaves")

def plainConfig (c : ManagedComponentDto) : Checked (PlainData F64) := do
  let fields ← c.config.entries.foldlM (fun fields entry => do
    let value ← plainValue entry.2
    return fields.insert entry.1 value) OrderedMap.empty
  let data : PlainData F64 := ⟨fields⟩
  match data.validate with
  | .error _ => .error (.invalid "invalid managed PlainData config")
  | .ok _ => return data

/-- The definition that the registered implementation is to compose. -/
def native (c : ManagedComponentDto) (config : PlainData F64) : NativeComponentDefinition F64 :=
  { id := c.id
    instrument := c.instrumentId
    name := c.displayName
    input := c.inputInstrumentId.map fun input => ⟨input, MovingMean.temperature⟩
    config := config }

end ManagedComponentDto

/-! ### Tables -/

def checkDocument (dto : DeploymentDto) : Checked Unit := do
  refuse (dto.schemaVersion ≠ 1) "unsupported schema_version"
  refuse (32 < dto.instruments.countP (·.kind = .simpleDevice))
    "simple-device instance limit reached (32)"
  validateKey dto.runtime.key
  validateDisplayName dto.runtime.displayName
  refuse (dto.server.host ≠ "127.0.0.1") "server host must be 127.0.0.1"
  if dto.server.websocket.enabled then
    (validateOrigins dto.server.websocket.allowedOrigins).mapError ConfigurationError.invalid
  else
    refuse (dto.server.websocket.port ≠ 0 ∨ dto.server.websocket.allowedOrigins ≠ [])
      "disabled WebSocket endpoint cannot retain configuration"
  refuse (dto.recording.enabled = true ∧ dto.recording.path.text = "") "enabled recording requires path"
  refuse (dto.recording.enabled = false ∧ dto.recording.policy = .required) "Required recording cannot be disabled"
  refuse (8 < dto.resources.length ∨ 64 < dto.instruments.length ∨ 8 < dto.managedComponents.length ∨
      8 < dto.references.length ∨ 8 < dto.controllers.length ∨ 8 < dto.safeProfiles.length)
    "deployment object limit exceeded"

/-- Identities met in a table, and the bindings of resources. -/
structure Seen where
  ids : List ℕ
  keys : List String
  ports : List String
  deriving DecidableEq, Repr

def Seen.none : Seen := ⟨[], [], []⟩

def checkResource (seen : Seen) (r : ResourceDto) : Checked Seen := do
  validateNonzero r.id "resource id"
  validateKey r.key
  refuse (r.id ∈ seen.ids ∨ r.key ∈ seen.keys) "duplicate resource identity"
  let normalized ← (normalizeSerialPort r.port).mapError ConfigurationError.invalid
  refuse (normalized ∈ seen.ports) "duplicate COM binding"
  validateSerial r
  return ⟨r.id :: seen.ids, r.key :: seen.keys, normalized :: seen.ports⟩

def eligibleResource (resources : List ResourceDto) (id : ℕ) : Checked Unit :=
  match resources.find? fun r => r.id == id with
  | none => .error (.invalid "unknown resource reference")
  | some r => refuse (r.kind ≠ .windowsComReadOnly ∧ r.kind ≠ .windowsCom) "simple device requires an eligible COM resource"

/-- The fields of one instrument, and the resource it is bound to. -/
def checkFields (resources : List ResourceDto) : InstrumentDto → Checked Unit
  | .metakon m => do
    refuse (m.resourceId ∉ resources.map ResourceDto.id) "unknown resource reference"
    refuse (¬ (1 ≤ m.address ∧ m.address ≤ 247)) "Metakon address out of range"
    validatePeriod m.pollPeriodMs "poll period"
    validateTransactionTime m.queueTimeoutMs "queue timeout"
    validateTransactionTime m.transactionTimeoutMs "transaction timeout"
  | .simpleDevice s => do
    validateDisplayName s.displayName
    eligibleResource resources s.resourceId
    refuse (¬ (10 ≤ s.pollPeriodMs ∧ s.pollPeriodMs ≤ 60000)) "simple-device poll period must be 10..=60000 ms"
    refuse (¬ (1 ≤ s.queueTimeoutMs ∧ s.queueTimeoutMs ≤ 2000) ∨ ¬ (1 ≤ s.transactionTimeoutMs ∧ s.transactionTimeoutMs ≤ 2000))
      "simple-device transaction timing must be 1..=2000 ms"
    validateHistory s.historyCapacity
  | .virtualMeasurement v => do
    validateDisplayName v.displayName
    validateHistory v.historyCapacity
    refuse (v.baseTemperature.isFinite = false ∨ ¬ (F64.ofInt (-100) ≤ v.baseTemperature ∧ v.baseTemperature ≤ F64.ofInt 100))
      "virtual temperature out of range"
    validatePeriod v.pollPeriodMs "poll period"
  | .thermalPlant t => do
    validateDisplayName t.displayName
    validateHistory t.historyCapacity
    refuse (t.ambientTemperature.isFinite = false ∨ t.initialTemperature.isFinite = false ∨ t.gainPerPercent.isFinite = false ∨
        t.gainPerPercent ≤ F64.zero ∨ t.timeConstantMs = 0)
      "invalid thermal plant values"
    validatePeriod t.pollPeriodMs "poll period"

def checkInstrument (resources : List ResourceDto) (seen : Seen) (i : InstrumentDto) : Checked Seen := do
  validateNonzero i.id "instrument id"
  validateKey i.key
  refuse (i.id ∈ seen.ids ∨ i.key ∈ seen.keys) "duplicate instrument identity"
  checkFields resources i
  return ⟨i.id :: seen.ids, i.key :: seen.keys, seen.ports⟩

/-- No resource serves both the simple and the native adapters. -/
def checkSharing (resources : List ResourceDto) (instruments : List InstrumentHead) : Checked Unit :=
  resources.forM fun r =>
    refuse ((instruments.any fun i => i.kind = .simpleDevice ∧ i.resourceId = some r.id) = true ∧
        (instruments.any fun i => i.kind = .metakon ∧ i.resourceId = some r.id) = true)
      "simple and native protocol adapters may not share one resource"

/-- The components met, and the instrument that each of them reads. -/
structure ManagedSeen where
  ids : List ℕ
  inputs : OrderedMap ℕ (Option ℕ)

def checkComponent (instrumentIds : List ℕ) (seen : ManagedSeen) (c : ManagedComponentDto) : Checked ManagedSeen := do
  validateNonzero c.id "component id"
  validateNonzero c.instrumentId "component instrument id"
  validateKey c.key
  validateDisplayName c.displayName
  validatePeriod c.periodMs "component period"
  refuse (implementationIdValid c.implementation = false) "invalid component implementation"
  let properties := componentPropertyMetadata c.implementation
  refuse (properties = []) "unknown managed implementation"
  c.validatePropertyShape properties
  let config ← c.plainConfig
  (validateComponentConfiguration c.implementation (c.native config)).mapError fun _ =>
    .invalid "invalid managed implementation configuration"
  refuse (c.id ∈ seen.ids ∨ c.instrumentId ∈ instrumentIds ∨ seen.inputs.contains c.instrumentId = true)
    "duplicate component identity"
  return ⟨c.id :: seen.ids, seen.inputs.insert c.instrumentId c.inputInstrumentId⟩

/-- Follow the inputs; a walk that has made more steps than there are inputs has met one of them twice. -/
def chase (inputs : OrderedMap ℕ (Option ℕ)) : ℕ → List ℕ → Option ℕ → Checked Unit
  | _, _, none => .ok ()
  | 0, _, some _ => .error (.invalid "managed dependency cycle")
  | fuel + 1, visited, some instrument =>
    if instrument ∈ visited then .error (.invalid "managed dependency cycle")
    else chase inputs fuel (instrument :: visited) (inputs.get instrument).join

def checkInputs (instrumentIds : List ℕ) (components : List ComponentHead) (inputs : OrderedMap ℕ (Option ℕ)) :
    Checked Unit := do
  components.forM fun c =>
    refuse ((c.inputInstrumentId.any fun input => input ∉ instrumentIds ∧ input ∉ inputs.keys) = true) "unknown managed input"
  inputs.keys.forM fun start => chase inputs (inputs.size + 2) [] (some start)

def checkReferenceKind (r : ReferenceDto) : Checked Unit :=
  match r.kind, r.target, r.rate with
  | .fixed, target, rate => refuse (target.isSome = true ∨ rate.isSome = true) "Fixed Reference cannot declare ramp fields"
  | .ramp, some target, some rate =>
    refuse (target.isFinite = false ∨ rate.isFinite = false ∨ rate ≤ F64.zero) "invalid Ramp Reference"
  | .ramp, _, _ => .error (.invalid "Ramp Reference requires target and rate")

def checkReference (r : ReferenceDto) : Checked Unit := do
  validateKey r.key
  let _ ← (Simple.newUnit r.unitId r.unitSymbol).mapError fun _ => ConfigurationError.invalid "invalid Reference unit"
  refuse (r.value.isFinite = false) "invalid Reference value"
  checkReferenceKind r

def checkReferences (references : List ReferenceDto) : Checked Unit := do
  refuse (¬ (references.map ReferenceDto.id).Nodup ∨ 0 ∈ references.map ReferenceDto.id) "duplicate or zero Reference identity"
  refuse (¬ (references.map ReferenceDto.key).Nodup) "duplicate Reference key"
  references.forM checkReference

def checkSafeProfile (instruments : List InstrumentHead) (instrumentIds : List ℕ) (safe : SafeProfileDto) : Checked Unit := do
  validateNonzero safe.instrumentId "safe instrument id"
  validateNonzero safe.parameterId "safe parameter id"
  refuse (safe.instrumentId ∉ instrumentIds) "unknown safe-profile instrument"
  refuse (safe.min.isFinite = false ∨ safe.max.isFinite = false ∨ safe.safeValue.isFinite = false ∨ safe.max ≤ safe.min ∨
      ¬ (safe.min ≤ safe.safeValue ∧ safe.safeValue ≤ safe.max) ∨ safe.maxLeaseMs = 0 ∨ safe.maxProposalTtlMs = 0)
    "invalid safe profile"
  let native := instruments.any fun i =>
    (i.kind = .virtualMeasurement ∨ i.kind = .thermalPlant) ∧ i.id = safe.instrumentId ∧ safe.parameterId = heaterPower
  let physical := instruments.any fun i => (i.kind = .metakon ∨ i.kind = .simpleDevice) ∧ i.id = safe.instrumentId
  let simple := instruments.any fun i => i.kind = .simpleDevice ∧ i.id = safe.instrumentId
  refuse (¬ (native = true ∨ physical = true) ∨ (simple = false ∧ (safe.min < F64.zero ∨ F64.ofInt 100 < safe.max)))
    "safe profile targets an ineligible output"

/-- What the controllers may refer to. -/
structure ControlContext where
  instruments : List InstrumentHead
  components : List ComponentHead
  instrumentIds : List ℕ
  references : List ReferenceDto
  safeProfiles : List SafeProfileDto

/-- The unit of a controller's input, which for a physical instrument its frozen definition tells. -/
def ControlContext.inputUnit (context : ControlContext) (c : ControllerDto) : Checked (Option String) :=
  let virtual := context.instruments.any fun i =>
    (i.kind = .virtualMeasurement ∨ i.kind = .thermalPlant) ∧ i.id = c.inputInstrumentId ∧
      c.inputParameterId = MovingMean.temperature
  let managed := context.components.any fun component =>
    component.instrumentId = c.inputInstrumentId ∧ c.inputParameterId = MovingMean.temperature
  let physical := context.instruments.any fun i => (i.kind = .metakon ∨ i.kind = .simpleDevice) ∧ i.id = c.inputInstrumentId
  if virtual || managed then .ok (some EngineeringUnit.celsius.id)
  else if physical then .ok none
  else .error (.invalid "controller input is not a signal")

def checkController (context : ControlContext) (seen : Seen) (c : ControllerDto) : Checked Seen := do
  validateNonzero c.id "controller id"
  validateKey c.key
  refuse (c.id ∈ seen.ids ∨ c.key ∈ seen.keys) "duplicate controller identity"
  refuse (c.inputInstrumentId ∉ context.instrumentIds) "unknown controller input"
  refuse (c.referenceId ∉ context.references.map ReferenceDto.id) "unknown controller Reference"
  refuse ((c.outputInstrumentId, c.outputParameterId) ∉ context.safeProfiles.map fun safe => (safe.instrumentId, safe.parameterId))
    "controller output lacks safe profile"
  validatePeriod c.periodMs "controller period"
  let inputUnit ← context.inputUnit c
  -- The reference and the safe profile are there: their identities were looked up above.
  let reference := context.references.find? fun reference => reference.id == c.referenceId
  refuse ((inputUnit.any fun unit => reference.any fun reference => unit != reference.unitId) = true)
    "controller input and Reference unit mismatch"
  validateTransactionTime c.emaTimeConstantMs "EMA time constant"
  validateTransactionTime c.maxInputAgeMs "maximum input age"
  validateTransactionTime c.maxTickGapMs "maximum tick gap"
  validateTransactionTime c.leaseLifetimeMs "lease lifetime"
  validateTransactionTime c.proposalTtlMs "proposal TTL"
  refuse (c.emaWarmupSamples = 0 ∨ 1024 < c.emaWarmupSamples) "EMA warmup out of range"
  refuse (c.kp.isFinite = false ∨ c.ki.isFinite = false ∨ c.kd.isFinite = false ∨ c.outputMin.isFinite = false ∨
      c.outputMax.isFinite = false ∨ c.outputMax ≤ c.outputMin)
    "invalid PID configuration"
  let safe := context.safeProfiles.find? fun safe =>
    safe.instrumentId == c.outputInstrumentId && safe.parameterId == c.outputParameterId
  refuse ((safe.any fun safe => c.outputMin < safe.min ∨ safe.max < c.outputMax ∨ safe.maxLeaseMs < c.leaseLifetimeMs ∨
      safe.maxProposalTtlMs < c.proposalTtlMs ∨ c.leaseLifetimeMs < c.proposalTtlMs) = true)
    "controller exceeds safe-profile limits"
  return ⟨c.id :: seen.ids, c.key :: seen.keys, seen.ports⟩

/-! ### The whole check -/

/-- The tables that refer to instruments and components by their heads only. -/
def checkControl (dto : DeploymentDto) (instruments : List InstrumentHead) (components : List ComponentHead)
    (instrumentIds : List ℕ) : Checked Unit := do
  checkReferences dto.references
  refuse (¬ (dto.safeProfiles.map fun safe => (safe.instrumentId, safe.parameterId)).Nodup) "duplicate safe profile"
  dto.safeProfiles.forM (checkSafeProfile instruments instrumentIds)
  let _ ← dto.controllers.foldlM
    (checkController ⟨instruments, components, instrumentIds, dto.references, dto.safeProfiles⟩) Seen.none
  return ()

def validateStructure (dto : DeploymentDto) : Checked Unit := do
  let instruments := dto.instruments.map InstrumentDto.head
  let components := dto.managedComponents.map ManagedComponentDto.head
  checkDocument dto
  let _ ← dto.resources.foldlM checkResource Seen.none
  let seen ← dto.instruments.foldlM (checkInstrument dto.resources) Seen.none
  checkSharing dto.resources instruments
  let managed ← dto.managedComponents.foldlM (checkComponent seen.ids) ⟨[], OrderedMap.empty⟩
  checkInputs seen.ids components managed.inputs
  checkControl dto instruments components (managed.inputs.keys ++ seen.ids)

end LabRuntime.Deployment
