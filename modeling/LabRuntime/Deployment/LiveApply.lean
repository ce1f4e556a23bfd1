import LabRuntime.Deployment.Changes
import LabRuntime.Recording

/-! The checks that Core and its host make while a candidate is applied live. -/

namespace LabRuntime.Deployment

open LabRuntime

inductive OwnerError
  | core (error : Error)
  | component (error : ComponentError)
  deriving DecidableEq, Repr

/-! ### The owner -/

/-- The instruments and the state of a controller. -/
structure ConfiguredController where
  input : InstrumentId
  output : InstrumentId
  state : ControllerState
  deriving DecidableEq, Repr

structure CommittedComponent where
  definition : ComponentDefinition F64
  generation : ℕ

/-- What the checks read: Core's instruments, thermal models and components, and the host's schedules. -/
structure Owner where
  lastNow : ℕ
  instruments : List InstrumentId
  plants : List InstrumentId
  metakonReads : List InstrumentId
  simpleDeviceReads : List InstrumentId
  thermalPlants : OrderedMap InstrumentId ℕ
  virtualModelGenerations : OrderedMap InstrumentId ℕ
  controllers : List ConfiguredController
  outputs : OrderedMap ActuatorId OutputSnapshot
  managed : OrderedMap ComponentId CommittedComponent
  descriptor : InstrumentId → Option InstrumentDescriptor

structure ThermalPlantConfig where
  id : InstrumentId
  name : String
  historyCapacity : ℕ
  ambientTemperature : F64
  initialTemperature : F64
  gainPerPercent : F64
  timeConstant : ℕ
  deriving DecidableEq, Repr

def ThermalPlantDto.config (t : ThermalPlantDto) : ThermalPlantConfig :=
  { id := t.id
    name := t.displayName
    historyCapacity := t.historyCapacity
    ambientTemperature := t.ambientTemperature
    initialTemperature := t.initialTemperature
    gainPerPercent := t.gainPerPercent
    timeConstant := t.timeConstantMs * 10 ^ 6 }

def thermalParameters (id : InstrumentId) : List ParameterDescriptor :=
  [{ id := MovingMean.temperature
     name := "temperature"
     valueSpec := .float (F64.ofInt (-100)) (F64.ofInt 500)
     unit := .celsius
     access := .readOnly
     role := .measurement
     writeEffect := .none
     signal := some ⟨id, MovingMean.temperature⟩ },
   { id := heaterPower
     name := "heater_power"
     valueSpec := .float (F64.ofInt 0) (F64.ofInt 100)
     unit := .percent
     access := .readWrite
     role := .actuator
     writeEffect := .outputAffecting
     signal := none }]

/-- Temperatures that a thermal model accepts. -/
def inPlantRange (x : F64) : Prop := F64.ofInt (-100) ≤ x ∧ x ≤ F64.ofInt 500

instance (x : F64) : Decidable (inPlantRange x) := by unfold inPlantRange; infer_instance

/-- The checks of `ThermalPlantInstrument::new`. -/
def newThermalPlant (config : ThermalPlantConfig) : Except Error Unit := do
  validateName config.name
  Checks.reject (config.ambientTemperature.isFinite = false ∨ config.initialTemperature.isFinite = false ∨
      config.gainPerPercent.isFinite = false ∨ config.gainPerPercent ≤ F64.zero ∨ config.timeConstant = 0 ∨
      ¬ inPlantRange config.initialTemperature ∨ ¬ inPlantRange config.ambientTemperature)
    (.invalidConfiguration "invalid thermal plant")
  (thermalParameters config.id).forM ParameterDescriptor.validateDefinition
  let _ ← SignalBuffer.new ⟨config.id, MovingMean.temperature⟩ config.historyCapacity
  return ()

def thermalConfigurationChanged : InstrumentDto → InstrumentDto → Bool
  | .thermalPlant old, .thermalPlant new =>
    old.historyCapacity != new.historyCapacity || old.ambientTemperature != new.ambientTemperature ||
      old.initialTemperature != new.initialTemperature || old.gainPerPercent != new.gainPerPercent ||
      old.timeConstantMs != new.timeConstantMs
  | _, _ => false

namespace Owner

/-! ### Model restart -/

/-- An output that someone still holds. -/
def held (o : Owner) (actuator : ActuatorId) : Bool :=
  (o.outputs.get actuator).any fun snapshot => snapshot.lease.isSome || snapshot.pending || snapshot.inFlight.isSome

def modelGeneration (o : Owner) (id : InstrumentId) : Except Error ℕ :=
  match o.thermalPlants.get id with
  | none => .error (.unknownInstrument id)
  | some generation => .ok generation

def nextGeneration (generation : ℕ) : Except Error ℕ :=
  match checkedAdd generation 1 with
  | none => .error (.invalidConfiguration "model generation exhausted")
  | some next => .ok next

/-- The generation of the restarted model. -/
def restartThermalPlant (o : Owner) (config : ThermalPlantConfig) (expectedGeneration : ℕ) : Except Error ℕ := do
  let current ← o.modelGeneration config.id
  Checks.reject (current ≠ expectedGeneration) (.invalidConfiguration "stale model generation")
  Checks.reject ((o.controllers.any fun c => (c.input = config.id ∨ c.output = config.id) ∧ c.state.live = true) = true)
    (.invalidConfiguration "dependent controller must be stopped before model restart")
  Checks.reject (o.held ⟨config.id, heaterPower⟩ = true)
    (.invalidConfiguration "model restart requires revoked output authority")
  let generation ← nextGeneration expectedGeneration
  newThermalPlant config
  return generation

def restartRow (o : Owner) : InstrumentDto → Except Error Owner
  | .thermalPlant t =>
    match o.virtualModelGenerations.get t.id with
    | none => .error (.invalidConfiguration "model generation missing")
    | some expected => do
      let generation ← o.restartThermalPlant t.config expected
      return { o with
        thermalPlants := o.thermalPlants.insert t.id generation
        virtualModelGenerations := o.virtualModelGenerations.insert t.id generation }
  | _ => .ok o

def restartConfiguredVirtualModels (o : Owner) (instruments : List InstrumentDto) : Except Error Owner := do
  let restarted ← instruments.foldlM restartRow o
  Checks.reject ((instruments.any fun i => i.kind = .thermalPlant) = false) (.invalidConfiguration "no configured native models")
  return restarted

/-! ### Rename and schedule -/

def rename (o : Owner) (id : InstrumentId) (name : String) : Except Error Unit := do
  validateName name
  Checks.reject (id ∉ o.instruments) (.unknownInstrument id)

/-- A cadence starts again from the last turn. -/
def schedule (o : Owner) (slots : List InstrumentId) (id : InstrumentId) (periodMs : ℕ) (missing : String) : Except Error Unit := do
  Checks.reject (id ∉ slots) (.invalidConfiguration missing)
  Checks.reject (durationMax < o.lastNow + periodMs * 10 ^ 6) (.invalidConfiguration "scheduler time exhausted")

def applyRow (o : Owner) : InstrumentDto → Except Error Unit
  | .virtualMeasurement v => do
    o.rename v.id v.displayName
    o.schedule o.plants v.id v.pollPeriodMs "configured schedule missing"
  | .thermalPlant t => do
    o.rename t.id t.displayName
    o.schedule o.plants t.id t.pollPeriodMs "configured schedule missing"
  | .metakon m => o.schedule o.metakonReads m.id m.pollPeriodMs "configured read schedule missing"
  | .simpleDevice s => do
    o.rename s.id s.displayName
    o.schedule o.simpleDeviceReads s.id s.pollPeriodMs "configured simple-device schedule missing"

/-! ### Component replacement -/

/-- What of a manifest a replacement keeps. -/
def sameManifest (previous manifest : ComponentManifest F64) : Bool :=
  decide (previous.instrument = manifest.instrument) && decide (previous.parameter = manifest.parameter) &&
    decide (previous.kind = manifest.kind) && previous.unit == manifest.unit && previous.min == manifest.min &&
    previous.max == manifest.max && previous.name == manifest.name &&
    decide (previous.warmupSamples = manifest.warmupSamples) && decide (previous.maxInputAge = manifest.maxInputAge) &&
    decide (previous.historyCapacity = manifest.historyCapacity)

/-- A replacement keeps the identity and the manifest of what it replaces. -/
def checkRetained (o : Owner) (manifest : ComponentManifest F64) (id : ComponentId) : Except OwnerError Unit :=
  match o.managed.get id with
  | none => .error (.component .unknown)
  | some old => do
    Checks.reject (id ≠ manifest.id ∨ sameManifest old.definition.manifest manifest = false) (.component .invalidConfiguration)
    Checks.reject (u64Max < old.generation + 1) (.component .identityExhausted)

/-- A transform reads a measured signal in its own unit, of an instrument that is no transform. -/
def checkTransform (o : Owner) (manifest : ComponentManifest F64) (input : SignalId) : Except OwnerError Unit := do
  Checks.reject (input.instrument = manifest.instrument) (.component .invalidConfiguration)
  Checks.reject ((o.managed.values.any fun item =>
      item.definition.manifest.instrument = input.instrument ∧ item.definition.manifest.kind ≠ .source) = true)
    (.component .invalidConfiguration)
  match o.descriptor input.instrument with
  | none => .error (.core (.unknownInstrument input.instrument))
  | some descriptor =>
    match descriptor.parameter input.parameter with
    | none => .error (.component .invalidConfiguration)
    | some parameter =>
      Checks.reject (parameter.signal ≠ some input ∨ parameter.role ≠ .measurement ∨ isFloatSpec parameter.valueSpec = false ∨
          (parameter.unit == manifest.unit) = false)
        (.component .invalidConfiguration)

/-- `validate_component_definition` of a definition that replaces `id`. -/
def validateComponentDefinition (o : Owner) (definition : ComponentDefinition F64) (id : ComponentId) : Except OwnerError Unit := do
  let manifest := definition.manifest
  (validateName manifest.name).mapError OwnerError.core
  definition.config.validate.mapError OwnerError.component
  Checks.reject (manifest.schemaVersion ≠ 1 ∨ manifest.min.isFinite = false ∨ manifest.max.isFinite = false ∨
      manifest.max ≤ manifest.min ∨ ¬ (1 ≤ manifest.warmupSamples ∧ manifest.warmupSamples ≤ 64) ∨ manifest.maxInputAge = 0)
    (.component .invalidConfiguration)
  let _ ← (SignalBuffer.new manifest.signal manifest.historyCapacity).mapError OwnerError.core
  o.checkRetained manifest id
  match manifest.kind with
  | .source => .ok ()
  | .transform input => o.checkTransform manifest input

/-- `stage_configured_component` of a component that replaces itself. -/
def replaceComponent (o : Owner) (c : ManagedComponentDto) : Except OwnerError Unit := do
  let config ← c.plainConfig.mapError fun _ => OwnerError.core (.invalidConfiguration "managed PlainData config")
  let definition ← (buildComponentDefinition c.implementation (c.native config)).mapError OwnerError.component
  o.validateComponentDefinition definition c.id

/-! ### The live apply -/

/-- All models restart when one of them changed. -/
def restartChanged (o : Owner) (old new : List InstrumentDto) : Except OwnerError Unit :=
  if zipAny thermalConfigurationChanged old new then
    ((o.restartConfiguredVirtualModels new).mapError OwnerError.core).map fun _ => ()
  else .ok ()

def replaceChanged (o : Owner) (pair : ManagedComponentDto × ManagedComponentDto) : Except OwnerError Unit :=
  if pair.1 != pair.2 then o.replaceComponent pair.2 else .ok ()

/-- The checks on the way: models restart, the components that differ are replaced, and every instrument is renamed
and scheduled again. -/
def applyChecks (o : Owner) (old new : DeploymentDto) : Except OwnerError Unit := do
  o.restartChanged old.instruments new.instruments
  (old.managedComponents.zip new.managedComponents).forM o.replaceChanged
  new.instruments.forM fun i => (o.applyRow i).mapError OwnerError.core

/-- The owner accepts these steps with the values of a deployment, so that a rejection of others is for their values. -/
structure Admits (o : Owner) (dto : DeploymentDto) : Prop where
  restart : (dto.instruments.any fun i => i.kind = .thermalPlant) = true → ∃ o', o.restartConfiguredVirtualModels dto.instruments = .ok o'
  replace : ∀ c ∈ dto.managedComponents, o.replaceComponent c = .ok ()
  apply : ∀ i ∈ dto.instruments, o.applyRow i = .ok ()

end Owner
end LabRuntime.Deployment
