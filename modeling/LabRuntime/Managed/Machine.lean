import LabRuntime.Managed.Owner

/-! The owner as one machine: the commands on native instruments, references and managed components beside
the calls on outputs, controllers, devices and transports. -/

namespace LabRuntime

/-! ### References -/

def maxReferences : ℕ := 64

def RuntimeReference.unit : RuntimeReference → EngineeringUnit
  | .fixed _ reference _ => reference.unit
  | .ramp _ reference _ => reference.state.unit

def ReferenceConfig.unit : ReferenceConfig → EngineeringUnit
  | .fixed _ _ unit => unit
  | .ramp _ _ _ _ unit _ => unit

/-- The first evaluation time of a configuration. -/
def ReferenceConfig.time : ReferenceConfig → ℕ
  | .fixed .. => 0
  | .ramp _ _ _ _ _ now => now

/-- The nearest double of an exact value. -/
def toDouble (x : ℚ) : F64 := F64.ofRatio x.num x.den

def mapReferenceError : ReferenceError → ControllerError
  | .invalidConfiguration => .invalidConfiguration
  | .invalidTime => .invalidTickTime
  | .revisionConflict => .revisionConflict
  | .notRamp => .invalidConfiguration
  | .revisionExhausted => .revisionExhausted

namespace ManagedRuntime

variable {σ ε : Type}

def fail {α : Type} (error : Error) : ManagedStep σ ε α := Procedure.stop (rejected error)

/-- The `?` operator on a plain result. -/
def attempt {α : Type} (result : Except Error α) : ManagedStep σ ε α := Procedure.lift (result.mapError rejected)

def record (f : FactOutbox → FactOutbox) : ManagedStep σ ε PUnit := core (Runtime.record f)

def referenceFact (reference : RuntimeReference) (id : ReferenceId) (now : ℕ) (facts : FactOutbox) : FactOutbox :=
  match reference.snapshot with
  | .fixed _ value unit _ revision => facts.reference id revision (toDouble value) none none unit now
  | .ramp _ state revision =>
    facts.reference id revision (toDouble state.current) (some (toDouble state.target)) (some (toDouble state.rate)) state.unit now

def captureReferenceFact (id : ReferenceId) (now : ℕ) : ManagedStep σ ε PUnit := do
  match (← get).references.get id with
  | none => pure ⟨⟩
  | some reference => record (referenceFact reference id now)

def storeReference (id : ReferenceId) (reference : RuntimeReference) : ManagedStep σ ε PUnit :=
  modify fun s => { s with references := s.references.insert id reference }

def registerReference (config : ReferenceConfig) : ManagedStep σ ε Unit := do
  let s ← get
  if s.references.contains config.id then fail (.controller .duplicateReference)
  if maxReferences ≤ s.references.size then fail (.controller .invalidConfiguration)
  let reference ← attempt ((RuntimeReference.new config).mapError fun _ => .controller .invalidConfiguration)
  storeReference config.id reference
  captureReferenceFact config.id config.time

/-- A call on one reference that leaves it as it was or replaces it, captured where it succeeds. -/
def onReference {α : Type} (id : ReferenceId) (now : ℕ) (f : RuntimeReference → Except ReferenceError α × RuntimeReference) :
    ManagedStep σ ε α := do
  match (← get).references.get id with
  | none => fail (.controller .unknownReference)
  | some reference =>
    storeReference id (f reference).2
    let result ← attempt ((f reference).1.mapError fun error => .controller (mapReferenceError error))
    captureReferenceFact id now
    return result

def evaluateReference (id : ReferenceId) (now : ℕ) : ManagedStep σ ε ReferenceValue :=
  onReference id now fun reference => reference.valueAt now

def retuneRampReference (id : ReferenceId) (target rate : Engineering) (expectedRevision now : ℕ) : ManagedStep σ ε RetunedRamp :=
  onReference id now fun reference => reference.retune target rate expectedRevision now

/-- Whether a live controller follows a reference. -/
def followed (s : ManagedRuntime σ ε) (id : ReferenceId) : Bool :=
  s.runtime.controllers.values.any fun controller => decide (controller.config.reference = id) && controller.state.live

def reconfigureReference (id : ReferenceId) (config : ReferenceConfig) (expectedRevision : ℕ) :
    ManagedStep σ ε ReferenceSnapshot := do
  let s ← get
  match s.references.get id with
  | none => fail (.controller .unknownReference)
  | some reference =>
    if (reference.unit == config.unit) = false ∨ s.followed id = true then fail (.controller .invalidConfiguration)
    onReference id s.runtime.outputTime fun reference => reference.reconfigure config expectedRevision

/-- The unit of the reference that a controller follows. -/
def referenceUnit (s : ManagedRuntime σ ε) (id : ReferenceId) : Option EngineeringUnit :=
  (s.references.get id).map RuntimeReference.unit

def prepareController (id : ControllerId) : ManagedStep σ ε Unit := do
  let s ← get
  core (Runtime.prepareController id ((s.runtime.controllers.get id).bind fun c => s.referenceUnit c.config.reference))

def reconfigureController (id : ControllerId) (config : NativeControllerConfig) (expectedRevision : ℕ) (algorithmsValid : Bool) :
    ManagedStep σ ε Unit := do
  let s ← get
  core (Runtime.reconfigureController id config expectedRevision algorithmsValid (s.referenceUnit config.reference))

/-! ### Virtual instruments and thermal plants -/

def storeVirtual (id : InstrumentId) (instrument : NativeInstrument) : ManagedStep σ ε PUnit :=
  modify fun s => { s with runtime := { s.runtime with virtualInstruments := s.runtime.virtualInstruments.insert id instrument } }

def storePlant (id : InstrumentId) (plant : ThermalPlant) (model : PlantModel) : ManagedStep σ ε PUnit :=
  modify fun s => { s with
    runtime := { s.runtime with thermalPlants := s.runtime.thermalPlants.insert id plant }
    models := s.models.insert id model }

def registerVirtual (config : VirtualInstrument.Config) : ManagedStep σ ε Unit := do
  core (Runtime.requireFreeInstrument config.id)
  let (instrument, settings) ← attempt (VirtualInstrument.new config)
  let heater ← attempt (instrument.parameter heaterPower)
  core (Runtime.registerVirtual instrument heater)
  modify fun s => { s with settings := s.settings.insert config.id settings }

def publishVirtualMeasurement (id : InstrumentId) (parameter : ParameterId) (value : Option Value) (expectedGeneration now : ℕ) :
    ManagedStep σ ε Sample := do
  if expectedGeneration ≠ 1 then fail (.invalidConfiguration "stale virtual generation")
  match (← get).runtime.virtualInstruments.get id with
  | none => fail (.unknownInstrument id)
  | some instrument =>
    let (sample, stored) ← attempt (VirtualInstrument.publish instrument parameter now value)
    storeVirtual id stored
    record fun facts => facts.measurement sample 1 1
    return sample

def registerThermalPlant (config : Deployment.ThermalPlantConfig) : ManagedStep σ ε Unit := do
  core (Runtime.requireFreeInstrument config.id)
  let (plant, model) ← attempt (PlantModel.new config)
  core (Runtime.registerThermalPlant plant)
  modify fun s => { s with models := s.models.insert config.id model }

/-- An output that someone still holds. -/
def heldOutput (s : ManagedRuntime σ ε) (actuator : ActuatorId) : Bool :=
  (s.runtime.outputs.get actuator).any fun authority =>
    authority.snapshot.lease.isSome || authority.snapshot.pending || authority.snapshot.inFlight.isSome

def restartThermalPlant (id : InstrumentId) (config : Deployment.ThermalPlantConfig) (expectedGeneration : ℕ) :
    ManagedStep σ ε ℕ := do
  if config.id ≠ id then fail (.invalidConfiguration "model restart must retain instrument identity")
  let s ← get
  match s.runtime.thermalPlants.get id, s.models.get id with
  | some _, some current =>
    if current.generation ≠ expectedGeneration then fail (.invalidConfiguration "stale model generation")
    if s.runtime.usedLive id then fail (.invalidConfiguration "dependent controller must be stopped before model restart")
    if s.heldOutput ⟨id, heaterPower⟩ then fail (.invalidConfiguration "model restart requires revoked output authority")
    match checkedAdd expectedGeneration 1 with
    | none => fail (.invalidConfiguration "model generation exhausted")
    | some generation =>
      let (plant, model) ← attempt (PlantModel.new config)
      storePlant id plant { model with generation := generation }
      return generation
  | _, _ => fail (.unknownInstrument id)

def injectPlantMeasurementFailure (id : InstrumentId) (now : ℕ) : ManagedStep σ ε Sample := do
  let s ← get
  match s.runtime.thermalPlants.get id, s.models.get id with
  | some plant, some model =>
    let (sample, stored) ← attempt (PlantModel.injectFailure plant now)
    storePlant id stored model
    record fun facts => facts.measurement sample model.generation 1
    return sample
  | _, _ => fail (.unknownInstrument id)

def configureParameter (id : InstrumentId) (parameter : ParameterId) (value : Value) : ManagedStep σ ε Unit := do
  let s ← get
  match s.runtime.virtualInstruments.get id, s.settings.get id with
  | some instrument, some settings =>
    let settings ← attempt (VirtualInstrument.configure instrument settings parameter value)
    modify fun s => { s with settings := s.settings.insert id settings }
  | _, _ =>
    if s.runtime.metakonInstruments.contains id || s.runtime.thermalPlants.contains id then fail (.operationNotAllowed parameter)
    else fail (.unknownInstrument id)

/-- Capture the latest temperature if it is of this time. -/
def captureAt (instrument : NativeInstrument) (generation now : ℕ) : ManagedStep σ ε PUnit :=
  match instrument.temperatureSignal.bind SignalBuffer.latest with
  | some sample => if sample.time = now then record fun facts => facts.measurement sample generation 1 else pure ⟨⟩
  | none => pure ⟨⟩

def refreshVirtual (id : InstrumentId) (instrument : NativeInstrument) (settings : VirtualInstrument.Settings)
    (parameter : ParameterId) (now : ℕ) : ManagedStep σ ε Sample := do
  let (result, stored) := VirtualInstrument.refresh instrument settings parameter now
  storeVirtual id stored
  if parameter = MovingMean.temperature then captureAt stored 1 now
  attempt result

def refreshPlant (expM1 : F64 → F64) (id : InstrumentId) (plant : ThermalPlant) (model : PlantModel) (parameter : ParameterId)
    (now : ℕ) : ManagedStep σ ε Sample := do
  if parameter ≠ MovingMean.temperature then fail (.operationNotAllowed parameter)
  match PlantModel.refresh expM1 plant model now with
  | .error error => do
    captureAt plant.toNativeInstrument model.generation now
    fail error
  | .ok (sample, stored, advanced) => do
    storePlant id stored advanced
    captureAt stored.toNativeInstrument advanced.generation now
    return sample

def refreshMeasurement (expM1 : F64 → F64) (id : InstrumentId) (parameter : ParameterId) (now : ℕ) : ManagedStep σ ε Sample := do
  let s ← get
  match s.runtime.virtualInstruments.get id, s.settings.get id with
  | some instrument, some settings => refreshVirtual id instrument settings parameter now
  | _, _ =>
    match s.runtime.thermalPlants.get id, s.models.get id with
    | some plant, some model => refreshPlant expM1 id plant model parameter now
    | _, _ =>
      if s.runtime.metakonInstruments.contains id then fail (.operationNotAllowed parameter) else fail (.unknownInstrument id)

/-! ### The machine -/

/-- Calls of the outside on the rest of the owner: not the parts that other commands consist of, and not the
registrations that this machine makes whole. -/
def external : Runtime.Op σ → Bool
  | .registerVirtual .. | .registerThermalPlant _ | .prepareController .. | .reconfigureController .. | .nativeWork _
  | .checkOutputTime _ | .pauseDependent .. | .failDependent .. => false
  | _ => true

inductive Op (σ ε : Type)
  | stageComponent (definition : ComponentDefinition F64) (replaces : Option ComponentId) (now : ℕ)
  | prepareComponentReplacement (definition : ComponentDefinition F64) (replaces : ComponentId) (now : ℕ)
  | commitPreparedComponents (components : List ComponentId) (now : ℕ)
  | discardPreparedComponents
  | invokeComponent (id : ComponentId) (now : ℕ)
  | pollComponents (now : ℕ)
  | quiesceManaged (now : ℕ)
  | installComponentExecutor (executor : ε) (identity : ℕ)
  | registerReference (config : ReferenceConfig)
  | evaluateReference (id : ReferenceId) (now : ℕ)
  | retuneRampReference (id : ReferenceId) (target rate : Engineering) (expectedRevision now : ℕ)
  | reconfigureReference (id : ReferenceId) (config : ReferenceConfig) (expectedRevision : ℕ)
  | prepareController (id : ControllerId)
  | reconfigureController (id : ControllerId) (config : NativeControllerConfig) (expectedRevision : ℕ) (algorithmsValid : Bool)
  | registerVirtual (config : VirtualInstrument.Config)
  | publishVirtualMeasurement (id : InstrumentId) (parameter : ParameterId) (value : Option Value) (expectedGeneration now : ℕ)
  | registerThermalPlant (config : Deployment.ThermalPlantConfig)
  | restartThermalPlant (id : InstrumentId) (config : Deployment.ThermalPlantConfig) (expectedGeneration : ℕ)
  | injectPlantMeasurementFailure (id : InstrumentId) (now : ℕ)
  | configureParameter (id : InstrumentId) (parameter : ParameterId) (value : Value)
  | refreshMeasurement (id : InstrumentId) (parameter : ParameterId) (now : ℕ)
  | call (op : Runtime.Op σ)

def discarding {α : Type} (x : ManagedStep σ ε α) : ManagedStep σ ε Unit := do
  let _ ← x

/-- The platform: byte transports, executors and `expm1`. -/
structure Platform (σ ε : Type) where
  transport : ByteTransport σ
  executor : ComponentExecutor F64 ε
  expM1 : F64 → F64

def perform (M : Platform σ ε) (op : Op σ ε) : ManagedStep σ ε Unit :=
  match op with
  | .stageComponent definition replaces now => discarding (stageComponent M.executor definition replaces now false)
  | .prepareComponentReplacement definition replaces now =>
    discarding (stageComponent M.executor definition (some replaces) now true)
  | .commitPreparedComponents components now => discarding (ManagedRuntime.commitPreparedComponents M.executor components now)
  | .discardPreparedComponents => ManagedRuntime.discardPreparedComponents
  | .invokeComponent id now => discarding (ManagedRuntime.invokeComponent M.executor id now)
  | .pollComponents now => ManagedRuntime.pollComponents M.transport M.executor now
  | .quiesceManaged now => ManagedRuntime.quiesceManaged M.executor now
  | .installComponentExecutor executor identity => ManagedRuntime.installComponentExecutor executor identity
  | .registerReference config => ManagedRuntime.registerReference config
  | .evaluateReference id now => discarding (ManagedRuntime.evaluateReference id now)
  | .retuneRampReference id target rate expectedRevision now =>
    discarding (ManagedRuntime.retuneRampReference id target rate expectedRevision now)
  | .reconfigureReference id config expectedRevision => discarding (ManagedRuntime.reconfigureReference id config expectedRevision)
  | .prepareController id => ManagedRuntime.prepareController id
  | .reconfigureController id config expectedRevision algorithmsValid =>
    ManagedRuntime.reconfigureController id config expectedRevision algorithmsValid
  | .registerVirtual config => ManagedRuntime.registerVirtual config
  | .publishVirtualMeasurement id parameter value expectedGeneration now =>
    discarding (ManagedRuntime.publishVirtualMeasurement id parameter value expectedGeneration now)
  | .registerThermalPlant config => ManagedRuntime.registerThermalPlant config
  | .restartThermalPlant id config expectedGeneration => discarding (ManagedRuntime.restartThermalPlant id config expectedGeneration)
  | .injectPlantMeasurementFailure id now => discarding (ManagedRuntime.injectPlantMeasurementFailure id now)
  | .configureParameter id parameter value => ManagedRuntime.configureParameter id parameter value
  | .refreshMeasurement id parameter now => discarding (ManagedRuntime.refreshMeasurement M.expM1 id parameter now)
  | .call op => if external op then core (Runtime.perform M.transport op) else pure ()

/-- The state after one command, accepted or not. -/
def step (M : Platform σ ε) (s : ManagedRuntime σ ε) (op : Op σ ε) : ManagedRuntime σ ε := ((perform M op).run s).2

/-- The state after a run of commands on a new owner. -/
def run (M : Platform σ ε) (ops : List (Op σ ε)) : ManagedRuntime σ ε := History.after (step M) (.empty σ ε) ops

end ManagedRuntime
end LabRuntime
