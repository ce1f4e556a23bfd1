import LabRuntime.Lib.History
import LabRuntime.Runtime.Dispatch

/-! The owner as a machine: every command, and every call of the host that is not a command. -/

namespace LabRuntime.Runtime

variable {σ : Type}

/-! ### Controller commands -/

/-- Capture what an accepted lifecycle command left of its controller. -/
def capturing (id : ControllerId) (now : ℕ) (command : Step σ Unit) : Step σ Unit := do
  rejectPreparedControllerMutation id
  command
  captureControllerFact id now

def startController (id : ControllerId) (loop : LoopAnswers) (now : ℕ) : Step σ Unit :=
  capturing id now do
    requireRecordingOpen now
    startOrResumeController id loop now .ready

def resumeController (id : ControllerId) (loop : LoopAnswers) (now : ℕ) : Step σ Unit :=
  capturing id now do
    requireRecordingOpen now
    startOrResumeController id loop now .paused

/-- The fact of a tick is captured whatever its result. -/
def tick (id : ControllerId) (loop : LoopAnswers) (now : ℕ) : Step σ Unit := do
  rejectPreparedControllerMutation id
  requireRecordingOpen now
  let result ← trying (tickController id loop now)
  captureControllerFact id now
  attempt result

def pause (id : ControllerId) (now : ℕ) : Step σ Unit := capturing id now (pauseController id now)

def resetFailed (id : ControllerId) (now : ℕ) : Step σ Unit := capturing id now (resetFailedController id now)

/-! ### Work on what owns no byte resource -/

/-- What references, native instruments and managed components leave of their own registries, with the
facts they capture: nothing else of the owner changes. -/
structure NativeWork where
  virtualInstruments : OrderedMap InstrumentId NativeInstrument
  thermalPlants : OrderedMap InstrumentId ThermalPlant
  managed : List NativeInstrument
  facts : List (ℕ × (ℕ → RecordingFact))

def nativeWork (work : NativeWork) : Step σ PUnit :=
  modify fun s => { s with
    virtualInstruments := work.virtualInstruments
    thermalPlants := work.thermalPlants
    managed := work.managed
    recordingFacts := work.facts.foldl (fun facts (bytes, create) => facts.push bytes create) s.recordingFacts }

/-- A live controller that depends on a failed component fails. -/
def failDependent (id : ControllerId) (now : ℕ) : Step σ Unit := do
  let controller ← knownController id
  if controller.state.live = false then pure ()
  else do
    modify fun s => { s with controllers := s.controllers.remove id }
    if controller.state ≠ .warming then ignoring (failController controller now)
    let failed := if controller.state = .warming then { controller with state := .failed } else controller.fail
    modify fun s => { s with controllers := s.controllers.insert id failed }

/-! ### Operations -/

/-- The calls on the owner. A managed component's command is a sequence of `nativeWork`, `checkOutputTime`,
`serviceSafety`, `pauseDependent` and `failDependent`. -/
inductive Op (σ : Type)
  | output (actuator : ActuatorId) (command : OutputCommand) (now : ℕ)
  | manualOutput (actuator : ActuatorId) (owner expectedInstance expectedEpoch : ℕ) (command : ManualOutputCommand) (now : ℕ)
  | registerVirtual (instrument : NativeInstrument) (heater : ParameterDescriptor)
  | registerThermalPlant (plant : ThermalPlant)
  | registerMetakon (config : MetakonInstrumentConfig)
  | registerSimpleDevice (config : SimpleDeviceInstrumentConfig) (prepared : Bool)
  | publishPreparedSimpleDevices (instruments : List InstrumentId)
  | discardPreparedSimpleDevices (instruments : List InstrumentId)
  | registerController (config : NativeControllerConfig) (algorithmsValid : Bool)
  | configureControllerPid (id : ControllerId) (pid : PidConfig) (expectedRevision : ℕ) (algorithmsValid : Bool)
  | reconfigureController (id : ControllerId) (config : NativeControllerConfig) (expectedRevision : ℕ)
      (algorithmsValid : Bool) (referenceUnit : Option EngineeringUnit)
  | prepareController (id : ControllerId) (referenceUnit : Option EngineeringUnit)
  | startController (id : ControllerId) (loop : LoopAnswers) (now : ℕ)
  | resumeController (id : ControllerId) (loop : LoopAnswers) (now : ℕ)
  | tickController (id : ControllerId) (loop : LoopAnswers) (now : ℕ)
  | pauseController (id : ControllerId) (now : ℕ)
  | resetFailedController (id : ControllerId) (now : ℕ)
  | queueMetakonRead (instrument : InstrumentId) (parameter : ParameterId) (now queueTtl timeout : ℕ)
  | queueSimpleDeviceRead (instrument : InstrumentId) (parameter : ParameterId) (now queueTtl timeout : ℕ)
  | queueMetakonOutput (actuator : ActuatorId) (now queueTtl timeout : ℕ)
  | pollTransports (now : ℕ)
  | serviceSafety (now : ℕ)
  | rebindMetakon (instrument : InstrumentId) (binding : MetakonBinding) (now : ℕ)
  | rebindSimpleDevice (instrument : InstrumentId) (binding : SimpleDeviceBinding) (now : ℕ)
  | reconfigureMetakon (config : MetakonInstrumentConfig) (expectedGeneration expectedRevision now : ℕ)
  | renameInstrument (instrument : InstrumentId) (name : String)
  | registerTransport (resource : ResourceId) (adapter : σ) (recoveryTimeout : ℕ)
  | replaceTransport (resource : ResourceId) (adapter : σ) (recoveryTimeout : ℕ)
  | shutdownTransport (resource : ResourceId) (now : ℕ)
  | enableRecordingFacts
  | disableRecordingFacts
  | takeRecordingFacts
  | requireRecording
  | confirmRecordingStart (submittedAt now : ℕ)
  | confirmRecordingProgress (submittedAt now : ℕ)
  | recordingFailure (now : ℕ)
  | closeRequiredRecording
  | nativeWork (work : NativeWork)
  | checkOutputTime (now : ℕ)
  | pauseDependent (id : ControllerId) (now : ℕ)
  | failDependent (id : ControllerId) (now : ℕ)

/-- A call whose result does not matter to the state. -/
def discarding {α : Type} (x : Step σ α) : Step σ Unit := do
  let _ ← x

def perform (A : ByteTransport σ) (op : Op σ) : Step σ Unit :=
  match op with
  | .output actuator command now => discarding (Runtime.output actuator command now)
  | .manualOutput actuator owner expectedInstance expectedEpoch command now =>
    Runtime.manualOutput actuator owner expectedInstance expectedEpoch command now
  | .registerVirtual instrument heater => Runtime.registerVirtual instrument heater
  | .registerThermalPlant plant => Runtime.registerThermalPlant plant
  | .registerMetakon config => Runtime.registerMetakon config
  | .registerSimpleDevice config prepared => Runtime.registerSimpleDevice config prepared
  | .publishPreparedSimpleDevices instruments => Runtime.publishPreparedSimpleDevices instruments
  | .discardPreparedSimpleDevices instruments => Runtime.discardPreparedSimpleDevices instruments
  | .registerController config algorithmsValid => Runtime.registerController config algorithmsValid
  | .configureControllerPid id pid expectedRevision algorithmsValid =>
    Runtime.configureControllerPid id pid expectedRevision algorithmsValid
  | .reconfigureController id config expectedRevision algorithmsValid referenceUnit =>
    Runtime.reconfigureController id config expectedRevision algorithmsValid referenceUnit
  | .prepareController id referenceUnit => Runtime.prepareController id referenceUnit
  | .startController id loop now => Runtime.startController id loop now
  | .resumeController id loop now => Runtime.resumeController id loop now
  | .tickController id loop now => Runtime.tick id loop now
  | .pauseController id now => Runtime.pause id now
  | .resetFailedController id now => Runtime.resetFailed id now
  | .queueMetakonRead instrument parameter now queueTtl timeout =>
    discarding (Runtime.queueMetakonRead instrument parameter now queueTtl timeout)
  | .queueSimpleDeviceRead instrument parameter now queueTtl timeout =>
    discarding (Runtime.queueSimpleDeviceRead instrument parameter now queueTtl timeout)
  | .queueMetakonOutput actuator now queueTtl timeout =>
    discarding (Runtime.queueMetakonOutput actuator now queueTtl timeout)
  | .pollTransports now => Runtime.pollTransports A now
  | .serviceSafety now => Runtime.serviceSafety A now
  | .rebindMetakon instrument binding now => Runtime.rebindMetakon instrument binding now
  | .rebindSimpleDevice instrument binding now => Runtime.rebindSimpleDevice instrument binding now
  | .reconfigureMetakon config expectedGeneration expectedRevision now =>
    Runtime.reconfigureMetakon config expectedGeneration expectedRevision now
  | .renameInstrument instrument name => Runtime.renameInstrument instrument name
  | .registerTransport resource adapter recoveryTimeout => Runtime.registerTransport resource adapter recoveryTimeout
  | .replaceTransport resource adapter recoveryTimeout => Runtime.replaceTransport A resource adapter recoveryTimeout
  | .shutdownTransport resource now => discarding (Runtime.shutdownTransport A resource now)
  | .enableRecordingFacts => Runtime.enableRecordingFacts
  | .disableRecordingFacts => record FactOutbox.disable
  | .takeRecordingFacts => record fun facts => facts.take.2
  | .requireRecording => Runtime.requireRecording
  | .confirmRecordingStart submittedAt now => Runtime.confirmRecordingStart submittedAt now
  | .confirmRecordingProgress submittedAt now => Runtime.confirmRecordingProgress submittedAt now
  | .recordingFailure now => modify fun s => s.recordingFailure now
  | .closeRequiredRecording => Runtime.closeRequiredRecording
  | .nativeWork work => Runtime.nativeWork work
  | .checkOutputTime now => Runtime.checkOutputTime now
  | .pauseDependent id now => Runtime.pauseController id now
  | .failDependent id now => Runtime.failDependent id now

/-- The state after one call, accepted or not. -/
def step (A : ByteTransport σ) (s : Runtime σ) (op : Op σ) : Runtime σ := ((perform A op).run s).2

/-- The state after a run of calls on a new owner. -/
def run (A : ByteTransport σ) (ops : List (Op σ)) : Runtime σ := History.after (step A) (.empty σ) ops

end LabRuntime.Runtime
