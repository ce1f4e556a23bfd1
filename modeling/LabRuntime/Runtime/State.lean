import LabRuntime.Lib.Procedure
import LabRuntime.Output.Authority
import LabRuntime.Recording

/-! The owner of instruments, outputs and byte resources. Its state is the registries, the
correlations of work in flight, and the clocks. -/

namespace LabRuntime

open Metakon

def maxInstruments : ℕ := 64
def maxTransportResources : ℕ := 8

/-- One transaction of one resource. -/
structure TransactionKey where
  resource : ResourceId
  transaction : ℕ
  deriving DecidableEq, Repr

instance : LinearOrder TransactionKey :=
  LinearOrder.lift' (fun key => toLex (key.resource, key.transaction)) fun a b h => by
    cases a; cases b; simpa using h

/-- What a completion must still find current: resource, binding generation, mapping revision. -/
structure BindingFence where
  resource : ResourceId
  bindingGeneration : ℕ
  mappingRevision : ℕ
  deriving DecidableEq, Repr

def MetakonBinding.fence (b : MetakonBinding) : BindingFence :=
  { resource := b.resource, bindingGeneration := b.bindingGeneration, mappingRevision := b.mappingRevision }

def SimpleDeviceBinding.fence (b : SimpleDeviceBinding) : BindingFence :=
  { resource := b.resource, bindingGeneration := b.bindingGeneration, mappingRevision := b.mappingRevision }

/-- The fence an output was queued under. -/
def OutputIntent.fence (i : OutputIntent) (resource : ResourceId) : BindingFence :=
  { resource := resource, bindingGeneration := i.bindingGeneration, mappingRevision := i.mappingRevision }

/-! ### Work in flight -/

structure PendingRead where
  instrument : InstrumentId
  parameter : ParameterId
  expected : ExpectedRead
  operation : KnownOperation
  scale : F64
  bindingGeneration : ℕ
  mappingRevision : ℕ
  failurePublished : Bool
  deriving Repr

structure PendingSimpleRead where
  instrument : InstrumentId
  parameter : ParameterId
  response : SimpleResponsePlan
  bindingGeneration : ℕ
  mappingRevision : ℕ
  failurePublished : Bool
  deriving Repr

def PendingRead.fence (p : PendingRead) (resource : ResourceId) : BindingFence :=
  { resource := resource, bindingGeneration := p.bindingGeneration, mappingRevision := p.mappingRevision }

def PendingSimpleRead.fence (p : PendingSimpleRead) (resource : ResourceId) : BindingFence :=
  { resource := resource, bindingGeneration := p.bindingGeneration, mappingRevision := p.mappingRevision }

inductive PendingOutputProtocol
  | metakon
  | simple (ack : SimpleAckPlan) (readback : Option SimpleReadPlan) (expectedRaw : List UInt8)
  deriving Repr

structure PendingOutputWrite where
  actuator : ActuatorId
  intent : OutputIntent
  timeout : ℕ
  protocol : PendingOutputProtocol
  deriving Repr

inductive PendingReadbackProtocol
  | metakon (expected : ExpectedRead) (scale : F64)
  | simple (plan : SimpleReadPlan) (expectedRaw : List UInt8)
  deriving Repr

structure PendingOutputReadback where
  intent : OutputIntent
  dispatch : DispatchId
  protocol : PendingReadbackProtocol
  deriving Repr

/-! ### Controllers and the instruments without a byte resource -/


def maxControllers : ℕ := 64

structure PidUpdate where
  p : F64
  i : F64
  d : F64
  unconstrained : F64
  output : F64
  time : ℕ
  deriving DecidableEq, Repr

/-- The policy of a native controller; of its filter only the unit matters here. -/
structure NativeControllerConfig where
  id : ControllerId
  input : SignalId
  output : ActuatorId
  reference : ReferenceId
  emaUnit : EngineeringUnit
  pid : PidConfig
  maxInputAge : ℕ
  maxTickGap : ℕ
  leaseLifetime : ℕ
  proposalTtl : ℕ
  deriving Repr

/-- `pidLatest` is the last update of the controller's own algorithm memory. -/
structure NativeController where
  config : NativeControllerConfig
  state : ControllerState
  pidLatest : Option PidUpdate
  lease : Option OutputLease
  lastTick : Option ℕ
  latestOutput : Option PidUpdate
  configRevision : ℕ
  deriving Repr

/-- A failed controller holds no lease. -/
def NativeController.fail (c : NativeController) : NativeController := { c with state := .failed, lease := none }

/-- An instrument without a byte resource, as the rest of the runtime sees it. -/
structure NativeInstrument where
  descriptor : InstrumentDescriptor
  signals : OrderedMap SignalId SignalBuffer
  deriving Repr

structure ThermalPlant extends NativeInstrument where
  heaterPercent : F64
  deriving Repr

def heaterPower : ParameterId := 2

/-! ### What left the owner -/

/-- A send that was started: at a simulation, or by the first byte a device adapter accepted. -/
structure Send where
  actuator : ActuatorId
  dispatch : DispatchId
  safe : Bool
  value : F64
  lease : Option OutputLease
  attempt : Option ℕ
  time : ℕ
  gate : RequiredGate
  overflowed : Bool
  deriving Repr

/-- A controller update that was proposed, with what it was computed from. -/
structure Calculation where
  controller : ControllerId
  output : ActuatorId
  sample : Sample
  referenceUnit : EngineeringUnit
  maxInputAge : ℕ
  maxTickGap : ℕ
  lastTick : ℕ
  lease : OutputLease
  update : PidUpdate
  ttl : ℕ
  time : ℕ
  deriving Repr

/-! ### The owner -/

/-- A byte resource: the executor and the adapter it owns. -/
structure Resource (σ : Type) where
  executor : ResourceExecutor
  adapter : σ

structure Runtime (σ : Type) where
  virtualInstruments : OrderedMap InstrumentId NativeInstrument
  thermalPlants : OrderedMap InstrumentId ThermalPlant
  managed : List NativeInstrument
  metakonInstruments : OrderedMap InstrumentId MetakonInstrument
  simpleDeviceInstruments : OrderedMap InstrumentId SimpleDeviceInstrument
  preparedSimpleDevices : List InstrumentId
  controllers : OrderedMap ControllerId NativeController
  outputs : OrderedMap ActuatorId OutputAuthority
  resources : OrderedMap ResourceId (Resource σ)
  pendingReads : OrderedMap TransactionKey PendingRead
  pendingSimpleReads : OrderedMap TransactionKey PendingSimpleRead
  pendingOutputWrites : OrderedMap TransactionKey PendingOutputWrite
  pendingOutputReadbacks : OrderedMap TransactionKey PendingOutputReadback
  unsettledOutputs : OrderedMap ResourceId (OutputIntent × DispatchId)
  outputTime : ℕ
  transportTime : ℕ
  recordingFacts : FactOutbox
  nextOutputAttempt : ℕ
  outputAttempts : OrderedMap ActuatorId ℕ
  outputDispatchAttempts : OrderedMap ActuatorId (DispatchId × ℕ)
  requiredRecording : RequiredGate
  /-- The process-wide counter of authority identities. -/
  nextInstance : ℕ
  /-- The sends so far, oldest first: a trace of the outside, not a field of the source. -/
  sends : List Send
  /-- The controller updates proposed so far with the attempt each was numbered by, a trace like `sends`. -/
  calculations : List (ℕ × Calculation)

/-- How a call ends without its result: a typed rejection, or a broken expectation. -/
inductive Abort
  | rejected (error : Error)
  | panicked
  deriving DecidableEq, Repr

/-- A call on the owner. -/
abbrev Step (σ : Type) := Procedure (Runtime σ) Abort

def reject {σ α : Type} (error : Error) : Step σ α := Procedure.stop (.rejected error)

/-- `expect` on a value that is not there. -/
def panicking {σ α : Type} : Step σ α := Procedure.stop .panicked

/-- The `?` operator on a plain result. -/
def attempt {σ α : Type} : Except Error α → Step σ α
  | .ok a => pure a
  | .error error => reject error

/-- Hand a typed rejection to the caller as a value. -/
def trying {σ α : Type} (x : Step σ α) : Step σ (Except Error α) := fun s =>
  match x.run s with
  | (.ok a, s) => (.ok (.ok a), s)
  | (.error (.rejected error), s) => (.ok (.error error), s)
  | (.error .panicked, s) => (.error .panicked, s)

/-- Go on after a rejection that the caller ignores. -/
def ignoring {σ α : Type} (x : Step σ α) : Step σ Unit := do
  let _ ← trying x

namespace Runtime

variable {σ : Type}

def empty (σ : Type) : Runtime σ :=
  { virtualInstruments := .empty, thermalPlants := .empty, managed := [], metakonInstruments := .empty,
    simpleDeviceInstruments := .empty, preparedSimpleDevices := [], controllers := .empty, outputs := .empty, resources := .empty, pendingReads := .empty,
    pendingSimpleReads := .empty, pendingOutputWrites := .empty, pendingOutputReadbacks := .empty,
    unsettledOutputs := .empty, outputTime := 0, transportTime := 0, recordingFacts := .empty,
    nextOutputAttempt := 0, outputAttempts := .empty, outputDispatchAttempts := .empty,
    requiredRecording := .default, nextInstance := 1, sends := [], calculations := [] }

/-! ### Lookups -/

/-- The managed component that publishes an instrument. -/
def managedInstrument (s : Runtime σ) (id : InstrumentId) : Option NativeInstrument :=
  s.managed.find? fun item => item.descriptor.id == id

def containsInstrument (s : Runtime σ) (id : InstrumentId) : Bool :=
  s.virtualInstruments.contains id || s.metakonInstruments.contains id || s.simpleDeviceInstruments.contains id ||
    s.thermalPlants.contains id || (s.managedInstrument id).isSome

def instrumentCount (s : Runtime σ) : ℕ :=
  s.virtualInstruments.size + s.metakonInstruments.size + s.simpleDeviceInstruments.size + s.thermalPlants.size +
    s.managed.length

/-- Whether an instrument is driven over a byte resource. -/
def physical (s : Runtime σ) (id : InstrumentId) : Bool :=
  s.metakonInstruments.contains id || s.simpleDeviceInstruments.contains id

def instrumentIsPrepared (s : Runtime σ) (id : InstrumentId) : Bool := s.preparedSimpleDevices.contains id

def activationDescriptor (s : Runtime σ) (id : InstrumentId) : Option InstrumentDescriptor :=
  ((s.virtualInstruments.get id).map fun i => i.descriptor).or
    (((s.metakonInstruments.get id).map fun i => i.descriptor).or
      (((s.simpleDeviceInstruments.get id).map fun i => i.descriptor).or
        (((s.thermalPlants.get id).map fun i => i.descriptor).or
          ((s.managedInstrument id).map fun i => i.descriptor))))

def descriptor (s : Runtime σ) (id : InstrumentId) : Option InstrumentDescriptor :=
  if s.instrumentIsPrepared id then none else s.activationDescriptor id

def outputUnit (s : Runtime σ) (actuator : ActuatorId) : Option EngineeringUnit :=
  ((s.descriptor actuator.instrument).bind fun d => d.parameter actuator.parameter).map ParameterDescriptor.unit

/-- The buffer of a published signal. -/
def signal (s : Runtime σ) (id : SignalId) : Option SignalBuffer :=
  if s.instrumentIsPrepared id.instrument then none
  else ((s.virtualInstruments.get id.instrument).bind fun i => i.signals.get id).or
    (((s.metakonInstruments.get id.instrument).bind fun i => i.signals.get id).or
      (((s.simpleDeviceInstruments.get id.instrument).bind fun i => i.signals.get id).or
        (((s.thermalPlants.get id.instrument).bind fun i => i.signals.get id).or
          ((s.managedInstrument id.instrument).bind fun i => i.signals.get id))))

/-- The current fence of a physical instrument. -/
def fence (s : Runtime σ) (id : InstrumentId) : Option BindingFence :=
  ((s.metakonInstruments.get id).map fun i => i.binding.fence).or
    ((s.simpleDeviceInstruments.get id).map fun i => i.binding.fence)

end Runtime
end LabRuntime
