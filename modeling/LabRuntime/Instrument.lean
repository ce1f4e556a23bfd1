import LabRuntime.Metakon
import LabRuntime.Signal
import LabRuntime.Transport.Executor

/-! Metakon instruments: a validated definition of known operations beside a physical binding. -/

namespace LabRuntime

open Metakon

def maxDefinitionParameters : ℕ := 16

inductive KnownOperation
  | channelType | temperature | output
  deriving DecidableEq, Repr

def KnownOperation.register : KnownOperation → UInt8
  | .channelType => 0
  | .temperature => 1
  | .output => 6

structure DataParameterDefinition where
  id : ParameterId
  name : String
  valueSpec : ValueSpec
  unit : EngineeringUnit
  access : AccessMode
  role : ParameterRole
  writeEffect : WriteEffect
  operation : KnownOperation
  scale : F64
  deriving Repr

structure DataInstrumentDefinition where
  schemaVersion : ℕ
  id : InstrumentId
  name : String
  parameters : List DataParameterDefinition
  deriving Repr

/-- Deployment binding: the resource, its address and the two completion fences. -/
structure MetakonBinding where
  resource : ResourceId
  device : UInt8
  channel : UInt8
  bindingGeneration : ℕ
  mappingRevision : ℕ
  expectedOutputUnit : Option EngineeringUnit
  outputQueueTtl : Option ℕ
  outputTimeout : Option ℕ
  deriving Repr

structure MetakonInstrumentConfig where
  definition : DataInstrumentDefinition
  binding : MetakonBinding
  historyCapacity : ℕ
  deriving Repr

structure MetakonInstrument where
  descriptor : InstrumentDescriptor
  definition : DataInstrumentDefinition
  binding : MetakonBinding
  signals : OrderedMap SignalId SignalBuffer
  deriving Repr

def validateOperation (p : DataParameterDefinition) : Except Error Unit :=
  let valid : Bool := match p.operation with
    | .channelType =>
      p.valueSpec.valueType == .integer && p.unit == .unitless && p.access == .readOnly &&
        p.role == .diagnostic && p.writeEffect == .none && p.scale == F64.ofInt 1
    | .temperature =>
      p.valueSpec.valueType == .float && p.access == .readOnly && p.role == .measurement &&
        p.writeEffect == .none
    | .output =>
      p.valueSpec.valueType == .float && (p.access == .readWrite || p.access == .writeOnly) &&
        p.role == .actuator && p.writeEffect == .outputAffecting && p.scale == F64.ofInt 1
  if valid then .ok ()
  else .error (.invalidConfiguration "parameter metadata conflicts with known operation")

namespace DataInstrumentDefinition

def describeParameter (instrument : InstrumentId) (p : DataParameterDefinition) : Except Error ParameterDescriptor := do
  if !p.scale.isFinite || decide (p.scale ≤ F64.zero) then
    throw (.invalidConfiguration "operation scale must be finite and positive")
  validateOperation p
  let descriptor : ParameterDescriptor :=
    { id := p.id, name := p.name, valueSpec := p.valueSpec, unit := p.unit, access := p.access, role := p.role,
      writeEffect := p.writeEffect
      signal := if p.role.observed then some { instrument := instrument, parameter := p.id } else none }
  descriptor.validateDefinition
  return descriptor

/-- The loop over the parameters; `seen` are those before it. -/
def describeParameters (instrument : InstrumentId) (seen : List DataParameterDefinition) :
    List DataParameterDefinition → Except Error (List ParameterDescriptor)
  | [] => .ok []
  | p :: rest => do
    if seen.any (fun q => q.id == p.id || q.operation == p.operation) then
      throw (.invalidConfiguration "duplicate parameter identity or operation")
    let descriptor ← describeParameter instrument p
    let descriptors ← describeParameters instrument (seen ++ [p]) rest
    return descriptor :: descriptors

def validateAndDescribe (d : DataInstrumentDefinition) : Except Error InstrumentDescriptor := do
  if d.schemaVersion ≠ 1 then
    throw (.invalidConfiguration "unsupported instrument definition version")
  validateName d.name
  if d.parameters.isEmpty || decide (d.parameters.length > maxDefinitionParameters) then
    throw (.invalidConfiguration "definition parameter count must be in 1..=16")
  let parameters ← describeParameters d.id [] d.parameters
  return { id := d.id, name := d.name, parameters := parameters }

def parameterDefinition (d : DataInstrumentDefinition) (id : ParameterId) : Option DataParameterDefinition :=
  d.parameters.find? fun parameter => parameter.id == id

end DataInstrumentDefinition

def validOutputDuration (value : ℕ) : Bool := value != 0 && decide (value ≤ maxTransactionDuration)

/-- One empty buffer for every signal of a descriptor. -/
def newSignals (signals : List (SignalId × EngineeringUnit)) (capacity : ℕ) :
    Except Error (OrderedMap SignalId SignalBuffer) :=
  signals.foldlM (fun buffers (signal, _) => do
    let buffer ← SignalBuffer.new signal capacity
    return buffers.insert signal buffer) OrderedMap.empty

def MetakonInstrument.new (config : MetakonInstrumentConfig) : Except Error MetakonInstrument := do
  if config.binding.bindingGeneration = 0 ∨ config.binding.mappingRevision = 0 then
    throw (.invalidConfiguration "binding generation and mapping revision must be nonzero")
  let descriptor ← config.definition.validateAndDescribe
  let binding := config.binding
  let consistent : Bool := match descriptor.actuators, binding.expectedOutputUnit with
    | [], none => binding.outputQueueTtl.isNone && binding.outputTimeout.isNone
    | [output], some expected =>
      output.unit == expected && binding.outputQueueTtl.any validOutputDuration &&
        binding.outputTimeout.any validOutputDuration
    | _, _ => false
  if !consistent then
    throw (.invalidConfiguration "output binding unit/timing does not match descriptor")
  let signals ← newSignals descriptor.signals config.historyCapacity
  return { descriptor := descriptor, definition := config.definition, binding := binding, signals := signals }

end LabRuntime
