import LabRuntime.Lib.OrderedMap
import LabRuntime.Output.Basic

/-! Parameter and instrument metadata. Descriptors are data, not device drivers or permissions. -/

namespace LabRuntime

instance : LinearOrder SignalId :=
  LinearOrder.lift' (fun id => toLex (id.instrument, id.parameter)) fun a b h => by
    cases a; cases b; simpa using h

instance : LinearOrder ActuatorId :=
  LinearOrder.lift' (fun id => toLex (id.instrument, id.parameter)) fun a b h => by
    cases a; cases b; simpa using h

inductive AccessMode
  | readOnly | readWrite | writeOnly
  deriving DecidableEq, Repr

inductive ParameterRole
  | measurement | configuration | actuator | action | diagnostic
  deriving DecidableEq, Repr

/-- The roles of a parameter that is only observed. -/
def ParameterRole.observed : ParameterRole → Bool
  | .measurement | .diagnostic => true
  | _ => false

inductive WriteEffect
  | none | configurationOnly | outputAffecting
  deriving DecidableEq, Repr

structure ParameterDescriptor where
  id : ParameterId
  name : String
  valueSpec : ValueSpec
  unit : EngineeringUnit
  access : AccessMode
  role : ParameterRole
  writeEffect : WriteEffect
  signal : Option SignalId
  deriving Repr

structure InstrumentDescriptor where
  id : InstrumentId
  name : String
  parameters : List ParameterDescriptor
  deriving Repr

def InstrumentDescriptor.parameter (d : InstrumentDescriptor) (id : ParameterId) : Option ParameterDescriptor :=
  d.parameters.find? fun parameter => parameter.id == id

def InstrumentDescriptor.actuators (d : InstrumentDescriptor) : List ParameterDescriptor :=
  d.parameters.filter fun parameter => parameter.role == .actuator

/-- The signals of an instrument and their units, in descriptor order. -/
def InstrumentDescriptor.signals (d : InstrumentDescriptor) : List (SignalId × EngineeringUnit) :=
  d.parameters.filterMap fun parameter => parameter.signal.map fun signal => (signal, parameter.unit)

def validateName (name : String) : Except Error Unit :=
  if isBlank name || decide (name.utf8ByteSize > maxNameBytes) then
    .error (.invalidConfiguration "name must be nonblank and at most 128 UTF-8 bytes")
  else .ok ()

def ParameterDescriptor.validateDefinition (p : ParameterDescriptor) : Except Error Unit := do
  validateName p.name
  p.valueSpec.validateDefinition
  let numeric := p.valueSpec.valueType == .float || p.valueSpec.valueType == .integer
  if p.unit != .unitless && !numeric then
    throw (.invalidConfiguration "non-numeric parameter must be unitless")
  let effectValid := match p.access with
    | .readOnly => p.writeEffect == .none
    | _ => p.writeEffect != .none
  if !effectValid ||
      (p.role == .actuator && p.access != .readOnly && p.writeEffect != .outputAffecting) ||
      (p.writeEffect == .configurationOnly && p.role != .configuration) then
    throw (.invalidConfiguration "inconsistent role/access/write effect")
  if let some signal := p.signal then
    let readableObservation := p.role.observed && p.access != .writeOnly
    let readableActuator :=
      p.role == .actuator && p.access == .readWrite && p.writeEffect == .outputAffecting
    if signal.parameter != p.id || (!readableObservation && !readableActuator) then
      throw (.invalidConfiguration "invalid measurement signal binding")

end LabRuntime
