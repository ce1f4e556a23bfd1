import LabRuntime.Deployment.LiveApply
import LabRuntime.Runtime.State

/-! Instruments without a byte resource: virtual instruments, and the simulated thermal plant. -/

namespace LabRuntime

open MovingMean (temperature)

/-! ### One window -/

namespace NativeInstrument

/-- The instrument with another window of a signal. -/
def withSignal (i : NativeInstrument) (id : SignalId) (signal : SignalBuffer) : NativeInstrument :=
  { i with signals := i.signals.insert id signal }

/-- The window of the temperature. -/
def temperatureSignal (i : NativeInstrument) : Option SignalBuffer := i.signals.get ⟨i.descriptor.id, temperature⟩

/-- Store one sample. -/
def pushTemperature (i : NativeInstrument) (sample : Sample) : Except Error NativeInstrument :=
  match i.temperatureSignal with
  | none => .error (.unknownSignal ⟨i.descriptor.id, temperature⟩)
  | some signal => (signal.push sample).map (i.withSignal ⟨i.descriptor.id, temperature⟩)

def parameter (i : NativeInstrument) (id : ParameterId) : Except Error ParameterDescriptor :=
  match i.descriptor.parameter id with
  | none => .error (.unknownParameter i.descriptor.id id)
  | some parameter => .ok parameter

/-- A measured parameter and its signal. -/
def measured (i : NativeInstrument) (id : ParameterId) : Except Error (ParameterDescriptor × SignalId) := do
  let descriptor ← i.parameter id
  if descriptor.role ≠ .measurement then .error (.operationNotAllowed id)
  else match descriptor.signal with
    | none => .error (.operationNotAllowed id)
    | some signal => .ok (descriptor, signal)

/-- Nothing was attempted at or after `now`. -/
def checkTime (i : NativeInstrument) (now : ℕ) : Except Error Unit :=
  match i.temperatureSignal with
  | none => .error (.unknownSignal ⟨i.descriptor.id, temperature⟩)
  | some signal => signal.checkTime now

end NativeInstrument

/-! ### Virtual instruments -/

namespace VirtualInstrument

def baseTemperature : ParameterId := 3
def measurementEnabled : ParameterId := 4

structure Config where
  id : InstrumentId
  name : String
  historyCapacity : ℕ
  baseTemperature : F64
  measurementEnabled : Bool
  deriving Repr

/-- The configured values of the generator. -/
structure Settings where
  baseTemperature : F64
  measurementEnabled : Bool
  deriving DecidableEq, Repr

def baseSpec : ValueSpec := .float (F64.ofInt (-100)) (F64.ofInt 100)

def parameters (id : InstrumentId) : List ParameterDescriptor :=
  [{ id := temperature
     name := "temperature"
     valueSpec := .float (F64.ofInt (-100)) (F64.ofInt 110)
     unit := .celsius
     access := .readOnly
     role := .measurement
     writeEffect := .none
     signal := some ⟨id, temperature⟩ },
   { id := heaterPower
     name := "heater_power"
     valueSpec := .float (F64.ofInt 0) (F64.ofInt 100)
     unit := .percent
     access := .readWrite
     role := .actuator
     writeEffect := .outputAffecting
     signal := none },
   { id := baseTemperature
     name := "base_temperature"
     valueSpec := baseSpec
     unit := .celsius
     access := .readWrite
     role := .configuration
     writeEffect := .configurationOnly
     signal := none },
   { id := measurementEnabled
     name := "measurement_enabled"
     valueSpec := .boolean
     unit := .unitless
     access := .readWrite
     role := .configuration
     writeEffect := .configurationOnly
     signal := none }]

def new (config : Config) : Except Error (NativeInstrument × Settings) := do
  validateName config.name
  baseSpec.validate (.float config.baseTemperature)
  (parameters config.id).forM ParameterDescriptor.validateDefinition
  let signal ← SignalBuffer.new ⟨config.id, temperature⟩ config.historyCapacity
  return ({ descriptor := { id := config.id, name := config.name, parameters := parameters config.id }
            signals := OrderedMap.empty.insert ⟨config.id, temperature⟩ signal },
          { baseTemperature := config.baseTemperature, measurementEnabled := config.measurementEnabled })

/-- The settings with another value of a configuration parameter. -/
def assign (settings : Settings) (parameter : ParameterId) (value : Value) : Except Error Settings :=
  match value with
  | .float value =>
    if parameter = baseTemperature then .ok { settings with baseTemperature := value } else .error (.operationNotAllowed parameter)
  | .boolean value =>
    if parameter = measurementEnabled then .ok { settings with measurementEnabled := value }
    else .error (.operationNotAllowed parameter)
  | _ => .error (.operationNotAllowed parameter)

def configure (i : NativeInstrument) (settings : Settings) (parameter : ParameterId) (value : Value) : Except Error Settings := do
  let descriptor ← i.parameter parameter
  Checks.reject (descriptor.access = .readOnly) (.readOnlyParameter parameter)
  Checks.reject (descriptor.role ≠ .configuration ∨ descriptor.writeEffect ≠ .configurationOnly) (.operationNotAllowed parameter)
  descriptor.valueSpec.validate value
  assign settings parameter value

/-- A sawtooth of ten seconds over the baseline. -/
def generated (settings : Settings) (now : ℕ) : F64 :=
  settings.baseTemperature.add ((F64.ofInt ((now / 10 ^ 6 % 10000 : ℕ) : ℤ)).div (F64.ofInt 1000))

/-- The attempt of a refresh: the sample that is stored, and whether it is an error as well. -/
def attempt (i : NativeInstrument) (settings : Settings) (parameter : ParameterId) (now : ℕ) :
    Except Error (Sample × Option Error) := do
  let (descriptor, signal) ← i.measured parameter
  i.checkTime now
  if settings.measurementEnabled then
    return (.good signal descriptor.unit now (.float (generated settings now)), none)
  else
    return (.unavailable signal descriptor.unit now .disabled, some (.measurementUnavailable signal .disabled))

def refresh (i : NativeInstrument) (settings : Settings) (parameter : ParameterId) (now : ℕ) :
    Except Error Sample × NativeInstrument :=
  match attempt i settings parameter now with
  | .error error => (.error error, i)
  | .ok (sample, failure) =>
    match i.pushTemperature sample with
    | .error error => (.error error, i)
    | .ok stored => (match failure with | some error => .error error | none => .ok sample, stored)

/-- The sample of an externally supplied value. -/
def supplied (descriptor : ParameterDescriptor) (signal : SignalId) (now : ℕ) (value : Option Value) : Except Error Sample :=
  match value with
  | none => .ok (.unavailable signal descriptor.unit now .disabled)
  | some value => do
    descriptor.valueSpec.validate value
    return .good signal descriptor.unit now value

def publish (i : NativeInstrument) (parameter : ParameterId) (now : ℕ) (value : Option Value) :
    Except Error (Sample × NativeInstrument) := do
  let (descriptor, signal) ← i.measured parameter
  i.checkTime now
  let sample ← supplied descriptor signal now value
  let stored ← i.pushTemperature sample
  return (sample, stored)

end VirtualInstrument

/-! ### Thermal plants -/

/-- The simulated plant behind an instrument. -/
structure PlantModel where
  generation : ℕ
  ambientTemperature : F64
  gainPerPercent : F64
  timeConstant : ℕ
  temperature : F64
  lastAt : Option ℕ
  deriving DecidableEq, Repr

/-- `Duration::as_secs_f64`. -/
def asSecs (d : ℕ) : F64 :=
  (F64.ofInt ((d / 10 ^ 9 : ℕ) : ℤ)).add ((F64.ofInt ((d % 10 ^ 9 : ℕ) : ℤ)).div (F64.ofInt (10 ^ 9)))

namespace PlantModel

open Deployment (ThermalPlantConfig inPlantRange thermalParameters)

def new (config : ThermalPlantConfig) : Except Error (ThermalPlant × PlantModel) := do
  validateName config.name
  Checks.reject (config.ambientTemperature.isFinite = false ∨ config.initialTemperature.isFinite = false ∨
      config.gainPerPercent.isFinite = false ∨ config.gainPerPercent ≤ F64.zero ∨ config.timeConstant = 0 ∨
      ¬ inPlantRange config.initialTemperature ∨ ¬ inPlantRange config.ambientTemperature)
    (.invalidConfiguration "invalid thermal plant")
  (thermalParameters config.id).forM ParameterDescriptor.validateDefinition
  let signal ← SignalBuffer.new ⟨config.id, MovingMean.temperature⟩ config.historyCapacity
  return ({ descriptor := { id := config.id, name := config.name, parameters := thermalParameters config.id }
            signals := OrderedMap.empty.insert ⟨config.id, MovingMean.temperature⟩ signal
            heaterPercent := F64.zero },
          { generation := 1
            ambientTemperature := config.ambientTemperature
            gainPerPercent := config.gainPerPercent
            timeConstant := config.timeConstant
            temperature := config.initialTemperature
            lastAt := none })

/-- The temperature at `now`: a first-order approach to the equilibrium of the heater. `expM1` is that of the platform. -/
def candidate (expM1 : F64 → F64) (id : InstrumentId) (model : PlantModel) (heaterPercent : F64) (now : ℕ) : Except Error F64 :=
  match model.lastAt with
  | none => .ok model.temperature
  | some previous =>
    if now ≤ previous then .error (.nonMonotonicTime ⟨id, MovingMean.temperature⟩ previous now)
    else
      let alpha := (expM1 ((asSecs (now - previous)).neg.div (asSecs model.timeConstant))).neg
      let equilibrium := model.ambientTemperature.add (model.gainPerPercent.mul heaterPercent)
      .ok (model.temperature.add (alpha.mul (equilibrium.sub model.temperature)))

def refresh (expM1 : F64 → F64) (plant : ThermalPlant) (model : PlantModel) (now : ℕ) :
    Except Error (Sample × ThermalPlant × PlantModel) := do
  plant.checkTime now
  let value ← candidate expM1 plant.descriptor.id model plant.heaterPercent now
  Checks.reject (value.isFinite = false ∨ ¬ inPlantRange value) (.invalidConfiguration "thermal plant produced invalid temperature")
  let sample := Sample.good ⟨plant.descriptor.id, MovingMean.temperature⟩ .celsius now (.float value)
  let stored ← plant.toNativeInstrument.pushTemperature sample
  return (sample, { plant with toNativeInstrument := stored }, { model with temperature := value, lastAt := some now })

/-- A trusted failure: it invalidates the latest sample, or is the first. -/
def injectFailure (plant : ThermalPlant) (now : ℕ) : Except Error (Sample × ThermalPlant) :=
  let id : SignalId := ⟨plant.descriptor.id, MovingMean.temperature⟩
  match plant.temperatureSignal with
  | none => .error (.unknownSignal id)
  | some signal =>
    match signal.latest with
    | none => do
      let sample := Sample.unavailable id .celsius now .transport
      let stored ← plant.toNativeInstrument.pushTemperature sample
      return (sample, { plant with toNativeInstrument := stored })
    | some latest => do
      (signal.invalidate now .transport).1
      let signal := (signal.invalidate now .transport).2
      return (signal.latest.getD latest, { plant with toNativeInstrument := plant.withSignal id signal })

end PlantModel
end LabRuntime
