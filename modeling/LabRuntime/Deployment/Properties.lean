import LabRuntime.Deployment.Structure

/-! The published property records, and the document that differs in the value of one of them. -/

namespace LabRuntime.Deployment

open LabRuntime

inductive PropertyOwnerKind
  | resource | instrument | component
  deriving DecidableEq, Repr

structure PropertyOwner where
  kind : PropertyOwnerKind
  id : ℕ
  deriving DecidableEq, Repr

inductive PropertyType
  | scalar (type : ScalarType)
  | numberArray
  deriving DecidableEq, Repr

inductive PropertyValue
  | text (value : String)
  | integer (value : ℤ)
  | number (value : F64)
  | boolean (value : Bool)
  | array (values : List TomlValue)

inductive PropertyConstraints
  | integer (minimum maximum : ℤ)
  | number (minimum maximum : F64)
  deriving DecidableEq, Repr

inductive PropertyAccess
  | readOnly | readWrite | deploymentOnly
  deriving DecidableEq, Repr

structure PropertyRecord where
  owner : PropertyOwner
  property : String
  valueType : PropertyType
  current : PropertyValue
  unit : Option (String × String)
  access : PropertyAccess
  mutationClass : MutationClass
  constraints : Option PropertyConstraints
  revision : ℕ

/-! ### Projection -/

structure InstrumentPropertyMetadata where
  id : String
  valueType : ScalarType
  current : PropertyValue
  unit : Option (String × String)
  access : PropertyAccess
  mutation : MutationClass
  constraints : Option PropertyConstraints

def milliseconds : String × String := ("ms", "ms")
def celsius : String × String := ("degC", "°C")

def displayNameMetadata (displayName : String) : InstrumentPropertyMetadata :=
  { id := "display_name"
    valueType := .text
    current := .text displayName
    unit := none
    access := .readWrite
    mutation := .liveSafe
    constraints := none }

def pollPeriodMetadata (pollPeriodMs : ℕ) (minimum : ℤ) : InstrumentPropertyMetadata :=
  { id := "poll_period_ms"
    valueType := .integer
    current := .integer pollPeriodMs
    unit := some milliseconds
    access := .readWrite
    mutation := .ordinaryLive
    constraints := some (.integer minimum 60000) }

def reinitializeMetadata (id : String) (valueType : ScalarType) (current : PropertyValue) (unit : Option (String × String))
    (access : PropertyAccess) (constraints : Option PropertyConstraints) : InstrumentPropertyMetadata :=
  { id := id
    valueType := valueType
    current := current
    unit := unit
    access := access
    mutation := .reinitialization
    constraints := constraints }

def InstrumentDto.propertyMetadata : InstrumentDto → List InstrumentPropertyMetadata
  | .virtualMeasurement v =>
    [displayNameMetadata v.displayName,
      pollPeriodMetadata v.pollPeriodMs 1,
      reinitializeMetadata "base_temperature" .number (.number v.baseTemperature) none .deploymentOnly
        (some (.number (F64.ofInt (-100)) (F64.ofInt 100))),
      reinitializeMetadata "measurement_enabled" .boolean (.boolean v.measurementEnabled) none .deploymentOnly none,
      reinitializeMetadata "external_publication" .boolean (.boolean v.externalPublication) none .readOnly none]
  | .thermalPlant t =>
    [displayNameMetadata t.displayName,
      pollPeriodMetadata t.pollPeriodMs 1,
      reinitializeMetadata "ambient_temperature" .number (.number t.ambientTemperature) (some celsius) .deploymentOnly none,
      reinitializeMetadata "initial_temperature" .number (.number t.initialTemperature) (some celsius) .deploymentOnly none,
      reinitializeMetadata "gain_per_percent" .number (.number t.gainPerPercent) none .deploymentOnly none,
      reinitializeMetadata "time_constant_ms" .number (.integer t.timeConstantMs) (some milliseconds) .deploymentOnly none]
  | .metakon m => [pollPeriodMetadata m.pollPeriodMs 1]
  | .simpleDevice s => [pollPeriodMetadata s.pollPeriodMs 10]

def projectInstrumentProperty (owner : PropertyOwner) (revision : ℕ) (metadata : InstrumentPropertyMetadata) : PropertyRecord :=
  { owner := owner
    property := metadata.id
    valueType := .scalar metadata.valueType
    current := metadata.current
    unit := metadata.unit
    access := metadata.access
    mutationClass := metadata.mutation
    constraints := metadata.constraints
    revision := revision }

def projectInstrumentProperties (revision : ℕ) (i : InstrumentDto) : List PropertyRecord :=
  i.propertyMetadata.map (projectInstrumentProperty ⟨.instrument, i.id⟩ revision)

/-- The inferred type of a configured value and the value, for those that are projected. -/
def projectTomlValue : TomlValue → Option (PropertyType × PropertyValue)
  | .integer value => some (.scalar .integer, .integer value)
  | .float value => some (.scalar .number, .number value)
  | .boolean value => some (.scalar .boolean, .boolean value)
  | .string value => some (.scalar .text, .text value)
  | .array values => some (.numberArray, .array values)
  | _ => none

def componentProperty (c : ManagedComponentDto) (revision : ℕ) (entry : String × TomlValue) : Option PropertyRecord :=
  (projectTomlValue entry.2).map fun inferred =>
    let metadata := (componentPropertyMetadata c.implementation).find? fun metadata => metadata.id == entry.1
    { owner := ⟨.component, c.id⟩
      property := entry.1
      valueType := (metadata.map fun metadata => PropertyType.scalar metadata.valueType).getD inferred.1
      current := inferred.2
      unit := if entry.1 = "poll_period_ms" ∨ entry.1 = "period_ms" then some milliseconds else none
      access := .deploymentOnly
      mutationClass := (metadata.map ComponentPropertyMetadata.mutationClass).getD .reinitialization
      constraints := metadata.bind fun metadata => do
        let minimum ← metadata.minimum
        let maximum ← metadata.maximum
        return .integer minimum maximum
      revision := revision }

def componentProperties (revision : ℕ) (c : ManagedComponentDto) : List PropertyRecord :=
  { owner := ⟨.component, c.id⟩
    property := "period_ms"
    valueType := .scalar .integer
    current := .integer c.periodMs
    unit := some milliseconds
    access := .deploymentOnly
    mutationClass := .reinitialization
    constraints := some (.integer 1 60000)
    revision := revision } :: c.config.entries.filterMap (componentProperty c revision)

def resourceProperty (r : ResourceDto) (revision : ℕ) (property : String) (valueType : ScalarType) (current : PropertyValue)
    (access : PropertyAccess) : PropertyRecord :=
  { owner := ⟨.resource, r.id⟩
    property := property
    valueType := .scalar valueType
    current := current
    unit := none
    access := access
    mutationClass := .rebindRequired
    constraints := none
    revision := revision }

def resourceProperties (revision : ℕ) (r : ResourceDto) : List PropertyRecord :=
  [resourceProperty r revision "port" .text (.text r.port) .readOnly,
    resourceProperty r revision "baud_rate" .integer (.integer r.baudRate) .deploymentOnly]

def propertyRecordLimit : ℕ := 256

/-- All records, in the order of their texts. -/
def propertyRecords (text : PropertyRecord → String) (dto : DeploymentDto) (revision : ℕ) : Except String (List PropertyRecord) :=
  let records := dto.resources.flatMap (resourceProperties revision) ++
    dto.instruments.flatMap (projectInstrumentProperties revision) ++
    dto.managedComponents.flatMap (componentProperties revision)
  if propertyRecordLimit < records.length then .error "configuration_capacity"
  else .ok (records.mergeSort fun a b => decide (text a ≤ text b))

/-! ### Values of a record -/

def PropertyType.holds : PropertyType → PropertyValue → Bool
  | .scalar .text, .text _ => true
  | .scalar .integer, .integer _ => true
  | .scalar .number, .integer _ => true
  | .scalar .number, .number _ => true
  | .scalar .boolean, .boolean _ => true
  | .numberArray, .array _ => true
  | _, _ => false

def PropertyConstraints.holds : PropertyConstraints → PropertyValue → Bool
  | .integer minimum maximum, .integer value => decide (minimum ≤ value) && decide (value ≤ maximum)
  | .integer minimum maximum, .number value => decide (F64.ofInt minimum ≤ value) && decide (value ≤ F64.ofInt maximum)
  | .number minimum maximum, .integer value => decide (minimum ≤ F64.ofInt value) && decide (F64.ofInt value ≤ maximum)
  | .number minimum maximum, .number value => decide (minimum ≤ value) && decide (value ≤ maximum)
  | _, _ => true

/-- A value of the record's type within its constraints. -/
def PropertyRecord.allows (r : PropertyRecord) (value : PropertyValue) : Bool :=
  r.valueType.holds value && r.constraints.all fun constraints => constraints.holds value

/-! ### Edits -/

/-- An unsigned field: integers of a document are signed 64-bit numbers, and no float is read as one. -/
def PropertyValue.unsigned? : PropertyValue → Option ℕ
  | .integer value => if 0 ≤ value ∧ value < 2 ^ 63 then some value.toNat else none
  | _ => none

def PropertyValue.float? : PropertyValue → Option F64
  | .integer value => some (F64.ofInt value)
  | .number value => some value
  | _ => none

def PropertyValue.text? : PropertyValue → Option String
  | .text value => some value
  | _ => none

def PropertyValue.bool? : PropertyValue → Option Bool
  | .boolean value => some value
  | _ => none

def PropertyValue.toml : PropertyValue → TomlValue
  | .text value => .string value
  | .integer value => .integer value
  | .number value => .float value
  | .boolean value => .boolean value
  | .array values => .array values

def InstrumentDto.withPollPeriod (period : ℕ) : InstrumentDto → InstrumentDto
  | .virtualMeasurement v => .virtualMeasurement { v with pollPeriodMs := period }
  | .thermalPlant t => .thermalPlant { t with pollPeriodMs := period }
  | .metakon m => .metakon { m with pollPeriodMs := period }
  | .simpleDevice s => .simpleDevice { s with pollPeriodMs := period }

/-- The instrument with one field set, where the document can hold the value there. -/
def InstrumentDto.withProperty (i : InstrumentDto) (property : String) (value : PropertyValue) : Option InstrumentDto :=
  if property = "poll_period_ms" then value.unsigned?.map fun period => i.withPollPeriod period
  else
    match i with
    | .virtualMeasurement v =>
      if property = "display_name" then value.text?.map fun x => .virtualMeasurement { v with displayName := x }
      else if property = "base_temperature" then value.float?.map fun x => .virtualMeasurement { v with baseTemperature := x }
      else if property = "measurement_enabled" then value.bool?.map fun x => .virtualMeasurement { v with measurementEnabled := x }
      else if property = "external_publication" then value.bool?.map fun x => .virtualMeasurement { v with externalPublication := x }
      else none
    | .thermalPlant t =>
      if property = "display_name" then value.text?.map fun x => .thermalPlant { t with displayName := x }
      else if property = "ambient_temperature" then value.float?.map fun x => .thermalPlant { t with ambientTemperature := x }
      else if property = "initial_temperature" then value.float?.map fun x => .thermalPlant { t with initialTemperature := x }
      else if property = "gain_per_percent" then value.float?.map fun x => .thermalPlant { t with gainPerPercent := x }
      else if property = "time_constant_ms" then value.unsigned?.map fun x => .thermalPlant { t with timeConstantMs := x }
      else none
    | _ => none

def ManagedComponentDto.withProperty (c : ManagedComponentDto) (property : String) (value : PropertyValue) :
    Option ManagedComponentDto :=
  if property = "period_ms" then value.unsigned?.map fun period => { c with periodMs := period }
  else if c.config.contains property then some { c with config := c.config.insert property value.toml }
  else none

/-- Replace the first element that meets a test, where it can be replaced. -/
def editFirst {α : Type} (test : α → Bool) (edit : α → Option α) : List α → Option (List α)
  | [] => none
  | x :: xs => if test x then (edit x).map (· :: xs) else (editFirst test edit xs).map (x :: ·)

/-- The document that differs in the value of one property of an instrument or a component. -/
def DeploymentDto.edit (dto : DeploymentDto) (owner : PropertyOwner) (property : String) (value : PropertyValue) :
    Option DeploymentDto :=
  match owner.kind with
  | .resource => none
  | .instrument =>
    (editFirst (fun i => i.id == owner.id) (fun i => i.withProperty property value) dto.instruments).map fun instruments =>
      { dto with instruments := instruments }
  | .component =>
    (editFirst (fun c => c.id == owner.id) (fun c => c.withProperty property value) dto.managedComponents).map fun components =>
      { dto with managedComponents := components }

end LabRuntime.Deployment
