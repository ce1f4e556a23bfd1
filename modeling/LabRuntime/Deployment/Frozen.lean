import LabRuntime.Deployment.Structure
import LabRuntime.Instrument
import LabRuntime.Simple.Compiler

/-! A frozen deployment: its document beside the artifacts it names, and the check of the two together. -/

namespace LabRuntime.Deployment

open LabRuntime

inductive ArtifactKind
  | instrumentDefinition | simpleDeviceDefinition
  deriving DecidableEq, Repr

structure FrozenArtifact where
  kind : ArtifactKind
  declaredPath : PathBuf
  bytes : List UInt8
  sha256 : List UInt8
  deriving Repr

structure FrozenDeployment where
  base : PathBuf
  tomlBytes : List UInt8
  tomlHash : List UInt8
  dto : DeploymentDto
  artifacts : List FrozenArtifact
  simpleDefinitions : List (PathBuf × Simple.CompiledSimpleDefinition)

/-- What the deployment reads through other libraries: a definition out of its JSON text, and a number as a text. -/
structure Outside where
  parseDefinition : List UInt8 → Except String DataInstrumentDefinition
  display : F64 → String

def resolveArtifact (base declared : PathBuf) : Checked PathBuf := do
  refuse (declared.text = "") "empty artifact path"
  refuse ((base.join declared).traversesParent = true) "artifact path may not contain parent traversal"
  return base.join declared

/-! ### Simple devices -/

/-- The definitions met by identity, and the instances compiled from them with their resource. -/
structure SimpleSeen where
  identities : List ((String × ℕ) × List UInt8)
  instances : List (ℕ × Simple.CompiledSimpleInstance)

def haltMessage : Simple.Halt → String
  | .refused message => message
  | .panicked => ""

/-- The safe profile of an actuator lies in its range and its safe value can be encoded. -/
def checkActuator (resources : List ResourceDto) (safeProfiles : List SafeProfileDto) (s : SimpleDeviceDto)
    (actuator : SimpleParameterConfig) : Checked Unit := do
  refuse ((resources.find? fun r => r.id == s.resourceId).any (·.kind ≠ .windowsCom) = true)
    "writable simple device requires windows_com resource"
  match safeProfiles.find? fun safe => safe.instrumentId == s.id && safe.parameterId == actuator.descriptor.id with
  | none => .error (.invalid "writable simple device lacks safe profile")
  | some safe => do
    [safe.min, safe.max, safe.safeValue].forM fun value =>
      (actuator.descriptor.valueSpec.validate (.float value)).mapError fun _ =>
        .invalid "simple-device safe profile exceeds actuator range"
    refuse ((actuator.write.any fun write => (write.encode safe.safeValue).isNone) = true)
      "simple-device safe value is not exactly encodable"
    refuse (safe.requiredEvidence = .readback ∧ (actuator.write.any fun write => write.readback.isNone) = true)
      "simple-device readback evidence lacks readback plan"

def isFloatSpec : ValueSpec → Bool
  | .float _ _ => true
  | _ => false

def checkSimpleController (references : List ReferenceDto) (s : SimpleDeviceDto) (instance_ : Simple.CompiledSimpleInstance)
    (c : ControllerDto) : Checked Unit := do
  if c.inputInstrumentId = s.id then
    match instance_.parameters.find? fun parameter => parameter.descriptor.id == c.inputParameterId with
    | none => .error (.invalid "unknown simple-device controller input")
    | some input =>
      refuse (input.descriptor.role ≠ .measurement ∨ input.descriptor.signal.isNone = true ∨
          isFloatSpec input.descriptor.valueSpec = false ∨
          (references.find? fun reference => reference.id == c.referenceId).any (·.unitId != input.descriptor.unit.id) = true)
        "simple-device controller input metadata mismatch"
  refuse (c.outputInstrumentId = s.id ∧ (instance_.parameters.all fun parameter =>
      parameter.descriptor.id ≠ c.outputParameterId ∨ parameter.descriptor.role ≠ .actuator) = true)
    "controller output is not the simple-device actuator"

def checkFrozenSimple (base : PathBuf) (definitions : List (PathBuf × Simple.CompiledSimpleDefinition)) (resources : List ResourceDto) (references : List ReferenceDto)
    (controllers : List ControllerDto) (safeProfiles : List SafeProfileDto) (seen : SimpleSeen) :
    InstrumentDto → Checked SimpleSeen
  | .simpleDevice s => do
    let path ← resolveArtifact base s.definition
    match definitions.find? fun entry => entry.1 == path with
    | none => .error (.invalidArtifact "frozen simple definition missing")
    | some (_, compiled) => do
      let identity := (compiled.definitionId, compiled.definitionVersion)
      if ((seen.identities.lookup identity).any (· ≠ compiled.canonical)) = true then
        .error (.invalidArtifact "simple definition ID/version has conflicting normalized content")
      let instance_ ← (Simple.compileSimpleInstance compiled s.id s.address s.channel).mapError fun halt =>
        ConfigurationError.artifactText (haltMessage halt)
      let actuator := instance_.parameters.find? fun parameter => parameter.descriptor.role == .actuator
      refuse ((safeProfiles.any (·.instrumentId = s.id)) = true ∧ actuator.isNone = true)
        "simple-device safe profile does not target an actuator"
      match actuator with
      | none => pure ()
      | some actuator => checkActuator resources safeProfiles s actuator
      controllers.forM (checkSimpleController references s instance_)
      return ⟨(identity, compiled.canonical) :: seen.identities, seen.instances ++ [(s.resourceId, instance_)]⟩
  | _ => .ok seen

/-- Instances on one resource answer in ways that tell them apart. -/
def checkCorrelations : List (ℕ × Simple.CompiledSimpleInstance) → Checked Unit
  | [] => .ok ()
  | left :: rest => do
    rest.forM fun right =>
      refuse (left.1 = right.1 ∧ (left.2.correlations.all fun leftPlan => right.2.correlations.all fun rightPlan =>
          Simple.correlationsDistinguish leftPlan rightPlan) = false)
        "shared simple-device responses lack instance correlation"
    checkCorrelations rest

def validateFrozenSimpleDefinitions (dto : DeploymentDto) (base : PathBuf)
    (definitions : List (PathBuf × Simple.CompiledSimpleDefinition)) : Checked Unit := do
  let seen ← dto.instruments.foldlM
    (checkFrozenSimple base definitions dto.resources dto.references dto.controllers dto.safeProfiles) ⟨[], []⟩
  checkCorrelations seen.instances

/-! ### Metakon instruments -/

/-- The register 6 of a physical instrument, its resource and its safe profile. -/
def checkOutput (resources : List ResourceDto) (safeProfiles : List SafeProfileDto) (m : MetakonDto)
    (output : DataParameterDefinition) : Checked Unit := do
  refuse ((resources.find? fun r => r.id == m.resourceId).any (·.kind ≠ .windowsCom) = true)
    "writable Metakon output requires windows_com resource"
  let range := match output.valueSpec with
    | .float min max => min == F64.ofInt (-100) && max == F64.ofInt 100
    | _ => false
  if output.access ≠ .readWrite ∨ output.role ≠ .actuator ∨ output.writeEffect ≠ .outputAffecting ∨
      (output.unit == .percent) = false ∨ (output.scale == F64.ofInt 1) = false ∨ range = false then
    .error (.invalidArtifact "Metakon register 6 must be read/write signed percent -100..=100 at scale 1")
  match safeProfiles.find? fun safe => safe.instrumentId == m.id && safe.parameterId == output.id with
  | none => .error (.invalid "physical Metakon output lacks safe profile")
  | some safe =>
    refuse ((safe.safeValue == F64.zero) = false ∨ safe.min < F64.ofInt (-100) ∨ F64.ofInt 100 < safe.max ∨
        safe.requiredEvidence ≠ .readback)
      "physical Metakon output requires safe zero and readback evidence"

def checkMetakonController (references : List ReferenceDto) (m : MetakonDto) (definition : DataInstrumentDefinition)
    (output : Option DataParameterDefinition) (c : ControllerDto) : Checked Unit := do
  if c.inputInstrumentId = m.id then
    match definition.parameterDefinition c.inputParameterId with
    | none => .error (.invalid "unknown physical controller input")
    | some input =>
      refuse (input.role ≠ .measurement ∨
          (references.find? fun reference => reference.id == c.referenceId).any (·.unitId != input.unit.id) = true)
        "physical controller input metadata mismatch"
  refuse (c.outputInstrumentId = m.id ∧ (output.all (·.id ≠ c.outputParameterId)) = true)
    "controller physical output is not Metakon register 6"

def checkFrozenMetakon (outside : Outside) (base : PathBuf) (artifacts : List FrozenArtifact) (resources : List ResourceDto)
    (references : List ReferenceDto) (controllers : List ControllerDto) (safeProfiles : List SafeProfileDto) :
    InstrumentDto → Checked Unit
  | .metakon m => do
    let path ← resolveArtifact base m.definition
    match artifacts.find? fun artifact => artifact.declaredPath == path with
    | none => .error (.invalidArtifact "frozen definition missing")
    | some artifact => do
      let definition ← (outside.parseDefinition artifact.bytes).mapError ConfigurationError.artifactText
      let output := definition.parameters.find? fun parameter => parameter.operation == .output
      match output with
      | none => pure ()
      | some output => checkOutput resources safeProfiles m output
      controllers.forM (checkMetakonController references m definition output)
  | _ => .ok ()

def validateFrozenMetakonDefinitions (outside : Outside) (dto : DeploymentDto) (base : PathBuf) (artifacts : List FrozenArtifact) :
    Checked Unit :=
  dto.instruments.forM
    (checkFrozenMetakon outside base artifacts dto.resources dto.references dto.controllers dto.safeProfiles)

/-! ### Admission -/

def maxRuntimeTomlBytes : ℕ := 64 * 1024
def maxDeploymentArtifacts : ℕ := 128
def maxDeploymentBytes : ℕ := 1024 * 1024

namespace FrozenDeployment

/-- The document and the artifacts, each with a fixed allowance. -/
def totalBytes (d : FrozenDeployment) : ℕ := d.tomlBytes.length + (d.artifacts.map fun a => a.bytes.length + 128).sum

/-- A deployment whose bytes are within their limits. -/
def WithinLimits (d : FrozenDeployment) : Prop :=
  d.tomlBytes.length ≤ maxRuntimeTomlBytes ∧ d.artifacts.length ≤ maxDeploymentArtifacts ∧ d.totalBytes ≤ maxDeploymentBytes

instance (d : FrozenDeployment) : Decidable d.WithinLimits := by unfold WithinLimits; infer_instance

/-- Structure and definitions: what holds of every deployment that is active. -/
def check (outside : Outside) (d : FrozenDeployment) : Checked Unit := do
  validateStructure d.dto
  validateFrozenMetakonDefinitions outside d.dto d.base d.artifacts
  validateFrozenSimpleDefinitions d.dto d.base d.simpleDefinitions

/-- The validator of a deployment that a document and its artifacts make up. -/
def accept (outside : Outside) (d : FrozenDeployment) : Checked Unit := do
  Checks.reject (¬ d.WithinLimits) .tooLarge
  d.check outside

end FrozenDeployment
end LabRuntime.Deployment
