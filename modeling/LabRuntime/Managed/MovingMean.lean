import LabRuntime.Managed.Definition

/-! `native.moving_mean.v1` and the registry that selects it: composition, validation of an
invocation, and the run itself. -/

namespace LabRuntime

/-- Host-supplied identity and binding of one registered implementation. -/
structure NativeComponentDefinition (N : Type) where
  id : ComponentId
  instrument : InstrumentId
  name : String
  input : Option SignalId
  config : PlainData N

namespace MovingMean

variable {N : Type} [Scalar N]

def implementation : ComponentImplementationId := ⟨"native.moving_mean.v1", by decide +kernel⟩

def windowField : String := "window"
def valuesField : String := "values"

def temperature : ParameterId := 1

def configuredWindow (config : PlainData N) : Except ComponentError ℕ :=
  if config.fields.size ≠ 1 then .error .invalidConfiguration
  else
    match config.fields.get windowField with
    | some (.number window) =>
      if Scalar.isFinite window = false ∨ Scalar.same (Scalar.fract window) (Scalar.ofInt 0) = false ∨
          ¬ (Scalar.le (Scalar.ofInt 2) window = true ∧ Scalar.le window (Scalar.ofInt 64) = true) then
        .error .invalidConfiguration
      else .ok (Scalar.toNat window)
    | _ => .error .invalidConfiguration

def compose (request : NativeComponentDefinition N) : Except ComponentError (ComponentDefinition N) :=
  match request.input with
  | none => .error .invalidConfiguration
  | some input => do
    let warmupSamples ← configuredWindow request.config
    .ok {
      manifest := {
        schemaVersion := 1
        id := request.id
        instrument := request.instrument
        name := request.name
        parameter := temperature
        kind := .transform input
        unit := .celsius
        min := Scalar.ofInt (-100)
        max := Scalar.ofInt 500
        warmupSamples := warmupSamples
        maxInputAge := 2000000000
        historyCapacity := 32 }
      implementation := implementation
      config := request.config }

def validate (job : Invocation N) : Except ComponentError Unit :=
  match job.definition.manifest.kind with
  | .source => .error .invalidConfiguration
  | .transform _ => do
    let window ← configuredWindow job.definition.config
    if window ≠ job.definition.manifest.warmupSamples then .error .invalidConfiguration else .ok ()

/-- What a running job reads of the clock and of its cancellation flag. -/
structure Glance where
  now : ℕ
  cancelled : Bool

def checkDeadline (deadline : ℕ) (glance : Glance) : Except ComponentError Unit :=
  if glance.cancelled = true ∨ deadline ≤ glance.now then .error .deadline else .ok ()

/-- One sample more in a running mean, with the number of those before it. -/
def update (acc : N × ℕ) (sample : N) : Except ComponentError (N × ℕ) :=
  let mean := Scalar.add acc.1 (Scalar.div (Scalar.sub sample acc.1) (Scalar.ofInt ((acc.2 + 1 : ℕ) : ℤ)))
  if Scalar.isFinite mean = false then .error .invalidResult else .ok (mean, acc.2 + 1)

def meanOf (values : List N) : Except ComponentError N :=
  (values.foldlM update (Scalar.ofInt 0, 0)).map Prod.fst

def stateOf (values : List N) : PlainData N := ⟨OrderedMap.empty.insert valuesField (.numbers values)⟩

def run (job : Invocation N) (deadline : ℕ) (before after : Glance) : Except ComponentError (ComponentResult N) := do
  checkDeadline deadline before
  let window ← configuredWindow job.definition.config
  match job.phase with
  | .init =>
    if job.input.isSome = true then .error .invalidConfiguration
    else
      .ok {
        status := .init
        value := none
        unit := job.definition.manifest.unit
        state := stateOf []
        diagnostics := [] }
  | .step =>
    match job.input with
    | none => .error .inputUnavailable
    | some input =>
      if (input.unit == job.definition.manifest.unit) = false ∨ Scalar.isFinite input.value = false then .error .inputUnavailable
      else if job.state.fields.size ≠ 1 then .error .invalidResult
      else
        match job.state.fields.get valuesField with
        | some (.numbers previous) =>
          if window < previous.length ∨ previous.any (fun value => !Scalar.isFinite value) = true then .error .invalidResult
          else do
            let retained := min previous.length (window - 1)
            let values := previous.drop (previous.length - retained) ++ [input.value]
            checkDeadline deadline after
            let value ← if values.length = window then (meanOf values).map some else .ok none
            .ok {
              status := if values.length = window then .ready else .warming
              value := value
              unit := job.definition.manifest.unit
              state := stateOf values
              diagnostics := [] }
        | _ => .error .invalidResult

end MovingMean

/-! ### The registry -/

namespace Registry

variable {N : Type} [Scalar N]

structure Registration (N : Type) where
  compose : NativeComponentDefinition N → Except ComponentError (ComponentDefinition N)
  validate : Invocation N → Except ComponentError Unit
  run : Invocation N → ℕ → MovingMean.Glance → MovingMean.Glance → Except ComponentError (ComponentResult N)

def movingMean : Registration N :=
  { compose := MovingMean.compose, validate := MovingMean.validate, run := MovingMean.run }

def registration (implementation : ComponentImplementationId) : Option (Registration N) :=
  if implementation = MovingMean.implementation then some movingMean else none

def validateInvocation (invocation : Invocation N) : Except ComponentError Unit :=
  match registration invocation.definition.implementation with
  | none => .error .invalidConfiguration
  | some entry => entry.validate invocation

def runRegistered (invocation : Invocation N) (deadline : ℕ) (before after : MovingMean.Glance) :
    Except ComponentError (ComponentResult N) :=
  match registration invocation.definition.implementation with
  | none => .error .invalidConfiguration
  | some entry => do
    entry.validate invocation
    entry.run invocation deadline before after

end Registry

section Validation

variable {N : Type} [Scalar N]

theorem configuredWindow_error {config : PlainData N} {error : ComponentError}
    (h : MovingMean.configuredWindow config = .error error) : error = .invalidConfiguration := by
  unfold MovingMean.configuredWindow at h
  split_ifs at h
  · exact (Except.error.inj h).symm
  · split at h
    · split_ifs at h
      exact (Except.error.inj h).symm
    · exact (Except.error.inj h).symm

/-- An invocation is refused for its configuration only. -/
theorem validateInvocation_error {invocation : Invocation N} {error : ComponentError}
    (h : Registry.validateInvocation invocation = .error error) : error = .invalidConfiguration := by
  unfold Registry.validateInvocation Registry.registration at h
  split_ifs at h
  · simp only [Registry.movingMean, MovingMean.validate] at h
    split at h
    · exact (Except.error.inj h).symm
    · cases hwindow : MovingMean.configuredWindow invocation.definition.config with
      | error e =>
        rw [hwindow] at h
        obtain rfl : e = error := Except.error.inj h
        exact configuredWindow_error hwindow
      | ok window =>
        rw [hwindow, Checks.ok_bind] at h
        split_ifs at h
        exact (Except.error.inj h).symm
  · exact (Except.error.inj h).symm

end Validation
end LabRuntime
