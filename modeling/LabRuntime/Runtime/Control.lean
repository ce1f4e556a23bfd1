import LabRuntime.Runtime.State

/-! What commands, safety service and transport share: authority calls, recording, watchdogs,
and the failure of a controller. -/

namespace LabRuntime.Runtime

variable {σ : Type}

/-! ### Recording -/

/-- Tell the outbox a fact. -/
def record (f : FactOutbox → FactOutbox) : Step σ PUnit :=
  modify fun s => { s with recordingFacts := f s.recordingFacts }

/-- Freeze the binding and authority that later facts of an actuator are captured under. -/
def syncRecordingOutputContext (s : Runtime σ) (actuator : ActuatorId) : Runtime σ :=
  match s.outputs.get actuator with
  | none => s
  | some authority =>
    let binding := s.fence actuator.instrument
    let context : OutputContext :=
      { unit := s.outputUnit actuator
        authorityEpoch := some authority.snapshot.epoch
        resource := binding.map BindingFence.resource
        bindingGeneration := binding.map BindingFence.bindingGeneration
        mappingRevision := binding.map BindingFence.mappingRevision }
    { s with recordingFacts := s.recordingFacts.outputContext actuator context }

/-- Fail one controller that prepares or runs, without touching its output. -/
def failLiveController (now : ℕ) (s : Runtime σ) (id : ControllerId) : Runtime σ :=
  match s.controllers.get id with
  | none => s
  | some controller =>
    if controller.state.live then
      { s with
        controllers := s.controllers.insert id controller.fail
        recordingFacts := s.recordingFacts.controller id .failed controller.configRevision none now }
    else s

/-- Trip one output; a rejected trip still leaves the authority it reached. -/
def tripOutput (now : ℕ) (s : Runtime σ) (actuator : ActuatorId) : Runtime σ :=
  match s.outputs.get actuator with
  | none => s
  | some authority => match authority.command .trip now with
    | (.ok _, authority) =>
      { s with
        outputs := s.outputs.insert actuator authority
        recordingFacts := s.recordingFacts.output actuator .revoked none now }
    | (.error _, authority) => { s with outputs := s.outputs.insert actuator authority }

def recordingFailure (s : Runtime σ) (now : ℕ) : Runtime σ :=
  if s.requiredRecording.enabled = false ∨ s.requiredRecording.failed = true then s
  else
    let s := { s with requiredRecording :=
      { s.requiredRecording with isOpen := false, failed := true, validUntil := none } }
    let s := s.controllers.keys.foldl (failLiveController now) s
    s.outputs.keys.foldl (tripOutput now) s

def serviceRequiredRecordingDeadline (s : Runtime σ) (now : ℕ) : Runtime σ :=
  let s := if s.requiredRecording.enabled && s.recordingFacts.overflowed then s.recordingFailure now else s
  if s.requiredRecording.enabled && s.requiredRecording.isOpen &&
      s.requiredRecording.validUntil.any (fun deadline => decide (now ≥ deadline)) then s.recordingFailure now
  else s

def requireRecordingOpen (now : ℕ) : Step σ Unit := do
  modify fun s => s.serviceRequiredRecordingDeadline now
  let s ← get
  if s.requiredRecording.enabled && !s.requiredRecording.isOpen then reject .recordingUnavailable

/-! ### Authority calls -/

/-- Store the authority an operation leaves, and go on with its result. -/
def settle {α : Type} (actuator : ActuatorId) : Outcome α → Step σ α
  | (result, authority) => do
    modify fun s => { s with outputs := s.outputs.insert actuator authority }
    attempt result

/-- `outputs.get_mut(actuator).ok_or(UnknownActuator)?` and one operation on it. -/
def onOutput {α : Type} (actuator : ActuatorId) (f : OutputAuthority → Outcome α) : Step σ α := do
  match (← get).outputs.get actuator with
  | none => reject (.output .unknownActuator)
  | some authority => settle actuator (f authority)

/-- One infallible operation on an authority, if it exists. -/
def changeOutput (actuator : ActuatorId) (f : OutputAuthority → OutputAuthority) : Step σ PUnit :=
  modify fun s => match s.outputs.get actuator with
    | none => s
    | some authority => { s with outputs := s.outputs.insert actuator (f authority) }

/-- `OutputAuthority::new` under the next process-wide identity. -/
def newAuthority (actuator : ActuatorId) (limits : ValueSpec) (unit : EngineeringUnit) : Step σ OutputAuthority := do
  let s ← get
  match checkedAdd s.nextInstance 1 with
  | none => reject (.output .counterExhausted)
  | some following =>
    set { s with nextInstance := following }
    return OutputAuthority.new s.nextInstance actuator limits unit

/-- A fresh authority for every actuator of an instrument. -/
def newAuthorities (id : InstrumentId) : List ParameterDescriptor → Step σ (List (ActuatorId × OutputAuthority))
  | [] => pure []
  | parameter :: rest => do
    let actuator : ActuatorId := { instrument := id, parameter := parameter.id }
    let authority ← newAuthority actuator parameter.valueSpec parameter.unit
    let authorities ← newAuthorities id rest
    return (actuator, authority) :: authorities

/-! ### Correlation identities -/

def allocateOutputAttempt : Step σ ℕ := do
  let s ← get
  match checkedAdd s.nextOutputAttempt 1 with
  | none => reject (.output .counterExhausted)
  | some next =>
    set { s with nextOutputAttempt := next }
    return next

/-- Safe control goes on without an identity; the outbox then records the loss. -/
def allocateSafeOutputAttempt : Step σ (Option ℕ) := do
  let s ← get
  match checkedAdd s.nextOutputAttempt 1 with
  | none =>
    record FactOutbox.loseCorrelation
    return none
  | some next =>
    set { s with nextOutputAttempt := next }
    return some next

/-! ### Clocks and watchdogs -/

/-- The watchdog of one actuator, with the facts of the transition it makes. -/
def tickOutputWatchdog (now : ℕ) (actuator : ActuatorId) : Step σ Unit := do
  match (← get).outputs.get actuator with
  | none => panicking
  | some before =>
    settle actuator (before.tick now)
    let s ← get
    let afterEpoch := (s.outputs.get actuator).map fun authority => authority.snapshot.epoch
    if afterEpoch = some before.snapshot.epoch then return
    let priorAttempt := s.outputAttempts.get actuator
    modify fun s => s.syncRecordingOutputContext actuator
    if before.snapshot.pending then
      record fun facts =>
        facts.outputDisplaced actuator .expiredBeforeSend before.snapshot.requested now priorAttempt
          before.snapshot.epoch
    let safeAttempt ← allocateSafeOutputAttempt
    match safeAttempt with
    | some attempt => modify fun s => { s with outputAttempts := s.outputAttempts.insert actuator attempt }
    | none => pure ()
    record fun facts => facts.outputCorrelated actuator .revoked none now .none safeAttempt none
    record fun facts => facts.outputCorrelated actuator .safeRequested none now .none safeAttempt none

def tickOutputWatchdogs (now : ℕ) : Step σ Unit := do
  Procedure.forEach (← get).outputs.keys (tickOutputWatchdog now)

def checkOutputTime (now : ℕ) : Step σ Unit := do
  if now < (← get).outputTime then reject (.output .invalidTime)
  modify fun s => { s with outputTime := now }
  tickOutputWatchdogs now

def checkTransportTime (now : ℕ) : Step σ Unit := do
  if now < (← get).transportTime then reject (.transport .invalidTime)
  modify fun s => { s with transportTime := now }

/-! ### Simulated sends and controller failure -/

/-- A send of the actuator started now. -/
def noteSend (actuator : ActuatorId) (dispatch : DispatchId) (safe : Bool) (value : F64) (lease : Option OutputLease)
    (attempt : Option ℕ) (now : ℕ) : Step σ PUnit :=
  modify fun s =>
    let send : Send :=
      { actuator := actuator, dispatch := dispatch, safe := safe, value := value, lease := lease, attempt := attempt,
        time := now, gate := s.requiredRecording, overflowed := s.recordingFacts.overflowed }
    { s with sends := s.sends ++ [send] }

/-- Start a simulated send with an authority. -/
def beginSimulated (actuator : ActuatorId) (now : ℕ) : Step σ Dispatch := do
  match (← get).outputs.get actuator with
  | none => reject (.output .unknownActuator)
  | some authority =>
    let result ← settle actuator (authority.command .beginDispatch now)
    match result with
    | .dispatched dispatch =>
      noteSend actuator dispatch.id dispatch.safe dispatch.value (if dispatch.safe then none else authority.pending.map Pending.lease)
        ((← get).outputAttempts.get actuator) now
      return dispatch
    | _ => panicking

/-- The heater of a thermal plant takes the value that was sent. -/
def applyVirtualDispatch (actuator : ActuatorId) (value : F64) : Step σ Unit := do
  match (← get).thermalPlants.get actuator.instrument with
  | some plant =>
    if actuator.parameter = heaterPower then
      attempt ((ValueSpec.float (F64.ofInt 0) (F64.ofInt 100)).validate (.float value))
      let plant := { plant with heaterPercent := value }
      modify fun s => { s with thermalPlants := s.thermalPlants.insert actuator.instrument plant }
  | none => pure ()

def completeSimulatedSafe (actuator : ActuatorId) (now : ℕ) : Step σ Unit := do
  let dispatch ← beginSimulated actuator now
  let attemptId := (← get).outputAttempts.get actuator
  record fun facts =>
    facts.outputCorrelated actuator .safeSendStarted (some dispatch.value) now .virtualSimulation attemptId
      (some dispatch.id)
  applyVirtualDispatch actuator dispatch.value
  let _ ← onOutput actuator fun authority => authority.command (.complete dispatch.id .readbackVerified) now
  record fun facts =>
    facts.outputCorrelated actuator .safeReadbackVerified (some dispatch.value) now .virtualSimulation attemptId
      (some dispatch.id)

/-- What the failure of `controller` does to its output; the controller itself becomes `controller.fail`. -/
def failController (controller : NativeController) (now : ℕ) : Step σ Unit := do
  let output := controller.config.output
  match (← get).outputs.get output with
  | none => reject (.output .unknownActuator)
  | some authority =>
    if authority.snapshot.lease.isSome ∧ authority.snapshot.lease = controller.lease ∨
        authority.snapshot.lease.isNone ∧ authority.snapshot.state = .safePending then
      -- a failed loop latches its own fault even where the watchdog already requested safe
      let _ ← settle output (authority.command .trip now)
      if (← get).thermalPlants.contains output.instrument then completeSimulatedSafe output now

/-- The value a controller may use: fresh, finite and Good. -/
def controlInput (s : Runtime σ) (signal : SignalId) (now maxAge : ℕ) :
    Except ControllerError (F64 × EngineeringUnit × ℕ) :=
  match (s.signal signal).bind SignalBuffer.latest with
  | none => .error .inputUnavailable
  | some sample =>
    if sample.quality ≠ .good then .error .inputUnavailable
    else if now < sample.freshnessTime then .error .invalidTickTime
    else if now - sample.freshnessTime ≥ maxAge then .error .staleInput
    else match sample.value with
    | some (.float value) => if value.isFinite then .ok (value, sample.unit, sample.freshnessTime) else .error .inputUnavailable
    | _ => .error .inputUnavailable

end LabRuntime.Runtime
