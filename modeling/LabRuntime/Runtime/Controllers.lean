import LabRuntime.Runtime.PhysicalIo

/-! Native controller lifecycle, and the progression from a fresh measurement to a bounded output
proposal. The mathematics of reference, filter and PID is a parameter: what they answer at a call. -/

namespace LabRuntime.Runtime

variable {σ : Type}

/-- What the reference, the filter and the PID of one controller answer at one call. -/
structure LoopAnswers where
  /-- `value_at`: the setpoint and its unit, or why there is none. -/
  reference : Except ControllerError (F64 × EngineeringUnit)
  /-- `ema.snapshot().last_at`. -/
  lastFiltered : Option ℕ
  /-- `ema.update` of a Good value of its source time: the filtered value and whether it is ready. -/
  filter : F64 → ℕ → Option (F64 × Bool)
  /-- `pid.update` of a filtered value and a setpoint. -/
  pid : F64 → F64 → Option PidUpdate

/-! ### Registration and configuration -/

def NativeController.new (config : NativeControllerConfig) : Except Error NativeController :=
  if config.maxInputAge = 0 ∨ config.maxTickGap = 0 ∨ config.leaseLifetime = 0 ∨ config.proposalTtl = 0 then
    .error (.controller .invalidConfiguration)
  else .ok
    { config := config, state := .created, pidLatest := none, lease := none, lastTick := none, latestOutput := none,
      configRevision := 1 }

/-- `algorithmsValid` says whether `Ema::new` and `Pid::new` accept the configuration. -/
def registerController (config : NativeControllerConfig) (algorithmsValid : Bool) : Step σ Unit := do
  let s ← get
  if s.controllers.contains config.id then reject (.controller .duplicateController)
  if s.controllers.size ≥ maxControllers then reject (.controller .invalidConfiguration)
  let controller ← attempt (NativeController.new config)
  if !algorithmsValid then reject (.controller .invalidConfiguration)
  modify fun s => { s with controllers := s.controllers.insert config.id controller }
  record fun facts => facts.controller config.id controller.state controller.configRevision (some config.pid) s.outputTime

def warmingOn (s : Runtime σ) (actuator : ActuatorId) : Bool :=
  s.controllers.values.any fun controller =>
    controller.state == .warming && controller.config.output == actuator

def cancelWarming (actuator : ActuatorId) (state : ControllerState) (s : Runtime σ) : Runtime σ :=
  { s with controllers := s.controllers.mapValues fun controller =>
      if controller.state = .warming ∧ controller.config.output = actuator then { controller with state := state }
      else controller }

/-- Descriptor, unit, range and cadence of a controller; `referenceUnit` is that of its reference, if it exists. -/
def validateControllerConfig (s : Runtime σ) (config : NativeControllerConfig)
    (referenceUnit : Option EngineeringUnit) : Except Error Unit :=
  match s.activationDescriptor config.input.instrument with
  | none => .error (.unknownInstrument config.input.instrument)
  | some source => match (source.parameter config.input.parameter).filter
      (fun parameter => decide (parameter.signal = some config.input) && parameter.role == .measurement) with
  | none => .error (.controller .invalidConfiguration)
  | some input =>
    if input.valueSpec.valueType ≠ .float ∨ input.unit != config.emaUnit then .error (.controller .invalidConfiguration)
    else match referenceUnit with
    | none => .error (.controller .unknownReference)
    | some referenceUnit =>
      if referenceUnit != input.unit then .error (.controller .invalidConfiguration)
      else match s.activationDescriptor config.output.instrument with
      | none => .error (.unknownInstrument config.output.instrument)
      | some sink => match (sink.parameter config.output.parameter).filter
          (fun parameter => parameter.role == .actuator) with
      | none => .error (.controller .invalidConfiguration)
      | some output => match output.valueSpec, s.outputs.get config.output with
        | .float min max, some authority =>
          if config.pid.outputMin < min ∨ max < config.pid.outputMax ∨
              !(s.thermalPlants.contains config.output.instrument || s.physical config.output.instrument) ∨
              !authority.validNativeDuration config.maxTickGap config.leaseLifetime then
            .error (.controller .invalidConfiguration)
          else .ok ()
        | _, _ => .error (.controller .invalidConfiguration)

/-- The controller of an id, or a rejection. -/
def knownController (id : ControllerId) : Step σ NativeController := do
  match (← get).controllers.get id with
  | none => reject (.controller .unknownController)
  | some controller => return controller

def captureControllerFact (id : ControllerId) (now : ℕ) : Step σ PUnit :=
  modify fun s => match s.controllers.get id with
    | none => s
    | some controller =>
      { s with recordingFacts := s.recordingFacts.controller id controller.state controller.configRevision none now }

def prepareController (id : ControllerId) (referenceUnit : Option EngineeringUnit) : Step σ Unit := do
  let controller ← knownController id
  if controller.state ≠ .created then reject (.controller .invalidState)
  attempt ((← get).validateControllerConfig controller.config referenceUnit)
  modify fun s => { s with controllers := s.controllers.insert id { controller with state := .ready } }
  captureControllerFact id (← get).outputTime

def controllerUsesPreparedTopology (s : Runtime σ) (controller : NativeController) : Bool :=
  s.instrumentIsPrepared controller.config.input.instrument || s.instrumentIsPrepared controller.config.output.instrument

def rejectPreparedControllerMutation (id : ControllerId) : Step σ Unit := do
  let controller ← knownController id
  if (← get).controllerUsesPreparedTopology controller then reject (.controller .invalidState)

/-- A controller whose configuration may be replaced: stopped, without a lease, nothing warming on its output. -/
def configurable (s : Runtime σ) (controller : NativeController) : Bool :=
  (controller.state == .ready || controller.state == .paused) && controller.lease.isNone &&
    !s.warmingOn controller.config.output

def configureControllerPid (id : ControllerId) (pid : PidConfig) (expectedRevision : ℕ) (algorithmsValid : Bool) :
    Step σ Unit := do
  rejectPreparedControllerMutation id
  let controller ← knownController id
  if controller.configRevision ≠ expectedRevision then reject (.controller .revisionConflict)
  let s ← get
  if !s.configurable controller then reject (.controller .invalidState)
  match checkedAdd controller.configRevision 1 with
  | none => reject (.controller .revisionExhausted)
  | some next =>
    if !algorithmsValid then reject (.controller .invalidConfiguration)
    match s.outputs.get controller.config.output with
    | none => reject (.output .unknownActuator)
    | some authority =>
      if !authority.acceptsPidLimits pid.outputMin pid.outputMax then reject (.controller .output)
      let controller := { controller with
        config := { controller.config with pid := pid }
        pidLatest := none, latestOutput := none, lastTick := none, configRevision := next }
      modify fun s => { s with controllers := s.controllers.insert id controller }
      record fun facts => facts.controller id controller.state controller.configRevision (some pid) s.outputTime

def reconfigureController (id : ControllerId) (config : NativeControllerConfig) (expectedRevision : ℕ)
    (algorithmsValid : Bool) (referenceUnit : Option EngineeringUnit) : Step σ Unit := do
  rejectPreparedControllerMutation id
  let current ← knownController id
  if current.configRevision ≠ expectedRevision then reject (.controller .revisionConflict)
  let s ← get
  if config.id ≠ id ∨ config.input ≠ current.config.input ∨ config.output ≠ current.config.output ∨
      config.reference ≠ current.config.reference ∨ !s.configurable current then
    reject (.controller .invalidState)
  match checkedAdd current.configRevision 1 with
  | none => reject (.controller .revisionExhausted)
  | some next =>
    let candidate ← attempt (NativeController.new config)
    if !algorithmsValid then reject (.controller .invalidConfiguration)
    attempt (s.validateControllerConfig config referenceUnit)
    let candidate := { candidate with state := current.state, configRevision := next }
    modify fun s => { s with controllers := s.controllers.insert id candidate }
    record fun facts => facts.controller id candidate.state candidate.configRevision (some config.pid) s.outputTime

/-! ### Starting -/

/-- A controller that left the registry for a call, as the call puts it back, and the result of the call. -/
abbrev Serviced := NativeController × Except Error Unit

/-- Acquire the actuator once every warm-up observation is committed. -/
def activateController (controller : NativeController) (now : ℕ) : Step σ Serviced := do
  match (← get).outputs.get controller.config.output with
  | none => return (controller, .error (.output .unknownActuator))
  | some authority =>
    if !authority.canPrepare then return ({ controller with state := .failed }, .error (.controller .output))
    else
      let owner := OutputOwner.automatic controller.config.id
      match ← trying (settle controller.config.output
        (authority.command (.acquire owner controller.config.leaseLifetime) now)) with
      | .ok (.lease lease) => return ({ controller with lease := some lease, state := .running }, .ok ())
      | .ok _ => panicking
      | .error error => return ({ controller with state := .failed }, .error error)

/-- A call on a controller that is out of the registry meanwhile. -/
def servicing (id : ControllerId) (service : NativeController → Step σ Serviced) : Step σ Unit := do
  let controller ← knownController id
  modify fun s => { s with controllers := s.controllers.remove id }
  let (controller, result) ← service controller
  modify fun s => { s with controllers := s.controllers.insert id controller }
  attempt result

/-- What a start or a resumption requires, and the measurement it begins with. -/
def startingInput (s : Runtime σ) (controller : NativeController) (loop : LoopAnswers) (now : ℕ)
    (expected : ControllerState) : Except Error (F64 × ℕ) :=
  if controller.state ≠ expected then .error (.controller .invalidState)
  else if s.warmingOn controller.config.output then .error (.output .busy)
  else match s.outputs.get controller.config.output with
  | none => .error (.output .unknownActuator)
  | some authority =>
    if !authority.canPrepare then .error (.controller .output)
    else if !authority.validNativeDuration controller.config.maxTickGap controller.config.leaseLifetime then
      .error (.controller .invalidConfiguration)
    else match s.controlInput controller.config.input now controller.config.maxInputAge with
    | .error error => .error (.controller error)
    | .ok (measurement, unit, sampleAt) =>
      if unit != controller.config.emaUnit then .error (.controller .invalidConfiguration)
      else match loop.reference with
      | .error error => .error (.controller error)
      | .ok (_, referenceUnit) =>
        if referenceUnit != unit then .error (.controller .invalidConfiguration) else .ok (measurement, sampleAt)

def beginWarming (loop : LoopAnswers) (now : ℕ) (expected : ControllerState) (controller : NativeController) :
    Step σ Serviced := do
  match (← get).startingInput controller loop now expected with
  | .error error => return (controller, .error error)
  | .ok (measurement, sampleAt) =>
    let controller := { controller with pidLatest := none, latestOutput := none }
    match loop.filter measurement sampleAt with
    | none => return (controller, .error (.controller .algorithm))
    | some (_, ready) =>
      let controller := { controller with lastTick := some now, state := .warming }
      if ready then activateController controller now else return (controller, .ok ())

def startOrResumeController (id : ControllerId) (loop : LoopAnswers) (now : ℕ) (expected : ControllerState) :
    Step σ Unit := do
  checkOutputTime now
  servicing id (beginWarming loop now expected)

/-! ### Ticks -/

/-- What a warming service requires, and the measurement it observes. -/
def warmingInput (s : Runtime σ) (controller : NativeController) (loop : LoopAnswers) (now : ℕ) :
    Except ControllerError (F64 × ℕ) :=
  match controller.lastTick with
  | none => .error .invalidState
  | some previous =>
    if now - previous > controller.config.maxTickGap then .error .invalidTickTime
    else match s.controlInput controller.config.input now controller.config.maxInputAge with
    | .error error => .error error
    | .ok (value, unit, sampleAt) =>
      if unit != controller.config.emaUnit then .error .invalidConfiguration
      else match loop.reference with
      | .error error => .error error
      | .ok (_, referenceUnit) =>
        if referenceUnit != unit then .error .invalidConfiguration else .ok (value, sampleAt)

/-- A failed preparation owned no actuator, so it trips nothing. -/
def abandonWarming (controller : NativeController) (error : ControllerError) :
    Serviced := (controller.fail, .error (.controller error))

/-- One Good observation is counted once, however often it is seen. -/
def advanceWarming (loop : LoopAnswers) (now : ℕ) (controller : NativeController) : Step σ Serviced := do
  match (← get).warmingInput controller loop now with
  | .error error => return abandonWarming controller error
  | .ok (value, sampleAt) =>
    if loop.lastFiltered.any fun last => decide (sampleAt ≤ last) then
      return ({ controller with lastTick := some now }, .ok ())
    else match loop.filter value sampleAt with
    | none => return abandonWarming controller .algorithm
    | some (_, ready) =>
      let controller := { controller with lastTick := some now }
      if ready then
        let (controller, result) ← activateController controller now
        match result with
        | .ok _ => return (controller, .ok ())
        | .error _ => return abandonWarming controller .output
      else return (controller, .ok ())

/-- The input of a running controller: lease and cadence valid, measurement fresh, filter ready. -/
def runningInput (s : Runtime σ) (controller : NativeController) (loop : LoopAnswers) (now : ℕ) :
    Except ControllerError (F64 × F64 × EngineeringUnit × ℕ × OutputLease × ℕ) :=
  match controller.lastTick with
  | none => .error .invalidState
  | some previous =>
    if now - previous > controller.config.maxTickGap then .error .invalidTickTime
    else match controller.lease with
    | none => .error .output
    | some lease =>
      if now ≥ lease.expires ∨
          (s.outputs.get controller.config.output).all (fun authority => decide (authority.snapshot.lease ≠ some lease)) then
        .error .output
      else match s.controlInput controller.config.input now controller.config.maxInputAge with
      | .error error => .error error
      | .ok (measurement, unit, sampleAt) => match loop.reference with
        | .error error => .error error
        | .ok (setpoint, referenceUnit) =>
          if referenceUnit != unit then .error .invalidConfiguration
          else if unit != controller.config.emaUnit then .error .algorithm
          else match loop.filter measurement sampleAt with
          | some (filtered, true) => .ok (filtered, setpoint, referenceUnit, sampleAt, lease, previous)
          | _ => .error .algorithm

/-- One update of a running controller, with the memory it leaves. The proposal may not outlive the freshness
of its measurement or the lease. -/
def calculateControllerUpdate (s : Runtime σ) (controller : NativeController) (loop : LoopAnswers) (now : ℕ) :
    NativeController × Except ControllerError (Calculation × EngineeringUnit) :=
  match s.runningInput controller loop now, (s.signal controller.config.input).bind SignalBuffer.latest with
  | .error error, _ => (controller, .error error)
  | .ok _, none => (controller, .error .inputUnavailable)
  | .ok (filtered, setpoint, referenceUnit, sampleAt, lease, previous), some sample => match loop.pid filtered setpoint with
    | none => (controller, .error .algorithm)
    | some update =>
      let controller := { controller with pidLatest := some update }
      let remainingFreshness := controller.config.maxInputAge - (now - sampleAt)
      let ttl := min (min controller.config.proposalTtl remainingFreshness) (lease.expires - now)
      if ttl = 0 then (controller, .error .staleInput)
      else match s.outputUnit controller.config.output with
      | none => (controller, .error .invalidConfiguration)
      | some unit =>
        (controller, .ok
          ({ controller := controller.config.id, output := controller.config.output
             sample := sample, referenceUnit := referenceUnit, maxInputAge := controller.config.maxInputAge
             maxTickGap := controller.config.maxTickGap, lastTick := previous, lease := lease, update := update
             ttl := ttl, time := now }, unit))

/-- Propose and send in one owner unit, at a simulation. -/
def deliverSimulated (actuator : ActuatorId) (proposal : OutputProposal) (calculation : Option Calculation) (now : ℕ) :
    Step σ Unit := do
  proposeDelivery actuator proposal calculation true now
  let attemptId := (← get).outputAttempts.get actuator
  -- the capture of the proposal may itself have closed the gate
  requireRecordingOpen now
  let dispatch ← beginSimulated actuator now
  let fact (stage : OutputStage) (source : OutputEvidenceSource) : Step σ PUnit :=
    record fun facts => facts.outputCorrelated actuator stage (some dispatch.value) now source attemptId (some dispatch.id)
  fact .authorized .none
  fact .sendStarted .virtualSimulation
  match ← trying (applyVirtualDispatch actuator dispatch.value) with
  | .error error =>
    let _ ← onOutput actuator fun authority => authority.command (.complete dispatch.id .failed) now
    fact .failed .virtualSimulation
    reject error
  | .ok _ =>
    let _ ← onOutput actuator fun authority => authority.command (.complete dispatch.id .readbackVerified) now
    fact .readbackVerified .virtualSimulation

def deliver (actuator : ActuatorId) (proposal : OutputProposal) (calculation : Option Calculation) (now : ℕ) :
    Step σ Unit := do
  if (← get).physical actuator.instrument then deliverPhysical actuator proposal calculation now
  else deliverSimulated actuator proposal calculation now

/-- The controller of a tick that did not deliver. -/
def failTick (controller : NativeController) (error : Error) (now : ℕ) : Step σ Serviced := do
  ignoring (failController controller now)
  return (controller.fail, .error error)

/-- The lease after a simulated delivery; a physical one is renewed by its own evidence. -/
def renewAfterTick (lease : OutputLease) (lifetime : ℕ) (physical : Bool) (actuator : ActuatorId) (now : ℕ) :
    Step σ OutputLease := do
  if physical then return lease else onOutput actuator fun authority => authority.renewNative lease lifetime now

def tickRunning (loop : LoopAnswers) (now : ℕ) (controller : NativeController) : Step σ Serviced := do
  match (← get).calculateControllerUpdate controller loop now with
  | (controller, .error error) => failTick controller (.controller error) now
  | (controller, .ok (calculation, unit)) =>
    let output := controller.config.output
    let physical := (← get).physical output.instrument
    let proposal : OutputProposal :=
      { lease := calculation.lease, value := .float calculation.update.output, unit := unit, ttl := calculation.ttl }
    match ← trying (deliver output proposal (some calculation) now) with
    | .error _ => failTick controller (.controller .output) now
    | .ok _ =>
      match ← trying (renewAfterTick calculation.lease controller.config.leaseLifetime physical output now) with
      | .error _ => failTick controller (.controller .output) now
      | .ok lease =>
        let latestOutput := if physical then controller.latestOutput else some calculation.update
        return ({ controller with lease := some lease, lastTick := some now, latestOutput := latestOutput }, .ok ())

/-- A controller that may be ticked now, with its state and the times of the tick checked. -/
def serviceTick (loop : LoopAnswers) (now : ℕ) (controller : NativeController) : Step σ Serviced := do
  if controller.state.live = false then return (controller, .error (.controller .invalidState))
  else if controller.lastTick.any fun previous => decide (now ≤ previous) then
    return (controller, .error (.controller .invalidTickTime))
  else if controller.state = .warming then advanceWarming loop now controller
  else tickRunning loop now controller

def tickController (id : ControllerId) (loop : LoopAnswers) (now : ℕ) : Step σ Unit := do
  checkOutputTime now
  servicing id (serviceTick loop now)

/-! ### Stopping -/

/-- Give the output back. A controller revoked earlier cannot touch a later owner. -/
def releaseOutput (lease : OutputLease) (output : ActuatorId) (now : ℕ) : Step σ Unit := do
  match (← get).outputs.get output with
  | none => reject (.output .unknownActuator)
  | some authority =>
    if authority.snapshot.lease = some lease then
      let _ ← settle output (authority.command (.release lease) now)
      if (← get).thermalPlants.contains output.instrument then completeSimulatedSafe output now
    else if authority.snapshot.lease.isNone ∧ authority.snapshot.state = .safePending then
      let _ ← settle output (authority.command .requestSafe now)
      if (← get).thermalPlants.contains output.instrument then completeSimulatedSafe output now

def pauseRunning (now : ℕ) (controller : NativeController) : Step σ Serviced := do
  if controller.state = .warming then return ({ controller with state := .paused }, .ok ())
  else if controller.state ≠ .running then return (controller, .error (.controller .invalidState))
  else match controller.lease with
  | none => return (controller, .error (.controller .invalidState))
  | some lease =>
    let result ← trying (releaseOutput lease controller.config.output now)
    if (← get).outputs.contains controller.config.output then
      return ({ controller with lease := none, state := .paused }, result)
    else return ({ controller with lease := none }, result)

def pauseController (id : ControllerId) (now : ℕ) : Step σ Unit := do
  checkOutputTime now
  servicing id (pauseRunning now)

def resetFailedController (id : ControllerId) (now : ℕ) : Step σ Unit := do
  checkOutputTime now
  let controller ← knownController id
  if controller.state ≠ .failed ∨ controller.lease.isSome then reject (.controller .invalidState)
  let s ← get
  match s.outputs.get controller.config.output with
  | none => if s.warmingOn controller.config.output then reject (.controller .output) else reject (.output .unknownActuator)
  | some authority =>
    if s.warmingOn controller.config.output ∨ !authority.canPrepare then reject (.controller .output)
    modify fun s =>
      let controller := { controller with pidLatest := none, latestOutput := none, lastTick := none, state := .paused }
      { s with controllers := s.controllers.insert id controller }

end LabRuntime.Runtime
