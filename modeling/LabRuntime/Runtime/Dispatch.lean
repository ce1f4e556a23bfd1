import LabRuntime.Runtime.Controllers

/-! Commands on the owner. A command ends in a result or a typed rejection; either way it leaves the
state it reached. -/

namespace LabRuntime.Runtime

open Metakon

variable {σ : Type}

/-! ### Outputs -/

/-- The commands that ordinary control needs an open recording gate for. -/
def ordinary (s : Runtime σ) (actuator : ActuatorId) (command : OutputCommand) : Bool :=
  match command with
  | .acquire .. | .renewManual .. | .propose _ | .acknowledgeFault => true
  | .beginDispatch => (s.outputs.get actuator).any fun authority => authority.snapshot.state != .safePending
  | _ => false

/-- What a command means for a controller that warms up on the same output. -/
def interruptWarming (actuator : ActuatorId) (command : OutputCommand) : Step σ Unit := do
  if (← get).warmingOn actuator then match command with
    | .requestSafe => modify (cancelWarming actuator .paused)
    | .trip => modify (cancelWarming actuator .failed)
    | .acquire .. => reject (.output .busy)
    | .bindProfile _ => reject (.output .invalidState)
    | _ => pure ()

/-- A profile that requires readback needs a readback plan. -/
def requireReadbackPlan (s : Runtime σ) (actuator : ActuatorId) (command : OutputCommand) : Except Error Unit :=
  match command with
  | .bindProfile profile =>
    if profile.requiredEvidence = .readback ∧
        ((s.simpleDeviceInstruments.get actuator.instrument).bind fun i => i.writes.get actuator.parameter).any
          (fun plan => plan.readback.isNone) = true then
      .error (.invalidConfiguration "simple output profile requires a readback plan")
    else .ok ()
  | _ => .ok ()

/-- The correlation that a proposal or a safe request is captured under. -/
def allocateCommandAttempt (command : OutputCommand) : Step σ (Option ℕ) := do
  match command with
  | .propose _ => return some (← allocateOutputAttempt)
  | .requestSafe | .release _ | .trip => allocateSafeOutputAttempt
  | _ => return none

/-- The facts of a rejected output command. -/
def rejectedCommandFacts (actuator : ActuatorId) (command : OutputCommand) (error : Error) (proposed attempt : Option ℕ)
    (requestedBefore : Option F64) (now : ℕ) (facts : FactOutbox) : FactOutbox :=
  match command, proposed with
  | .propose proposal, some attemptId =>
    let value := match proposal.value with
      | .float value => if value.isFinite then some value else none
      | _ => none
    facts.outputProposal actuator .rejectedBeforeSend value proposal.unit now (some attemptId)
  | .beginDispatch, _ =>
    if error = .output .expired then
      facts.outputCorrelated actuator .expiredBeforeSend requestedBefore now .none attempt none
    else facts
  | _, _ => facts

/-- The stage a completion is captured as. -/
def completionStage (safe : Bool) (outcome : DispatchOutcome) : OutputStage :=
  match safe, outcome with
  | true, .acknowledged => .safeAcknowledged
  | true, .readbackVerified => .safeReadbackVerified
  | false, .acknowledged => .acknowledged
  | false, .readbackVerified => .readbackVerified
  | _, .failed => .failed
  | _, .ambiguous => .ambiguous

/-- The facts of an accepted output command. -/
def acceptedCommandFacts (s : Runtime σ) (actuator : ActuatorId) (before : OutputAuthority) (prior : Option ℕ)
    (command : OutputCommand) (result : OutputResult) (now : ℕ) (facts : FactOutbox) : FactOutbox :=
  let attempt := s.outputAttempts.get actuator
  let dispatchAttempt (id : DispatchId) : Option ℕ :=
    (s.outputDispatchAttempts.get actuator).bind fun (dispatch, attempt) => if dispatch = id then some attempt else none
  match command, result with
  | .requestSafe, .updated | .release _, .updated | .trip, .updated =>
    let facts := if before.snapshot.pending then
        facts.outputDisplaced actuator .supersededBeforeSend before.snapshot.requested now prior before.snapshot.epoch
      else facts
    (facts.outputCorrelated actuator .revoked none now .none attempt none).outputCorrelated actuator .safeRequested none
      now .none attempt none
  | .propose proposal, .queued =>
    let requested := (s.outputs.get actuator).bind fun authority => authority.snapshot.requested
    facts.outputProposal actuator .requested requested proposal.unit now attempt
  | .beginDispatch, .dispatched dispatch =>
    if dispatch.safe then
      facts.outputCorrelated actuator .safeSendStarted (some dispatch.value) now .virtualSimulation attempt (some dispatch.id)
    else
      (facts.outputCorrelated actuator .authorized (some dispatch.value) now .none (dispatchAttempt dispatch.id)
        (some dispatch.id)).outputCorrelated actuator .sendStarted (some dispatch.value) now .virtualSimulation
          (dispatchAttempt dispatch.id) (some dispatch.id)
  | .complete id outcome, .completed => match before.snapshot.inFlight with
    | none => facts
    | some dispatch =>
      facts.outputCompletion actuator (completionStage dispatch.safe outcome) (some dispatch.value) now .virtualSimulation
        (dispatchAttempt id) dispatch.id dispatch.epoch
  | _, _ => facts

/-- What an accepted output command leaves beside the authority. -/
def noteCommand (actuator : ActuatorId) (before : OutputAuthority) (command : OutputCommand) (proposed : Option ℕ)
    (result : OutputResult) (now : ℕ) : Step σ Unit := do
  let prior := (← get).outputAttempts.get actuator
  match proposed with
  | some attemptId => modify fun s => { s with outputAttempts := s.outputAttempts.insert actuator attemptId }
  | none => pure ()
  let attempt := (← get).outputAttempts.get actuator
  match result, attempt with
  | .dispatched dispatch, some attemptId =>
    modify fun s => { s with outputDispatchAttempts := s.outputDispatchAttempts.insert actuator (dispatch.id, attemptId) }
  | _, _ => pure ()
  match result with
  | .dispatched dispatch =>
    noteSend actuator dispatch.id dispatch.safe dispatch.value
      (if dispatch.safe then none else before.pending.map Pending.lease) attempt now
  | _ => pure ()
  let s ← get
  record (s.acceptedCommandFacts actuator before prior command result now)
  match result with
  | .dispatched dispatch => applyVirtualDispatch actuator dispatch.value
  | _ => pure ()

/-- The command itself, on an authority that the watchdogs have visited. -/
def commandOutput (actuator : ActuatorId) (command : OutputCommand) (now : ℕ) : Step σ OutputResult := do
  attempt ((← get).requireReadbackPlan actuator command)
  let proposed ← allocateCommandAttempt command
  let s ← get
  match s.outputs.get actuator with
  | none => reject (.output .unknownActuator)
  | some before =>
    let (result, authority) := before.command command now
    modify fun s => { s with outputs := s.outputs.insert actuator authority }
    modify fun s => s.syncRecordingOutputContext actuator
    match result with
    | .error error =>
      record (rejectedCommandFacts actuator command error proposed (s.outputAttempts.get actuator)
        before.snapshot.requested now)
      reject error
    | .ok result =>
      noteCommand actuator before command proposed result now
      return result

def output (actuator : ActuatorId) (command : OutputCommand) (now : ℕ) : Step σ OutputResult := do
  modify fun s => s.serviceRequiredRecordingDeadline now
  if (← get).ordinary actuator command then requireRecordingOpen now
  if !(← get).outputs.contains actuator then reject (.output .unknownActuator)
  checkOutputTime now
  interruptWarming actuator command
  commandOutput actuator command now

/-- The authority command behind a manual operation other than a write. -/
def manualAuthorityCommand (snapshot : OutputSnapshot) (owner : ℕ) (command : ManualOutputCommand) :
    Except Error OutputCommand :=
  match command, snapshot.lease with
  | .acquire lifetime, _ => .ok (.acquire (.manual owner) lifetime)
  | .renew lifetime, some lease => .ok (.renewManual lease lifetime)
  | .renew _, none => .error (.output .staleLease)
  | .safe, _ => .ok .requestSafe
  | .write .., _ => .error (.output .invalidState) -- not reached: a write takes its own path

def manualWrite (actuator : ActuatorId) (snapshot : OutputSnapshot) (value : Value) (ttl now : ℕ) : Step σ Unit := do
  if snapshot.pending ∨ snapshot.inFlight.isSome ∨
      snapshot.manualAttempt.any (fun attempt => !attempt.terminal) = true then
    reject (.output .busy)
  requireRecordingOpen now
  match (← get).descriptor actuator.instrument with
  | none => reject (.unknownInstrument actuator.instrument)
  | some descriptor => match descriptor.parameter actuator.parameter, snapshot.lease with
    | none, _ => reject (.output .unknownActuator)
    | some _, none => reject (.output .staleLease)
    | some parameter, some lease =>
      let proposal : OutputProposal := { lease := lease, value := value, unit := parameter.unit, ttl := ttl }
      match ← trying (deliver actuator proposal none now) with
      | .ok _ => pure ()
      | .error error =>
        let attempt := ((← get).outputs.get actuator).bind fun authority =>
          authority.snapshot.manualAttempt.map ManualOutputAttempt.id
        -- no ordinary proposal survives a failed admission; a started operation settles through its dispatch
        if attempt ≠ snapshot.manualAttempt.map ManualOutputAttempt.id then
          changeOutput actuator OutputAuthority.failManualBeforeSend
          let _ ← output actuator .requestSafe now
        reject error

def manualOutput (actuator : ActuatorId) (owner expectedInstance expectedEpoch : ℕ) (command : ManualOutputCommand)
    (now : ℕ) : Step σ Unit := do
  let s ← get
  if s.instrumentIsPrepared actuator.instrument ||
      !(s.physical actuator.instrument || s.thermalPlants.contains actuator.instrument) then
    reject (.output .unknownActuator)
  let _ ← output actuator .tick now
  let s ← get
  match s.outputs.get actuator with
  | none => reject (.output .unknownActuator)
  | some authority =>
    let snapshot := authority.snapshot
    if snapshot.instanceId ≠ expectedInstance ∨ snapshot.epoch ≠ expectedEpoch then reject (.output .staleLease)
    if s.warmingOn actuator || snapshot.lease.any (fun lease => decide (lease.owner ≠ .manual owner)) then
      reject (.output .busy)
    match command with
    | .write value ttl => manualWrite actuator snapshot value ttl now
    | _ =>
      let command ← attempt (manualAuthorityCommand snapshot owner command)
      let _ ← output actuator command now

/-! ### Registration -/

/-- Install authorities and freeze their capture contexts. -/
def installAuthorities (authorities : List (ActuatorId × OutputAuthority)) : Step σ PUnit :=
  modify fun s =>
    (authorities.map Prod.fst).foldl syncRecordingOutputContext { s with outputs := s.outputs.extend authorities }

def requireFreeInstrument (id : InstrumentId) : Step σ Unit := do
  let s ← get
  if s.containsInstrument id then reject (.duplicateInstrument id)
  if s.instrumentCount ≥ maxInstruments then reject (.invalidConfiguration "instrument limit reached (64)")

/-- A validated virtual instrument; `heater` describes its heater power parameter. -/
def registerVirtual (instrument : NativeInstrument) (heater : ParameterDescriptor) : Step σ Unit := do
  let id := instrument.descriptor.id
  requireFreeInstrument id
  if heater.role ≠ .actuator ∨ heater.writeEffect ≠ .outputAffecting then reject (.output .unknownActuator)
  let actuator : ActuatorId := { instrument := id, parameter := heaterPower }
  let authority ← newAuthority actuator heater.valueSpec heater.unit
  modify fun s => { s with virtualInstruments := s.virtualInstruments.insert id instrument }
  installAuthorities [(actuator, authority)]

def registerThermalPlant (plant : ThermalPlant) : Step σ Unit := do
  let id := plant.descriptor.id
  requireFreeInstrument id
  match plant.descriptor.parameter heaterPower with
  | none => reject (.output .unknownActuator)
  | some heater =>
    let actuator : ActuatorId := { instrument := id, parameter := heaterPower }
    let authority ← newAuthority actuator heater.valueSpec heater.unit
    modify fun s => { s with thermalPlants := s.thermalPlants.insert id plant }
    installAuthorities [(actuator, authority)]

def registerMetakon (config : MetakonInstrumentConfig) : Step σ Unit := do
  let id := config.definition.id
  requireFreeInstrument id
  let instrument ← attempt (MetakonInstrument.new config)
  let authorities ← newAuthorities id instrument.descriptor.actuators
  modify fun s => { s with metakonInstruments := s.metakonInstruments.insert id instrument }
  installAuthorities authorities

def registerSimpleDevice (config : SimpleDeviceInstrumentConfig) (prepared : Bool) : Step σ Unit := do
  requireFreeInstrument config.id
  let s ← get
  if s.simpleDeviceInstruments.size ≥ maxSimpleInstruments then
    reject (.invalidConfiguration "simple-device instrument limit reached (32)")
  if !s.resources.contains config.binding.resource then reject (.transport .unknownResource)
  let instrument ← attempt (SimpleDeviceInstrument.new config)
  let authorities ← newAuthorities config.id instrument.descriptor.actuators
  modify fun s =>
    { s with
      simpleDeviceInstruments := s.simpleDeviceInstruments.insert config.id instrument
      preparedSimpleDevices := if prepared then config.id :: s.preparedSimpleDevices else s.preparedSimpleDevices }
  installAuthorities authorities

/-- `PublishPreparedSimpleDevices`, and the publication that was validated before. -/
def publishPreparedSimpleDevices (instruments : List InstrumentId) : Step σ Unit := do
  let s ← get
  if instruments.isEmpty || decide (instruments.length > 4) || !instruments.all s.instrumentIsPrepared then
    reject (.invalidConfiguration "invalid prepared simple-device publication")
  modify fun s =>
    { s with preparedSimpleDevices := s.preparedSimpleDevices.filter fun id => !instruments.contains id }

/-- Withdraw one queued output of a prepared instrument. -/
def cancelPreparedOutput (key : TransactionKey) (pending : PendingOutputWrite) : Step σ Unit := do
  match (← get).resources.get key.resource with
  | none => reject (.transport .unknownResource)
  | some r =>
    let (intent, executor) := r.executor.cancelQueuedOutput key.transaction
    modify fun s => { s with resources := s.resources.insert key.resource { r with executor := executor } }
    if intent.isNone && executor.outputMayHaveStarted key.transaction then
      reject (.invalidConfiguration "prepared simple-device has started physical work")
    onOutput pending.actuator fun authority => (.ok (), authority.abortTransport (intent.getD pending.intent))
    modify fun s => { s with pendingOutputWrites := s.pendingOutputWrites.remove key }

/-- Remove one controller of prepared topology; an active one stops the discard. -/
def dropPreparedController (id : ControllerId) : Step σ Unit := do
  match (← get).controllers.get id with
  | none => panicking
  | some controller =>
    if controller.state ≠ .created ∧ controller.state ≠ .ready then
      reject (.invalidConfiguration "prepared simple-device controller became active")
    modify fun s => { s with controllers := s.controllers.remove id }

/-- Remove one prepared instrument with its outputs. -/
def dropPreparedInstrument (id : InstrumentId) (s : Runtime σ) : Runtime σ :=
  let s := { s with preparedSimpleDevices := s.preparedSimpleDevices.filter fun prepared => prepared ≠ id }
  match s.simpleDeviceInstruments.get id with
  | none => s
  | some device =>
    device.descriptor.actuators.foldl (fun s parameter =>
      let actuator : ActuatorId := { instrument := id, parameter := parameter.id }
      { s with
        outputs := s.outputs.remove actuator
        outputAttempts := s.outputAttempts.remove actuator
        outputDispatchAttempts := s.outputDispatchAttempts.remove actuator })
      { s with simpleDeviceInstruments := s.simpleDeviceInstruments.remove id }

def discardPreparedSimpleDevices (instruments : List InstrumentId) : Step σ Unit := do
  if instruments.isEmpty || decide (instruments.length > 4) then
    reject (.invalidConfiguration "invalid prepared simple-device discard")
  let s ← get
  Procedure.forEach instruments fun id =>
    if !s.instrumentIsPrepared id then
      reject (.invalidConfiguration "prepared simple-device instrument missing")
    else if s.pendingSimpleReads.values.any fun pending => pending.instrument == id then
      reject (.invalidConfiguration "prepared simple-device has pending physical work")
    else pure ()
  Procedure.forEach (s.pendingOutputWrites.entries.filter fun (_, pending) =>
    instruments.contains pending.actuator.instrument) fun (key, pending) => cancelPreparedOutput key pending
  Procedure.forEach ((s.controllers.entries.filter fun (_, controller) =>
    instruments.contains controller.config.input.instrument || instruments.contains controller.config.output.instrument).map
      Prod.fst) dropPreparedController
  modify fun s => instruments.foldl (fun s id => s.dropPreparedInstrument id) s

/-! ### Reads -/

def expectedRead (binding : MetakonBinding) (operation : KnownOperation) : ExpectedRead :=
  let address : Address :=
    { device := binding.device, channel := binding.channel, register := operation.register }
  match operation with
  | .channelType => { address := address, valueType := .u8, readable := true, writable := false }
  | .temperature => { address := address, valueType := .i16, readable := true, writable := false }
  | .output => { address := address, valueType := .i8, readable := true, writable := true }

/-- Admit a read of an instrument to its resource. -/
def enqueueReadOn (fence : BindingFence) (request : List UInt8) (expectedResponse now deadline timeout : ℕ) :
    Step σ TransactionKey := do
  match (← get).resources.get fence.resource with
  | none => reject (.transport .unknownResource)
  | some r =>
    let (result, executor) := r.executor.enqueueRead request expectedResponse now deadline timeout true
      fence.bindingGeneration fence.mappingRevision
    modify fun s => { s with resources := s.resources.insert fence.resource { r with executor := executor } }
    match result with
    | .error error => reject (.transport error)
    | .ok transaction => return { resource := fence.resource, transaction := transaction }

def queueMetakonRead (instrument : InstrumentId) (parameter : ParameterId) (now queueTtl timeout : ℕ) : Step σ ℕ := do
  checkTransportTime now
  match (← get).metakonInstruments.get instrument with
  | none => reject (.unknownInstrument instrument)
  | some instance_ => match instance_.definition.parameterDefinition parameter with
    | none => reject (.unknownParameter instrument parameter)
    | some definition =>
      if definition.access = .writeOnly then reject (.operationNotAllowed parameter)
      let binding := instance_.binding
      let expected := expectedRead binding definition.operation
      match durationAdd now queueTtl, encodeRead expected.address with
      | none, _ => reject (.transport .invalidTransaction)
      | _, .error error => reject (.protocol error)
      | some deadline, .ok request =>
        let key ← enqueueReadOn binding.fence request expected.frameLen now deadline timeout
        let pending : PendingRead :=
          { instrument := instrument, parameter := parameter, expected := expected, operation := definition.operation
            scale := definition.scale, bindingGeneration := binding.bindingGeneration
            mappingRevision := binding.mappingRevision, failurePublished := false }
        modify fun s => { s with pendingReads := s.pendingReads.insert key pending }
        return key.transaction

def queueSimpleDeviceRead (instrument : InstrumentId) (parameter : ParameterId) (now queueTtl timeout : ℕ) : Step σ ℕ := do
  checkTransportTime now
  let s ← get
  if s.instrumentIsPrepared instrument then reject (.unknownInstrument instrument)
  match s.simpleDeviceInstruments.get instrument with
  | none => reject (.unknownInstrument instrument)
  | some instance_ => match instance_.plans.get parameter, durationAdd now queueTtl with
    | none, _ => reject (.unknownParameter instrument parameter)
    | _, none => reject (.transport .invalidTransaction)
    | some plan, some deadline =>
      let binding := instance_.binding
      let key ← enqueueReadOn binding.fence plan.request plan.response.exactLength now deadline timeout
      let pending : PendingSimpleRead :=
        { instrument := instrument, parameter := parameter, response := plan.response
          bindingGeneration := binding.bindingGeneration, mappingRevision := binding.mappingRevision
          failurePublished := false }
      modify fun s => { s with pendingSimpleReads := s.pendingSimpleReads.insert key pending }
      return key.transaction

/-! ### Rebinding -/

/-- Whether a live controller drives an output of an instrument. -/
def drivenLive (s : Runtime σ) (id : InstrumentId) : Bool :=
  s.controllers.values.any fun controller => controller.state.live && controller.config.output.instrument == id

/-- Whether a live controller reads or drives an instrument. -/
def usedLive (s : Runtime σ) (id : InstrumentId) : Bool :=
  s.controllers.values.any fun controller =>
    controller.state.live && (controller.config.input.instrument == id || controller.config.output.instrument == id)

/-- Push an unavailable sample into one window of a rebound instrument. -/
def invalidateSignal (now : ℕ) (signals : OrderedMap SignalId SignalBuffer) (signal : SignalId) (unit : EngineeringUnit) :
    Option (Except Error (OrderedMap SignalId SignalBuffer)) :=
  (signals.get signal).map fun buffer => match buffer.push (.unavailable signal unit now .transport) with
    | .error error => .error error
    | .ok buffer => .ok (signals.insert signal buffer)

/-- The windows after every signal became unavailable, as far as the first rejection. -/
def invalidateSignals (now : ℕ) : List (SignalId × EngineeringUnit) → OrderedMap SignalId SignalBuffer →
    Except Abort Unit × OrderedMap SignalId SignalBuffer
  | [], signals => (.ok (), signals)
  | (signal, unit) :: rest, signals => match invalidateSignal now signals signal unit with
    | none => (.error .panicked, signals)
    | some (.error error) => (.error (.rejected error), signals)
    | some (.ok signals) => invalidateSignals now rest signals

/-- The facts of the samples that a rebind pushed. -/
def invalidationFacts (now : ℕ) (signals : List (SignalId × EngineeringUnit)) (fence : BindingFence) (facts : FactOutbox) :
    FactOutbox :=
  signals.foldl (fun facts (signal, unit) =>
    facts.measurement (.unavailable signal unit now .transport) fence.bindingGeneration fence.mappingRevision) facts

/-- What every rebind ends with: correlations are pruned and new authorities installed. -/
def completeRebind (id : InstrumentId) (resource : ResourceId) (replacements : List (ActuatorId × OutputAuthority)) :
    Step σ PUnit :=
  modify fun s => { s with
    pendingOutputWrites := s.pendingOutputWrites.retain fun key _ => decide (key.resource ≠ resource)
    pendingOutputReadbacks := s.pendingOutputReadbacks.retain fun _ pending =>
      decide (pending.intent.actuator.instrument ≠ id)
    outputs := s.outputs.extend replacements }

/-- An output binding has a timing exactly if there is an output of that unit. -/
def metakonTimingConsistent (actuators : List ParameterDescriptor) (binding : MetakonBinding) : Bool :=
  match actuators, binding.expectedOutputUnit with
  | [], none => binding.outputQueueTtl.isNone && binding.outputTimeout.isNone
  | [output], some unit => output.unit == unit && binding.outputQueueTtl.isSome && binding.outputTimeout.isSome
  | _, _ => false

def rebindMetakon (id : InstrumentId) (binding : MetakonBinding) (now : ℕ) : Step σ Unit := do
  if (← get).drivenLive id then reject (.output .busy)
  checkOutputTime now
  let s ← get
  match s.metakonInstruments.get id with
  | none => reject (.unknownInstrument id)
  | some inst =>
    if binding.bindingGeneration = 0 ∨ binding.mappingRevision = 0 ∨ !s.resources.contains binding.resource then
      reject (.invalidConfiguration "invalid replacement binding")
    if !metakonTimingConsistent inst.descriptor.actuators binding then
      reject (.invalidConfiguration "output binding unit does not match descriptor")
    let replacements ← newAuthorities id inst.descriptor.actuators
    let (result, signals) := invalidateSignals now inst.descriptor.signals inst.signals
    modify fun s => { s with
      metakonInstruments := s.metakonInstruments.insert id { inst with binding := binding, signals := signals } }
    Procedure.lift result
    record (invalidationFacts now inst.descriptor.signals binding.fence)
    completeRebind id binding.resource replacements

def simpleTimingConsistent (writeCount : ℕ) (binding : SimpleDeviceBinding) : Bool :=
  match writeCount, binding.outputQueueTtl, binding.outputTimeout with
  | 0, none, none | 1, some _, some _ => true
  | _, _, _ => false

def rebindSimpleDevice (id : InstrumentId) (binding : SimpleDeviceBinding) (now : ℕ) : Step σ Unit := do
  let s ← get
  if s.drivenLive id then reject (.output .busy)
  match s.simpleDeviceInstruments.get id with
  | none => reject (.unknownInstrument id)
  | some inst =>
    if inst.writes.size = 0 then checkTransportTime now else checkOutputTime now
    if binding.bindingGeneration = 0 ∨ binding.mappingRevision = 0 ∨ !(← get).resources.contains binding.resource then
      reject (.invalidConfiguration "invalid replacement binding")
    if binding.bindingGeneration ≠ (checkedAdd inst.binding.bindingGeneration 1).getD 0 ∨
        binding.mappingRevision ≠ (checkedAdd inst.binding.mappingRevision 1).getD 0 then
      reject (.invalidConfiguration "stale simple-device rebind")
    if !simpleTimingConsistent inst.writes.size binding then
      reject (.invalidConfiguration "simple-device output binding is inconsistent")
    let replacements ← newAuthorities id inst.descriptor.actuators
    let (result, signals) := invalidateSignals now inst.descriptor.signals inst.signals
    modify fun s => { s with
      simpleDeviceInstruments :=
        s.simpleDeviceInstruments.insert id { inst with binding := binding, signals := signals } }
    Procedure.lift result
    record (invalidationFacts now inst.descriptor.signals binding.fence)
    completeRebind id binding.resource replacements

def reconfigureMetakon (config : MetakonInstrumentConfig) (expectedGeneration expectedRevision now : ℕ) : Step σ Unit := do
  let id := config.definition.id
  checkOutputTime now
  let s ← get
  match s.metakonInstruments.get id with
  | none => reject (.unknownInstrument id)
  | some current =>
    if current.binding.bindingGeneration ≠ expectedGeneration ∨ current.binding.mappingRevision ≠ expectedRevision ∨
        config.binding.bindingGeneration ≠ (checkedAdd expectedGeneration 1).getD 0 ∨
        config.binding.mappingRevision ≠ (checkedAdd expectedRevision 1).getD 0 ∨
        !s.resources.contains config.binding.resource then
      reject (.invalidConfiguration "stale or invalid Metakon replacement")
    if s.usedLive id then reject (.output .busy)
    let candidate ← attempt (MetakonInstrument.new config)
    let replacements ← newAuthorities id candidate.descriptor.actuators
    let (result, signals) := invalidateSignals now candidate.descriptor.signals candidate.signals
    Procedure.lift result
    modify fun s => { s with
      pendingReads := s.pendingReads.retain fun _ pending => decide (pending.instrument ≠ id)
      metakonInstruments := s.metakonInstruments.insert id { candidate with signals := signals } }
    completeRebind id candidate.binding.resource replacements
    record (invalidationFacts now candidate.descriptor.signals candidate.binding.fence)

def renameInstrument (id : InstrumentId) (name : String) : Step σ Unit := do
  attempt (validateName name)
  let s ← get
  let rename (d : InstrumentDescriptor) : InstrumentDescriptor := { d with name := name }
  match s.virtualInstruments.get id, s.metakonInstruments.get id, s.thermalPlants.get id, s.simpleDeviceInstruments.get id with
  | some i, _, _, _ =>
    set { s with virtualInstruments := s.virtualInstruments.insert id { i with descriptor := rename i.descriptor } }
  | none, some i, _, _ =>
    set { s with metakonInstruments := s.metakonInstruments.insert id { i with descriptor := rename i.descriptor } }
  | none, none, some i, _ =>
    set { s with thermalPlants := s.thermalPlants.insert id { i with descriptor := rename i.descriptor } }
  | none, none, none, some i =>
    set { s with simpleDeviceInstruments := s.simpleDeviceInstruments.insert id { i with descriptor := rename i.descriptor } }
  | none, none, none, none => reject (.unknownInstrument id)

/-! ### Transports -/

def registerTransport (resource : ResourceId) (adapter : σ) (recoveryTimeout : ℕ) : Step σ Unit := do
  let s ← get
  if s.resources.contains resource then reject (.transport .duplicateResource)
  if s.resources.size ≥ maxTransportResources then reject (.transport .resourceLimit)
  match ResourceExecutor.withRecoveryTimeout resource recoveryTimeout with
  | .error error => reject (.transport error)
  | .ok executor =>
    modify fun s => { s with resources := s.resources.insert resource { executor := executor, adapter := adapter } }

/-- Install a new adapter once the old executor reported a finite shutdown. -/
def replaceTransport (A : ByteTransport σ) (resource : ResourceId) (adapter : σ) (recoveryTimeout : ℕ) : Step σ Unit := do
  let s ← get
  match s.resources.get resource with
  | none => reject (.transport .unknownResource)
  | some r => match checkedAdd r.executor.generation 1 with
    | none => reject (.transport .counterExhausted)
    | some generation =>
      let status ← shutdownTransport A resource s.transportTime
      if status ≠ .complete then reject (.transport .resourceBusy)
      match ResourceExecutor.replacement resource recoveryTimeout generation with
      | .error error => reject (.transport error)
      | .ok executor =>
        modify fun s => { s with resources := s.resources.insert resource { executor := executor, adapter := adapter } }

/-! ### Recording -/

def enableRecordingFacts : Step σ PUnit :=
  modify fun s => s.outputs.keys.foldl syncRecordingOutputContext { s with recordingFacts := s.recordingFacts.enable }

def requireRecording : Step σ PUnit :=
  modify fun s => { s with requiredRecording :=
    { enabled := true, isOpen := false, failed := false, generation := min (s.requiredRecording.generation + 1) u64Max
      validUntil := none, confirmedSubmission := none } }

/-- Open or extend the gate with a submission that was confirmed in time. -/
def creditSubmission (submittedAt now : ℕ) : Step σ Unit := do
  match durationAdd submittedAt requiredProgressAge with
  | none => reject .recordingUnavailable
  | some deadline =>
    if now ≥ deadline then
      modify fun s => s.recordingFailure now
      reject .recordingUnavailable
    modify fun s => { s with requiredRecording :=
      { s.requiredRecording with
        isOpen := true, validUntil := some deadline, confirmedSubmission := some submittedAt } }

def confirmRecordingStart (submittedAt now : ℕ) : Step σ Unit := do
  let gate := (← get).requiredRecording
  if !gate.enabled || gate.failed || decide (submittedAt > now) then reject .recordingUnavailable
  creditSubmission submittedAt now

/-- The gate is open here, so that crediting leaves it open. -/
def confirmRecordingProgress (submittedAt now : ℕ) : Step σ Unit := do
  modify fun s => s.serviceRequiredRecordingDeadline now
  let gate := (← get).requiredRecording
  if !gate.isOpen || decide (submittedAt > now) || gate.confirmedSubmission.any (fun old => decide (submittedAt ≤ old)) then
    reject .recordingUnavailable
  creditSubmission submittedAt now

def closeRequiredRecording : Step σ PUnit :=
  modify fun s => if s.requiredRecording.enabled then
      { s with requiredRecording := { s.requiredRecording with isOpen := false, validUntil := none } }
    else s

end LabRuntime.Runtime
