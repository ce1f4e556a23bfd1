import LabRuntime.Runtime.Control

/-! Physical acquisition, output correlation and transport retirement. -/

namespace LabRuntime.Runtime

open Metakon

variable {σ : Type}

/-! ### Queueing an output -/

/-- The request of an intent, its response length, and how its answer will be read. -/
def prepareOutput (s : Runtime σ) (actuator : ActuatorId) (intent : OutputIntent) :
    Except Error (List UInt8 × ℕ × PendingOutputProtocol) :=
  match s.metakonInstruments.get actuator.instrument with
  | some inst =>
    match (inst.definition.parameterDefinition actuator.parameter).filter
        (fun definition => definition.operation == .output) with
    | none => .error (.output .unknownActuator)
    | some definition => match encodeScaledI8 (.float intent.value) definition.scale with
    | .error error => .error (.protocol error)
    | .ok raw =>
      let address : Address := { device := inst.binding.device, channel := inst.binding.channel, register := 6 }
      match encodeWrite address (.i8 raw) with
      | .error error => .error (.protocol error)
      | .ok request => .ok (request, 5, .metakon)
  | none => match (s.simpleDeviceInstruments.get actuator.instrument).bind fun i => i.writes.get actuator.parameter with
    | none => .error (.output .unknownActuator)
    | some plan => match plan.encode intent.value with
    | none => .error (.invalidConfiguration "simple output cannot be encoded")
    | some (request, expectedRaw) =>
      .ok (request, plan.ack.exactLength, .simple plan.ack plan.readback expectedRaw)

/-- Admit the request of a reserved intent to its resource. -/
def enqueueOutputOn (resource : ResourceId) (request : List UInt8) (expectedResponse now deadline timeout : ℕ)
    (intent : OutputIntent) : Step σ (Except TransportError ℕ) := do
  match (← get).resources.get resource with
  | none => return .error .unknownResource
  | some r =>
    let (result, executor) := r.executor.enqueueOutput request expectedResponse now deadline timeout intent
    modify fun s => { s with resources := s.resources.insert resource { r with executor := executor } }
    return result

def queueMetakonOutput (actuator : ActuatorId) (now queueTtl timeout : ℕ) : Step σ ℕ := do
  checkTransportTime now
  match durationAdd now queueTtl, (← get).fence actuator.instrument with
  | none, _ => reject (.transport .invalidTransaction)
  | _, none => reject (.output .unknownActuator)
  | some deadline, some fence =>
    let s ← get
    let intent ← onOutput actuator fun authority =>
      authority.reserveTransport now deadline (s.outputAttempts.get actuator) fence.bindingGeneration
        fence.mappingRevision
    match s.prepareOutput actuator intent with
    | .error error =>
      changeOutput actuator fun authority => authority.abortTransport intent
      reject error
    | .ok (request, expectedResponse, protocol) =>
      match ← enqueueOutputOn fence.resource request expectedResponse now deadline timeout intent with
      | .ok transaction =>
        let key : TransactionKey := { resource := fence.resource, transaction := transaction }
        let pending : PendingOutputWrite :=
          { actuator := actuator, intent := intent, timeout := timeout, protocol := protocol }
        modify fun s => { s with pendingOutputWrites := s.pendingOutputWrites.insert key pending }
        return transaction
      | .error error =>
        changeOutput actuator fun authority => authority.abortTransport intent
        reject (.transport error)

/-- The output timing of the physical binding of an instrument. -/
def outputTiming (s : Runtime σ) (id : InstrumentId) : Option (Option ℕ × Option ℕ) :=
  ((s.metakonInstruments.get id).map fun i => (i.binding.outputQueueTtl, i.binding.outputTimeout)).or
    ((s.simpleDeviceInstruments.get id).map fun i => (i.binding.outputQueueTtl, i.binding.outputTimeout))

/-- Number a delivery and hand its proposal to the authority. -/
def proposeDelivery (actuator : ActuatorId) (proposal : OutputProposal) (calculation : Option Calculation)
    (virtualSimulation : Bool) (now : ℕ) : Step σ Unit := do
  let attemptId ← allocateOutputAttempt
  let _ ← onOutput actuator fun authority => authority.command (.propose proposal) now
  if proposal.lease.owner.isManual then
    match (← get).outputs.get actuator with
    | none => panicking
    | some authority => match authority.trackManualAttempt attemptId virtualSimulation with
      | none => panicking
      | some authority => modify fun s => { s with outputs := s.outputs.insert actuator authority }
  modify fun s => { s with
    outputAttempts := s.outputAttempts.insert actuator attemptId
    calculations := s.calculations ++ (calculation.map fun calculation => (attemptId, calculation)).toList }
  let s ← get
  let requested := (s.outputs.get actuator).bind fun authority => authority.snapshot.requested
  record fun facts => facts.outputCorrelated actuator .requested requested now .none (some attemptId) none

def deliverPhysical (actuator : ActuatorId) (proposal : OutputProposal) (calculation : Option Calculation) (now : ℕ) :
    Step σ Unit := do
  proposeDelivery actuator proposal calculation false now
  requireRecordingOpen now
  match (← get).outputTiming actuator.instrument with
  | none => reject (.output .unknownActuator)
  | some (some queueTtl, some timeout) =>
    let _ ← queueMetakonOutput actuator now queueTtl timeout
  | some _ => reject (.invalidConfiguration "physical output timing missing")

/-! ### Measurements -/

/-- Push one sample into the window of a Metakon signal. -/
def pushMetakonSample (id : InstrumentId) (sample : Sample) : Step σ Unit := do
  match (← get).metakonInstruments.get id with
  | none => reject (.unknownInstrument id)
  | some inst => match inst.signals.get sample.signal with
    | none => panicking
    | some buffer => match buffer.push sample with
      | .error error => reject error
      | .ok buffer =>
        let inst := { inst with signals := inst.signals.insert sample.signal buffer }
        modify fun s => { s with metakonInstruments := s.metakonInstruments.insert id inst }

def pushSimpleSample (id : InstrumentId) (sample : Sample) : Step σ Unit := do
  match (← get).simpleDeviceInstruments.get id with
  | none => reject (.unknownInstrument id)
  | some inst => match inst.signals.get sample.signal with
    | none => panicking
    | some buffer => match buffer.push sample with
      | .error error => reject error
      | .ok buffer =>
        let inst := { inst with signals := inst.signals.insert sample.signal buffer }
        modify fun s => { s with simpleDeviceInstruments := s.simpleDeviceInstruments.insert id inst }

/-- The descriptor of the parameter a pending Metakon read is about. -/
def metakonParameter (id : InstrumentId) (parameter : ParameterId) : Step σ ParameterDescriptor := do
  match (← get).metakonInstruments.get id with
  | none => reject (.unknownInstrument id)
  | some inst => match inst.descriptor.parameter parameter with
    | none => reject (.unknownParameter id parameter)
    | some descriptor => return descriptor

def simpleParameter (id : InstrumentId) (parameter : ParameterId) : Step σ ParameterDescriptor := do
  match (← get).simpleDeviceInstruments.get id with
  | none => reject (.unknownInstrument id)
  | some inst => match inst.descriptor.parameter parameter with
    | none => reject (.unknownParameter id parameter)
    | some descriptor => return descriptor

/-- The sample a decoded value becomes: none for an output register. -/
def metakonReading (pending : PendingRead) (value : MetakonValue) : Except Error (Option Reading) :=
  match pending.operation with
  | .channelType =>
    if value = .u8 3 then .ok (some (.good (.integer 3))) else .ok (some (.unavailable .transport))
  | .temperature => match scaleTemperature value pending.scale with
    | .error error => .error (.protocol error)
    | .ok (.value value) => .ok (some (.good (.float value)))
    | .ok .sensorFault => .ok (some (.unavailable .sensorFault))
  | .output => .ok none

def applyMetakonValue (pending : PendingRead) (value : MetakonValue) (now : ℕ) : Step σ Unit := do
  let descriptor ← metakonParameter pending.instrument pending.parameter
  match descriptor.signal with
  | none => pure ()
  | some signal => match metakonReading pending value with
    | .error error => reject error
    | .ok none => pure ()
    | .ok (some (.unavailable reason)) =>
      pushMetakonSample pending.instrument (.unavailable signal descriptor.unit now reason)
    | .ok (some (.good value)) =>
      attempt (descriptor.valueSpec.validate value)
      pushMetakonSample pending.instrument (.good signal descriptor.unit now value)

def pushTransportFailure (pending : PendingRead) (now : ℕ) : Step σ Unit := do
  let descriptor ← metakonParameter pending.instrument pending.parameter
  match descriptor.signal with
  | none => pure ()
  | some signal => pushMetakonSample pending.instrument (.unavailable signal descriptor.unit now .transport)

def applySimpleValue (pending : PendingSimpleRead) (value : Value) (now : ℕ) : Step σ Unit := do
  let descriptor ← simpleParameter pending.instrument pending.parameter
  attempt (descriptor.valueSpec.validate value)
  match descriptor.signal with
  | none => reject (.operationNotAllowed pending.parameter)
  | some signal => pushSimpleSample pending.instrument (.good signal descriptor.unit now value)

def pushSimpleTransportFailure (pending : PendingSimpleRead) (now : ℕ) : Step σ Unit := do
  let descriptor ← simpleParameter pending.instrument pending.parameter
  match descriptor.signal with
  | none => reject (.operationNotAllowed pending.parameter)
  | some signal => pushSimpleSample pending.instrument (.unavailable signal descriptor.unit now .transport)

/-- Record the latest sample of a signal if it was pushed at this time. -/
def recordSampleAt (signals : OrderedMap SignalId SignalBuffer) (descriptor : InstrumentDescriptor)
    (parameter : ParameterId) (fence : BindingFence) (now : ℕ) (facts : FactOutbox) : FactOutbox :=
  let sample := ((descriptor.parameter parameter).bind ParameterDescriptor.signal).bind fun signal =>
    (signals.get signal).bind SignalBuffer.latest
  match sample with
  | some sample =>
    if sample.time = now then facts.measurement sample fence.bindingGeneration fence.mappingRevision else facts
  | none => facts

def recordPendingSampleAt (pending : PendingRead) (now : ℕ) : Step σ Unit := do
  match (← get).metakonInstruments.get pending.instrument with
  | none => pure ()
  | some inst => record (recordSampleAt inst.signals inst.descriptor pending.parameter inst.binding.fence now)

def recordPendingSimpleSampleAt (pending : PendingSimpleRead) (now : ℕ) : Step σ Unit := do
  match (← get).simpleDeviceInstruments.get pending.instrument with
  | none => pure ()
  | some inst => record (recordSampleAt inst.signals inst.descriptor pending.parameter inst.binding.fence now)

/-! ### Transport events -/

/-- Ask the executor of a resource for a clean generation. -/
def protocolFailureOn (resource : ResourceId) : Step σ Unit := do
  match (← get).resources.get resource with
  | none => panicking
  | some r =>
    let (result, executor) := r.executor.protocolFailure
    modify fun s => { s with resources := s.resources.insert resource { r with executor := executor } }
    match result with
    | .ok _ => pure ()
    | .error error => reject (.transport error)

def transportFact (intent : OutputIntent) (resource : ResourceId) (stage : OutputStage) (now : ℕ)
    (dispatch : Option DispatchId) : Step σ PUnit :=
  record fun facts => facts.outputTransport intent resource stage now .transportProtocol dispatch

/-- The running controller whose lease covers an actuator. -/
def runningController (s : Runtime σ) (actuator : ActuatorId) : Option (ControllerId × NativeController) :=
  s.controllers.entries.find? fun (_, controller) =>
    controller.state == .running && controller.config.output == actuator && controller.lease.isSome

/-- The lease after a delivery: the next one for a match that may renew it. -/
def renewAfterDelivery (actuator : ActuatorId) (controller : NativeController) (isMatch : Bool) (now : ℕ) :
    Step σ (Option OutputLease) := do
  if isMatch then match controller.lease, (← get).outputs.get actuator with
    | none, _ => panicking
    | _, none => reject (.output .unknownActuator)
    | some lease, some authority =>
      let (result, authority) := authority.renewNative lease controller.config.leaseLifetime now
      modify fun s => { s with outputs := s.outputs.insert actuator authority }
      return result.toOption
  else return none

/-- Put the controller of a settled delivery back, with its next lease or failed. -/
def concludeDelivery (id : ControllerId) (controller : NativeController) (renewal : Option OutputLease) (now : ℕ) :
    Step σ Unit := do
  match renewal with
  | some replacement =>
    let controller := { controller with lease := some replacement, latestOutput := controller.pidLatest }
    modify fun s => { s with controllers := s.controllers.insert id controller }
  | none =>
    failController controller now
    record fun facts => facts.controller id .failed controller.configRevision none now
    modify fun s => { s with controllers := s.controllers.insert id controller.fail }

/-- Renew or fail the controller whose delivery has settled. Until it is put back it is nowhere. -/
def settleControllerAfterPhysicalReadback (actuator : ActuatorId) (isMatch : Bool) (now : ℕ) : Step σ Unit := do
  match (← get).runningController actuator with
  | none => pure ()
  | some (id, controller) =>
    modify fun s => { s with controllers := s.controllers.remove id }
    let renewal ← renewAfterDelivery actuator controller isMatch now
    concludeDelivery id controller renewal now

def failOutputReadback (resource : ResourceId) (pending : PendingOutputReadback) (now : ℕ) : Step σ Unit := do
  let actuator := pending.intent.actuator
  if (← get).outputs.contains actuator then
    onOutput actuator fun authority => authority.failTransportReadback pending.dispatch now
    transportFact pending.intent resource .ambiguous now (some pending.dispatch)
  if !pending.intent.safe then settleControllerAfterPhysicalReadback actuator false now

/-- The reported value of a readback response and whether it matches exactly. -/
def decodeReadback (s : Runtime σ) (pending : PendingOutputReadback) (response : Option (List UInt8)) :
    Option (F64 × Bool) :=
  match pending.protocol, response with
  | .metakon expected scale, some bytes => match decodeRead bytes expected with
    | .ok (.i8 raw) => some ((F64.ofInt raw.toInt).mul scale, true)
    | _ => none
  | .simple plan expectedRaw, some bytes =>
    ((s.simpleDeviceInstruments.get pending.intent.actuator.instrument).bind fun i =>
      i.descriptor.parameter pending.intent.actuator.parameter).bind fun descriptor =>
        plan.response.verifyReadback bytes descriptor expectedRaw
  | _, none => none

def handleOutputReadback (resource : ResourceId) (pending : PendingOutputReadback) (record : TransactionRecord)
    (response : Option (List UInt8)) (now : ℕ) : Step σ Unit := do
  let s ← get
  let actuator := pending.intent.actuator
  if s.fence actuator.instrument ≠ some (pending.intent.fence resource) then return
  if record.outcome ≠ .completed then failOutputReadback resource pending now
  else match s.decodeReadback pending response with
  | none =>
    failOutputReadback resource pending now
    protocolFailureOn resource
  | some (reported, exactMatch) =>
    let matched ← onOutput actuator fun authority => match pending.protocol with
      | .metakon .. => authority.completeTransportReadback pending.dispatch reported now
      | .simple .. => authority.completeTransportReadbackExact pending.dispatch reported exactMatch now
    let stage : OutputStage :=
      if matched then (if pending.intent.safe then .safeReadbackVerified else .readbackVerified) else .failed
    Runtime.record fun facts =>
      facts.outputTransportValue pending.intent resource stage now .transportProtocol (some pending.dispatch) reported
    if !pending.intent.safe then settleControllerAfterPhysicalReadback actuator matched now

/-- The read behind a correlation lost its boundary: its signal becomes unavailable at once. -/
def handleReadUnavailable (key : TransactionKey) (bindingGeneration mappingRevision now : ℕ) : Step σ Unit := do
  let s ← get
  let reported : BindingFence :=
    { resource := key.resource, bindingGeneration := bindingGeneration, mappingRevision := mappingRevision }
  match s.pendingReads.get key with
  | some pending =>
    if pending.fence key.resource = reported ∧
        (s.metakonInstruments.get pending.instrument).map (fun i => i.binding.fence) = some reported then
      pushTransportFailure pending now
      recordPendingSampleAt pending now
      modify fun s =>
        { s with pendingReads := s.pendingReads.insert key { pending with failurePublished := true } }
  | none => match s.pendingSimpleReads.get key with
    | some pending =>
      if pending.fence key.resource = reported ∧
          (s.simpleDeviceInstruments.get pending.instrument).map (fun i => i.binding.fence) = some reported then
        pushSimpleTransportFailure pending now
        recordPendingSimpleSampleAt pending now
        modify fun s =>
          { s with pendingSimpleReads := s.pendingSimpleReads.insert key { pending with failurePublished := true } }
    | none => pure ()

def handleReadFenced (key : TransactionKey) (now : ℕ) : Step σ Unit := do
  modify fun s => { s with
    pendingReads := s.pendingReads.remove key
    pendingSimpleReads := s.pendingSimpleReads.remove key }
  match (← get).pendingOutputReadbacks.get key with
  | none => pure ()
  | some pending =>
    modify fun s => { s with pendingOutputReadbacks := s.pendingOutputReadbacks.remove key }
    failOutputReadback key.resource pending now

def handleSimpleRead (key : TransactionKey) (pending : PendingSimpleRead) (record : TransactionRecord)
    (response : Option (List UInt8)) (now : ℕ) : Step σ Unit := do
  match (← get).simpleDeviceInstruments.get pending.instrument with
  | none => pure ()
  | some inst =>
    if inst.binding.fence ≠ pending.fence key.resource then return
    if record.outcome = .completed then
      let value := response.bind fun bytes => (inst.descriptor.parameter pending.parameter).bind fun descriptor =>
        pending.response.decode bytes descriptor
      match value with
      | some value => applySimpleValue pending value now
      | none =>
        pushSimpleTransportFailure pending now
        protocolFailureOn key.resource
    else if !pending.failurePublished then pushSimpleTransportFailure pending now
    recordPendingSimpleSampleAt pending now

def handleMetakonRead (key : TransactionKey) (pending : PendingRead) (record : TransactionRecord)
    (response : Option (List UInt8)) (now : ℕ) : Step σ Unit := do
  match (← get).metakonInstruments.get pending.instrument with
  | none => pure ()
  | some inst =>
    if inst.binding.fence ≠ pending.fence key.resource then return
    if record.outcome = .completed then
      let decoded : Except CodecError MetakonValue := match response with
        | some bytes => decodeRead bytes pending.expected
        | none => .error .wrongLength
      match decoded with
      | .ok value => applyMetakonValue pending value now
      | .error _ =>
        pushTransportFailure pending now
        protocolFailureOn key.resource
    else if !pending.failurePublished then pushTransportFailure pending now
    recordPendingSampleAt pending now

def handleReadTerminal (resource : ResourceId) (record : TransactionRecord) (response : Option (List UInt8))
    (now : ℕ) : Step σ Unit := do
  let key : TransactionKey := { resource := resource, transaction := record.id }
  let s ← get
  match s.pendingOutputReadbacks.get key with
  | some pending =>
    modify fun s => { s with pendingOutputReadbacks := s.pendingOutputReadbacks.remove key }
    handleOutputReadback resource pending record response now
  | none => match s.pendingSimpleReads.get key with
    | some pending =>
      modify fun s => { s with pendingSimpleReads := s.pendingSimpleReads.remove key }
      handleSimpleRead key pending record response now
    | none => match s.pendingReads.get key with
      | some pending =>
        modify fun s => { s with pendingReads := s.pendingReads.remove key }
        handleMetakonRead key pending record response now
      | none => pure ()

def handleOutputUncertain (resource : ResourceId) (id : ℕ) (intent : OutputIntent) (dispatch : DispatchId)
    (now : ℕ) : Step σ Unit := do
  modify fun s =>
    { s with pendingOutputWrites := s.pendingOutputWrites.remove { resource := resource, transaction := id } }
  if (← get).outputs.contains intent.actuator then
    onOutput intent.actuator fun authority => authority.transportUncertain dispatch
    transportFact intent resource .transportUncertain now (some dispatch)

/-- The device and channel of the Metakon binding behind an actuator. -/
def metakonAddress (s : Runtime σ) (actuator : ActuatorId) : Option Address :=
  (s.metakonInstruments.get actuator.instrument).map fun i =>
    { device := i.binding.device, channel := i.binding.channel, register := 6 }

/-- Whether the answer to a write is the acknowledgement it expects. -/
def ackValid (s : Runtime σ) (actuator : ActuatorId) (pending : Option PendingOutputWrite)
    (response : Option (List UInt8)) : Bool :=
  match pending, response with
  | some pending, some bytes => match pending.protocol with
    | .metakon => (s.metakonAddress actuator).any fun address => (decodeAck bytes address).toOption.isSome
    | .simple ack _ _ => ack.accepts bytes
  | _, _ => false

/-- The separate readback of an acknowledged write: request, response length, and how it is compared. -/
def prepareReadback (s : Runtime σ) (actuator : ActuatorId) (protocol : PendingOutputProtocol) :
    Except Error (List UInt8 × ℕ × PendingReadbackProtocol) :=
  match protocol with
  | .metakon => match s.metakonAddress actuator with
    | none => .error (.invalidConfiguration "Metakon output binding missing")
    | some address =>
      let expected : ExpectedRead := { address := address, valueType := .i8, readable := true, writable := true }
      match encodeRead address with
      | .error error => .error (.protocol error)
      | .ok request =>
        match (s.metakonInstruments.get actuator.instrument).bind fun i =>
          i.definition.parameterDefinition actuator.parameter with
        | none => .error (.output .unknownActuator)
        | some definition => .ok (request, expected.frameLen, .metakon expected definition.scale)
  | .simple _ readback expectedRaw => match readback with
    | none => .error (.invalidConfiguration "simple output requires missing readback plan")
    | some plan => .ok (plan.request, plan.response.exactLength, .simple plan expectedRaw)

/-- Queue the readback of an acknowledged write. -/
def queueReadback (resource : ResourceId) (intent : OutputIntent) (dispatch : DispatchId)
    (pendingWrite : Option PendingOutputWrite) (now : ℕ) : Step σ Unit := do
  match pendingWrite with
  | none => reject (.invalidConfiguration "physical output readback timeout missing")
  | some pendingWrite =>
    let (request, expectedLength, protocol) ← attempt ((← get).prepareReadback intent.actuator pendingWrite.protocol)
    match durationAdd now pendingWrite.timeout, (← get).resources.get resource with
    | none, _ => reject (.transport .invalidTransaction)
    | _, none => panicking
    | some deadline, some r =>
      let (result, executor) := r.executor.enqueueRead request expectedLength now deadline pendingWrite.timeout false
        intent.bindingGeneration intent.mappingRevision
      modify fun s => { s with resources := s.resources.insert resource { r with executor := executor } }
      let pending : PendingOutputReadback := { intent := intent, dispatch := dispatch, protocol := protocol }
      match result with
      | .ok transaction =>
        let key : TransactionKey := { resource := resource, transaction := transaction }
        modify fun s => { s with pendingOutputReadbacks := s.pendingOutputReadbacks.insert key pending }
      | .error _ => failOutputReadback resource pending now

def acknowledgeOutput (resource : ResourceId) (intent : OutputIntent) (dispatch : DispatchId)
    (pendingWrite : Option PendingOutputWrite) (now : ℕ) : Step σ Unit := do
  match (← get).outputs.get intent.actuator with
  | none => reject (.output .unknownActuator)
  | some authority =>
    let requiresReadback ← attempt authority.requiresReadback
    settle intent.actuator (if requiresReadback then authority.acknowledgeTransport dispatch now
      else authority.completeTransport dispatch .acknowledged now)
    transportFact intent resource (if intent.safe then .safeAcknowledged else .acknowledged) now (some dispatch)
    if requiresReadback then queueReadback resource intent dispatch pendingWrite now
    else if !intent.safe then settleControllerAfterPhysicalReadback intent.actuator true now

/-- A started output ended. A bad answer keeps it unsettled until the boundary is clean again. -/
def handleStartedOutput (resource : ResourceId) (intent : OutputIntent) (dispatch : DispatchId)
    (pendingWrite : Option PendingOutputWrite) (record : TransactionRecord) (response : Option (List UInt8))
    (now : ℕ) : Step σ Unit := do
  let s ← get
  let actuator := intent.actuator
  if record.outcome = .completed ∧ s.fence actuator.instrument = some (intent.fence resource) then
    if s.ackValid actuator pendingWrite response then acknowledgeOutput resource intent dispatch pendingWrite now
    else if s.outputs.contains actuator then
      onOutput actuator fun authority => authority.transportUncertain dispatch
      transportFact intent resource .transportUncertain now (some dispatch)
      modify fun s => { s with unsettledOutputs := s.unsettledOutputs.insert resource (intent, dispatch) }
      protocolFailureOn resource
  else if s.outputs.contains actuator then
    onOutput actuator fun authority => authority.completeTransport dispatch .ambiguous now
    transportFact intent resource .ambiguous now (some dispatch)

def handleOutputTerminal (resource : ResourceId) (intent : OutputIntent) (dispatch : Option DispatchId)
    (record : TransactionRecord) (response : Option (List UInt8)) (now : ℕ) : Step σ Unit := do
  let key : TransactionKey := { resource := resource, transaction := record.id }
  let pendingWrite := (← get).pendingOutputWrites.get key
  modify fun s => { s with pendingOutputWrites := s.pendingOutputWrites.remove key }
  match dispatch with
  | none =>
    changeOutput intent.actuator fun authority => authority.failTransportBeforeSend intent
    transportFact intent resource .rejectedBeforeSend now none
  | some dispatch => handleStartedOutput resource intent dispatch pendingWrite record response now

def handleBoundaryRecovered (resource : ResourceId) (now : ℕ) : Step σ Unit := do
  match (← get).unsettledOutputs.get resource with
  | none => pure ()
  | some (intent, dispatch) =>
    modify fun s => { s with unsettledOutputs := s.unsettledOutputs.remove resource }
    if (← get).outputs.contains intent.actuator then
      onOutput intent.actuator fun authority => authority.completeTransport dispatch .ambiguous now
      transportFact intent resource .ambiguous now (some dispatch)

def handleTransportEvent (resource : ResourceId) (event : TransportEvent) (now : ℕ) : Step σ Unit :=
  match event with
  | .readUnavailable id bindingGeneration mappingRevision =>
    handleReadUnavailable { resource := resource, transaction := id } bindingGeneration mappingRevision now
  | .readFenced id => handleReadFenced { resource := resource, transaction := id } now
  | .readTerminal record response => handleReadTerminal resource record response now
  | .outputUncertain id intent dispatch => handleOutputUncertain resource id intent dispatch now
  | .outputTerminal intent dispatch record response =>
    handleOutputTerminal resource intent dispatch record response now
  | .boundaryRecovered => handleBoundaryRecovered resource now
  | .boundaryFailed => pure ()

/-! ### Polling and retirement -/

/-- What an authorizer may change. -/
structure Permit where
  outputs : OrderedMap ActuatorId OutputAuthority
  facts : FactOutbox
  sends : List Send

/-- The final check of an intent, and the first accepted byte. -/
def authorizeStep (resource : ResourceId) (gate : RequiredGate) (intent : OutputIntent) (step : AuthorizationStep) (now : ℕ)
    (permit : Permit) : Except Unit (Option DispatchId) × Permit :=
  match permit.outputs.get intent.actuator, step with
  | none, _ => (.error (), permit)
  | some authority, .validate => match authority.validateTransport intent now with
    | .ok _ => (.ok none, permit)
    | .error _ => (.error (), permit)
  | some authority, .started => match authority.beginTransport intent now with
    | (.error _, authority) => (.error (), { permit with outputs := permit.outputs.insert intent.actuator authority })
    | (.ok dispatch, authority) =>
      let facts := if intent.safe then
          permit.facts.outputTransport intent resource .safeSendStarted now .transportProtocol (some dispatch)
        else
          (permit.facts.outputTransport intent resource .authorized now .none (some dispatch)).outputTransport
            intent resource .sendStarted now .transportProtocol (some dispatch)
      let send : Send :=
        { actuator := intent.actuator, dispatch := dispatch, safe := intent.safe, value := intent.value, lease := intent.lease,
          attempt := intent.attemptId, time := now, gate := gate, overflowed := permit.facts.overflowed }
      (.ok (some dispatch),
        { outputs := permit.outputs.insert intent.actuator authority, facts := facts, sends := permit.sends ++ [send] })

/-- The authorizer of one poll of a resource. -/
def authorizer (s : Runtime σ) (resource : ResourceId) (now : ℕ) (permit : Permit) (intent : OutputIntent)
    (step : AuthorizationStep) : Except Unit (Option DispatchId) × Permit :=
  let requiredOpen := !s.requiredRecording.enabled || s.requiredRecording.isOpen
  if !intent.safe && !requiredOpen then (.error (), permit)
  else if s.fence intent.actuator.instrument ≠ some (intent.fence resource) then (.error (), permit)
  else authorizeStep resource s.requiredRecording intent step now permit

/-- One turn of one executor. An executor whose turn is rejected is not put back. -/
def pollExecutor (A : ByteTransport σ) (resource : ResourceId) (now : ℕ) : Step σ (Option TransportEvent) := do
  modify fun s => s.serviceRequiredRecordingDeadline now
  let s ← get
  match s.resources.get resource with
  | none => reject (.transport .unknownResource)
  | some r =>
    let permit : Permit := { outputs := s.outputs, facts := s.recordingFacts, sends := s.sends }
    let ((result, executor), adapter, permit) :=
      r.executor.pollAuthorized (A.boundary (s.authorizer resource now)) (r.adapter, permit) now
    let s := { s with outputs := permit.outputs, recordingFacts := permit.facts, sends := permit.sends }
    match result with
    | .error error =>
      set { s with resources := s.resources.remove resource }
      reject (.transport error)
    | .ok event =>
      set { s with resources := s.resources.insert resource { executor := executor, adapter := adapter } }
      return event

def pollResource (A : ByteTransport σ) (now : ℕ) (resource : ResourceId) : Step σ Unit := do
  match ← pollExecutor A resource now with
  | some event => handleTransportEvent resource event now
  | none => pure ()

/-- The clocks of a poll, and the capture context of every physical output. -/
def openPoll (now : ℕ) : Step σ Unit := do
  modify fun s => s.serviceRequiredRecordingDeadline now
  checkTransportTime now
  checkOutputTime now
  modify fun s =>
    (s.outputs.keys.filter fun actuator => s.physical actuator.instrument).foldl syncRecordingOutputContext s

def pollTransports (A : ByteTransport σ) (now : ℕ) : Step σ Unit := do
  openPoll now
  Procedure.forEach (← get).resources.keys (pollResource A now)

/-- Fence the work of a resource and make one retirement attempt. -/
def retireResource (A : ByteTransport σ) (resource : ResourceId) (now : ℕ) :
    Step σ (TransportShutdown × List TransportEvent) := do
  checkTransportTime now
  match (← get).resources.get resource with
  | none => reject (.transport .unknownResource)
  | some r =>
    let boundary := A.boundary fun (_ : Unit) _ _ => (.error (), ())
    let ((status, executor), adapter, _) := r.executor.tryShutdown boundary (r.adapter, ())
    let retired : Resource σ := { executor := { executor with events := [] }, adapter := adapter }
    modify fun s => { s with resources := s.resources.insert resource retired }
    return (status, executor.events)

def shutdownTransport (A : ByteTransport σ) (resource : ResourceId) (now : ℕ) : Step σ TransportShutdown := do
  let (status, events) ← retireResource A resource now
  Procedure.forEach events fun event => handleTransportEvent resource event now
  return status

/-! ### Safety service -/

/-- A live controller that must fail: its tick is late, its input unusable, or its lease gone. -/
def mustFail (s : Runtime σ) (controller : NativeController) (now : ℕ) : Bool :=
  let timedOut := controller.lastTick.any fun last => decide (now > last ∧ now - last > controller.config.maxTickGap)
  let inputFailed := (s.controlInput controller.config.input now controller.config.maxInputAge).toOption.isNone
  let ownershipLost := controller.state == .running && controller.lease.any fun lease =>
    !(s.outputs.get controller.config.output).any fun authority => authority.snapshot.lease == some lease
  timedOut || inputFailed || ownershipLost

def serviceController (now : ℕ) (id : ControllerId) : Step σ Unit := do
  match (← get).controllers.get id with
  | none => panicking
  | some controller =>
    modify fun s => { s with controllers := s.controllers.remove id }
    if controller.state.live && (← get).mustFail controller now then
      if controller.state ≠ .warming then ignoring (failController controller now)
      let failed := if controller.state = .warming then { controller with state := .failed } else controller.fail
      record fun facts => facts.controller id failed.state failed.configRevision none now
      modify fun s => { s with controllers := s.controllers.insert id failed }
    else modify fun s => { s with controllers := s.controllers.insert id controller }

/-- Outputs whose safe procedure is requested and not in flight. -/
def safePending (s : Runtime σ) : List ActuatorId :=
  (s.outputs.entries.filter fun (_, authority) =>
    authority.snapshot.state == .safePending && authority.snapshot.inFlight.isNone).map Prod.fst

def serviceSafety (A : ByteTransport σ) (now : ℕ) : Step σ Unit := do
  modify fun s => s.serviceRequiredRecordingDeadline now
  checkOutputTime now
  Procedure.forEach (← get).controllers.keys (serviceController now)
  let s ← get
  Procedure.forEach (s.safePending.filter fun actuator => s.thermalPlants.contains actuator.instrument)
    fun actuator => ignoring (completeSimulatedSafe actuator now)
  let s ← get
  Procedure.forEach (s.safePending.filterMap fun actuator => match s.outputTiming actuator.instrument with
      | some (some queueTtl, some timeout) => some (actuator, queueTtl, timeout)
      | _ => none)
    fun (actuator, queueTtl, timeout) => ignoring (queueMetakonOutput actuator now queueTtl timeout)
  pollTransports A now

end LabRuntime.Runtime
