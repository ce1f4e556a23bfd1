import LabRuntime.Output.Basic

/-! The output-permission state machine of one actuator. Each operation returns its result
and the authority after it: an operation that ends in an error may have changed the state. -/

namespace LabRuntime

structure Pending where
  lease : OutputLease
  value : F64
  expires : ℕ
  deriving DecidableEq, Repr

structure OutputAuthority where
  actuator : ActuatorId
  instanceId : ℕ
  limits : ValueSpec
  unit : EngineeringUnit
  snapshot : OutputSnapshot
  pending : Option Pending
  transportReserved : Option OutputIntent
  safeObligationPending : Bool
  ambiguousSafeResendBlocked : Bool
  nextDispatch : ℕ
  deriving Repr

/-- The result of one operation and the authority it leaves. -/
abbrev Outcome (α : Type) := Except Error α × OutputAuthority

namespace OutputAuthority

/-- An authority under a fresh process-local instance identity. -/
def new (instanceId : ℕ) (actuator : ActuatorId) (limits : ValueSpec) (unit : EngineeringUnit) :
    OutputAuthority where
  actuator := actuator
  instanceId := instanceId
  limits := limits
  unit := unit
  snapshot :=
    { manualSupported := false, instanceId := instanceId, profile := none, manualAttempt := none,
      state := .unverified, lease := none, epoch := 0, faultLatched := false, safeConfirmed := false,
      pending := false, inFlight := none, requested := none, sent := none, acknowledged := none,
      readback := none, reportedReadback := none, readbackFailure := none, outcome := none }
  pending := none
  transportReserved := none
  safeObligationPending := false
  ambiguousSafeResendBlocked := false
  nextDispatch := 1

/-- Admission for a controller preparing input without acquiring an output lease. -/
def canPrepare (s : OutputAuthority) : Bool :=
  s.snapshot.state == .disarmed && s.snapshot.safeConfirmed && s.snapshot.lease.isNone &&
    s.pending.isNone && s.transportReserved.isNone && s.snapshot.inFlight.isNone &&
    !s.safeObligationPending

/-- A finite controller cadence strictly shorter than its configured lease. -/
def validNativeDuration (s : OutputAuthority) (gap lifetime : ℕ) : Bool :=
  !decide (gap = 0) && decide (gap < lifetime) &&
    s.snapshot.profile.any fun profile => decide (lifetime ≤ profile.maxLease)

/-- New native PID limits must fit both the actuator descriptor and the bound safe profile. -/
def acceptsPidLimits (s : OutputAuthority) (min max : F64) : Bool :=
  s.canPrepare &&
    (match s.limits with
     | .float low high => decide (low ≤ min) && decide (max ≤ high)
     | _ => false) &&
    s.snapshot.profile.any fun profile => decide (profile.min ≤ min) && decide (max ≤ profile.max)

def clearPending (s : OutputAuthority) : OutputAuthority :=
  { s with pending := none, snapshot := { s.snapshot with pending := false } }

def profile (s : OutputAuthority) : Except Error SafeProfile :=
  match s.snapshot.profile with
  | some profile => .ok profile
  | none => .error (.output .invalidProfile)

def requiresReadback (s : OutputAuthority) : Except Error Bool :=
  match s.profile with
  | .ok profile => .ok (profile.requiredEvidence == .readback)
  | .error error => .error error

/-! ### Manual delivery evidence -/

def failManualBeforeSend (s : OutputAuthority) : OutputAuthority :=
  match s.snapshot.manualAttempt with
  | some attempt =>
    if !attempt.terminal && attempt.dispatch.isNone then
      { s with snapshot := { s.snapshot with
          manualAttempt := some { attempt with terminal := true, outcome := some .failed } } }
    else s
  | none => s

def manualSendStarted (s : OutputAuthority) (dispatch : Dispatch) : OutputAuthority :=
  match s.snapshot.manualAttempt with
  | some attempt =>
    if !dispatch.safe && !attempt.terminal && attempt.dispatch.isNone then
      { s with snapshot := { s.snapshot with
          manualAttempt := some { attempt with dispatch := some dispatch.id, sent := s.snapshot.sent } } }
    else s
  | none => s

def captureManualDelivery (s : OutputAuthority) (id : DispatchId) (terminal : Bool) : OutputAuthority :=
  match s.snapshot.manualAttempt with
  | some attempt =>
    if !attempt.terminal && attempt.dispatch == some id then
      { s with snapshot := { s.snapshot with
          manualAttempt := some { attempt with
            terminal := terminal
            outcome := if terminal then s.snapshot.outcome else none
            acknowledged := s.snapshot.acknowledged
            readback := s.snapshot.readback
            reportedReadback := s.snapshot.reportedReadback
            readbackFailure := s.snapshot.readbackFailure } } }
    else s
  | none => s

/-- Start manual correlation; the source panics without a validated proposal (`none`). -/
def trackManualAttempt (s : OutputAuthority) (id : ℕ) (virtualSimulation : Bool) : Option OutputAuthority :=
  s.snapshot.requested.map fun requested =>
    { s with snapshot := { s.snapshot with
        manualAttempt := some
          { virtualSimulation := virtualSimulation, id := id, requested := requested, dispatch := none,
            terminal := false, outcome := none, sent := none, acknowledged := none, readback := none,
            reportedReadback := none, readbackFailure := none } } }

/-! ### Revocation -/

/-- At exhaustion the epoch never wraps: the authority latches instead. -/
def bumpEpoch (s : OutputAuthority) : Outcome Unit :=
  match checkedAdd s.snapshot.epoch 1 with
  | none =>
    (.error (.output .counterExhausted),
      clearPending { s with snapshot := { s.snapshot with
        lease := none, faultLatched := true, safeConfirmed := false, state := .faultLatched } })
  | some epoch => (.ok (), { s with snapshot := { s.snapshot with epoch := epoch } })

def requestSafe (s : OutputAuthority) (fault : Bool) : Outcome Unit :=
  match s.failManualBeforeSend.bumpEpoch with
  | (.error error, s) => (.error error, s)
  | (.ok _, s) =>
    (.ok (), clearPending { s with
      snapshot := { s.snapshot with
        lease := none
        faultLatched := s.snapshot.faultLatched || fault
        safeConfirmed := false
        state := if s.ambiguousSafeResendBlocked then .faultLatched else .safePending }
      safeObligationPending := true
      transportReserved := none })

/-- The watchdog: an expired lease is revoked even when its producer sends nothing. -/
def tick (s : OutputAuthority) (now : ℕ) : Outcome Unit :=
  match s.snapshot.lease with
  | some lease => if now ≥ lease.expires then s.requestSafe false else (.ok (), s)
  | none => (.ok (), s)

/-! ### Leases and proposals -/

def checkLease (s : OutputAuthority) (lease : OutputLease) (now : ℕ) : Except Error Unit :=
  if now ≥ lease.expires then .error (.output .expired)
  else if s.snapshot.lease ≠ some lease ∨ lease.actuator ≠ s.actuator ∨
      lease.instanceId ≠ s.instanceId ∨ lease.epoch ≠ s.snapshot.epoch ∨ s.snapshot.state.armed = false then
    .error (.output .staleLease)
  else .ok ()

def bind (s : OutputAuthority) (profile : SafeProfile) : Outcome OutputResult :=
  if (s.snapshot.state ≠ .unverified ∧ s.snapshot.state ≠ .disarmed) ∨ s.snapshot.inFlight.isSome then
    (.error (.output .invalidState), s)
  else match profile.validate with
  | .error error => (.error error, s)
  | .ok _ => match s.limits.validate (.float profile.min) with
  | .error error => (.error error, s)
  | .ok _ => match s.limits.validate (.float profile.max) with
  | .error error => (.error error, s)
  | .ok _ => match s.bumpEpoch with
  | (.error error, s) => (.error error, s)
  | (.ok _, s) =>
    (.ok .updated, clearPending { s with snapshot := { s.snapshot with
      profile := some profile, state := .unverified, safeConfirmed := false } })

def acquire (s : OutputAuthority) (owner : OutputOwner) (lifetime now : ℕ) : Outcome OutputResult :=
  if s.snapshot.state ≠ .disarmed ∨ s.snapshot.safeConfirmed = false then
    (.error (.output .invalidState), s)
  else match s.profile with
  | .error error => (.error error, s)
  | .ok profile =>
    if lifetime = 0 ∨ lifetime > profile.maxLease then (.error (.output .invalidProfile), s)
    else match durationAdd now lifetime with
    | none => (.error (.output .invalidTime), s)
    | some expires => match s.bumpEpoch with
    | (.error error, s) => (.error error, s)
    | (.ok _, s) =>
      let lease : OutputLease :=
        { actuator := s.actuator, instanceId := s.instanceId, owner := owner,
          epoch := s.snapshot.epoch, expires := expires }
      (.ok (.lease lease), { s with snapshot := { s.snapshot with
        lease := some lease, safeConfirmed := false, state := owner.armedState } })

def renew (s : OutputAuthority) (lease : OutputLease) (lifetime now : ℕ) : Outcome OutputLease :=
  match s.checkLease lease now with
  | .error error => (.error error, s)
  | .ok _ =>
    if s.snapshot.state.armed = false ∨ s.snapshot.faultLatched = true ∨ s.safeObligationPending = true then
      (.error (.output .invalidState), s)
    else if s.pending.isSome ∨ s.transportReserved.isSome ∨ s.snapshot.inFlight.isSome then
      (.error (.output .busy), s)
    else match s.profile with
    | .error error => (.error error, s)
    | .ok profile =>
      if lifetime = 0 ∨ lifetime > profile.maxLease then (.error (.output .invalidProfile), s)
      else match durationAdd now lifetime with
      | none => (.error (.output .invalidTime), s)
      | some expires =>
        if expires ≤ lease.expires then (.error (.output .invalidTime), s)
        else
          let replacement := { lease with expires := expires }
          (.ok replacement, { s with snapshot := { s.snapshot with lease := some replacement } })

/-- Replace the exact current native token after trusted successful delivery. -/
def renewNative (s : OutputAuthority) (lease : OutputLease) (lifetime now : ℕ) : Outcome OutputLease :=
  if lease.owner.isManual then (.error (.output .invalidState), s) else s.renew lease lifetime now

def propose (s : OutputAuthority) (proposal : OutputProposal) (now : ℕ) : Outcome OutputResult :=
  match s.checkLease proposal.lease now with
  | .error error => (.error error, s)
  | .ok _ =>
    if proposal.unit != s.unit then (.error (.output .wrongUnit), s)
    else match s.profile with
    | .error error => (.error error, s)
    | .ok profile => match (ValueSpec.float profile.min profile.max).validate proposal.value with
    | .error error => (.error error, s)
    | .ok _ =>
      if proposal.ttl = 0 ∨ proposal.ttl > profile.maxProposalTtl then
        (.error (.output .invalidProfile), s)
      else match durationAdd now proposal.ttl with
      | none => (.error (.output .invalidTime), s)
      | some deadline =>
        if s.pending.isSome then (.error (.output .busy), s)
        else match proposal.value with
        | .float value =>
          (.ok .queued, { s with
            pending := some
              { lease := proposal.lease, value := value,
                expires := min deadline proposal.lease.expires }
            snapshot := { s.snapshot with pending := true, requested := some value } })
        | _ => (.error (.output .invalidProfile), s) -- unreachable: the spec fixed the scalar kind

/-! ### Sends -/

/-- The state after a send started: old evidence must not pass for the newer send. -/
def startDispatch (s : OutputAuthority) (dispatch : Dispatch) (following : ℕ) (now : ℕ) :
    OutputAuthority :=
  manualSendStarted { s with
    nextDispatch := following
    snapshot := { s.snapshot with
      safeConfirmed := false
      inFlight := some dispatch
      sent := some { value := dispatch.value, observedAt := now }
      acknowledged := none
      readback := none
      reportedReadback := none
      readbackFailure := none
      outcome := none } } dispatch

/-- The final simulated-send boundary. -/
def begin (s : OutputAuthority) (now : ℕ) : Outcome OutputResult :=
  let start (value : F64) (safe : Bool) : Outcome OutputResult :=
    match checkedAdd s.nextDispatch 1 with
    | none => (.error (.output .counterExhausted), s)
    | some following =>
      let dispatch : Dispatch :=
        { id := { instanceId := s.instanceId, sequence := s.nextDispatch }, value := value, safe := safe,
          epoch := s.snapshot.epoch }
      (.ok (.dispatched dispatch),
        startDispatch { s.clearPending with safeObligationPending := false } dispatch following now)
  if s.snapshot.inFlight.isSome ∨ s.transportReserved.isSome then (.error (.output .busy), s)
  else if s.safeObligationPending then
    if s.ambiguousSafeResendBlocked then (.error (.output .invalidState), s)
    else match s.profile with
    | .error error => (.error error, s)
    | .ok profile => start profile.safeValue true
  else match s.pending with
  | none => (.error (.output .nothingPending), s)
  | some candidate => match s.checkLease candidate.lease now with
  | .error error => (.error error, s.clearPending)
  | .ok _ =>
    if now ≥ candidate.expires then (.error (.output .expired), s.clearPending)
    else start candidate.value false

def complete (s : OutputAuthority) (id : DispatchId) (outcome : DispatchOutcome) (now : ℕ) :
    Outcome OutputResult :=
  match s.snapshot.inFlight with
  | none => (.error (.output .unknownDispatch), s)
  | some dispatch =>
    if dispatch.id ≠ id then (.error (.output .unknownDispatch), s)
    else
      let observation : OutputObservation := { value := dispatch.value, observedAt := now }
      let s := captureManualDelivery { s with snapshot := { s.snapshot with
        inFlight := none
        outcome := some outcome
        acknowledged := if outcome.unsettled then s.snapshot.acknowledged else some observation
        readback := if outcome = .readbackVerified then some observation else s.snapshot.readback } }
        dispatch.id true
      if outcome.unsettled then match s.requestSafe true with
        | (.error error, s) => (.error error, s)
        | (.ok _, s) =>
          if dispatch.safe then
            -- the safe target stays required, but nothing permits sending it again
            (.ok .completed, { s with
              ambiguousSafeResendBlocked := true
              snapshot := { s.snapshot with state := .faultLatched } })
          else (.ok .completed, s)
      else if dispatch.safe ∧ dispatch.epoch = s.snapshot.epoch then
        let settle (sufficient : Bool) : Outcome OutputResult :=
          let latched := s.snapshot.faultLatched || !sufficient
          (.ok .completed, { s with snapshot := { s.snapshot with
            safeConfirmed := sufficient
            faultLatched := latched
            state := if latched then .faultLatched else .disarmed } })
        if outcome = .readbackVerified then settle true
        else match s.profile with
        | .error error => (.error error, s)
        | .ok profile => settle (profile.requiredEvidence == .acknowledgement)
      else (.ok .completed, s)

def command (s : OutputAuthority) (command : OutputCommand) (now : ℕ) : Outcome OutputResult :=
  match command with
  | .bindProfile profile => s.bind profile
  | .requestSafe => match s.profile with
    | .error error => (.error error, s)
    | .ok _ => match s.requestSafe false with
      | (.error error, s) => (.error error, s)
      | (.ok _, s) => (.ok .updated, s)
  | .acquire owner lifetime => s.acquire owner lifetime now
  | .renewManual lease lifetime =>
    if lease.owner.isManual = false then (.error (.output .invalidState), s)
    else match s.renew lease lifetime now with
      | (.error error, s) => (.error error, s)
      | (.ok replacement, s) => (.ok (.lease replacement), s)
  | .release lease => match s.checkLease lease now with
    | .error error => (.error error, s)
    | .ok _ => match s.requestSafe false with
      | (.error error, s) => (.error error, s)
      | (.ok _, s) => (.ok .updated, s)
  | .trip => match s.profile with
    | .error error => (.error error, s)
    | .ok _ => match s.requestSafe true with
      | (.error error, s) => (.error error, s)
      | (.ok _, s) => (.ok .updated, s)
  | .acknowledgeFault =>
    if s.snapshot.state ≠ .faultLatched ∨ s.snapshot.safeConfirmed = false ∨
        s.snapshot.inFlight.isSome ∨ s.safeObligationPending = true then
      (.error (.output .invalidState), s)
    else (.ok .updated, { s with snapshot := { s.snapshot with faultLatched := false, state := .disarmed } })
  | .propose proposal => s.propose proposal now
  | .beginDispatch => s.begin now
  | .complete dispatchId outcome => s.complete dispatchId outcome now
  | .tick => (.ok .updated, s)

/-! ### Transport reservations -/

/-- Reserve the current safe request or the pending proposal for a trusted transport queue. -/
def reserveTransport (s : OutputAuthority) (now queueDeadline : ℕ) (attemptId : Option ℕ)
    (bindingGeneration mappingRevision : ℕ) : Outcome OutputIntent :=
  let reserve (lease : Option OutputLease) (value : F64) (expires : ℕ) (safe : Bool) :
      Outcome OutputIntent :=
    let intent : OutputIntent :=
      { actuator := s.actuator, attemptId := attemptId, instanceId := s.instanceId, lease := lease,
        epoch := s.snapshot.epoch, value := value, unit := s.unit, expires := expires, safe := safe,
        bindingGeneration := bindingGeneration, mappingRevision := mappingRevision }
    (.ok intent, { s with transportReserved := some intent })
  if s.snapshot.inFlight.isSome ∨ s.transportReserved.isSome then (.error (.output .busy), s)
  else if now ≥ queueDeadline ∨ bindingGeneration = 0 ∨ mappingRevision = 0 then
    (.error (.output .invalidTime), s)
  else if s.safeObligationPending then
    if s.ambiguousSafeResendBlocked then (.error (.output .invalidState), s)
    else match s.profile with
    | .error error => (.error error, s)
    | .ok profile => reserve none profile.safeValue queueDeadline true
  else match s.pending with
  | none => (.error (.output .nothingPending), s)
  | some pending => match s.checkLease pending.lease now with
  | .error error => (.error error, s)
  | .ok _ =>
    if now ≥ pending.expires then (.error (.output .expired), s.clearPending)
    else reserve (some pending.lease) pending.value (min pending.expires queueDeadline) false

/-- Revalidate an intent immediately before a first-byte attempt. -/
def validateTransport (s : OutputAuthority) (intent : OutputIntent) (now : ℕ) : Except Error Unit :=
  if s.transportReserved != some intent ∨ intent.actuator ≠ s.actuator ∨ intent.instanceId ≠ s.instanceId ∨
      intent.epoch ≠ s.snapshot.epoch ∨ intent.unit != s.unit ∨ now ≥ intent.expires ∨
      s.snapshot.inFlight.isSome then
    .error (.output .staleLease)
  else match s.limits.validate (.float intent.value) with
  | .error error => .error error
  | .ok _ => match s.profile with
  | .error error => .error error
  | .ok profile => match (ValueSpec.float profile.min profile.max).validate (.float intent.value) with
  | .error error => .error error
  | .ok _ =>
    if intent.safe then
      if s.safeObligationPending = false ∨ intent.lease.isSome then .error (.output .staleLease) else .ok ()
    else match intent.lease with
    | none => .error (.output .staleLease)
    | some lease => s.checkLease lease now

/-- Record the first accepted byte after the final validation by the same owner. -/
def beginTransport (s : OutputAuthority) (intent : OutputIntent) (now : ℕ) : Outcome DispatchId :=
  match s.validateTransport intent now with
  | .error error => (.error error, s)
  | .ok _ => match checkedAdd s.nextDispatch 1 with
  | none => (.error (.output .counterExhausted), s)
  | some following =>
    let dispatch : Dispatch :=
      { id := { instanceId := s.instanceId, sequence := s.nextDispatch }, value := intent.value,
        safe := intent.safe, epoch := intent.epoch }
    let cleared := if intent.safe then { s with safeObligationPending := false } else s.clearPending
    (.ok dispatch.id, startDispatch { cleared with transportReserved := none } dispatch following now)

/-- Release an unstarted queue reservation without claiming that bytes were sent. -/
def abortTransport (s : OutputAuthority) (intent : OutputIntent) : OutputAuthority :=
  if s.transportReserved == some intent then
    if intent.safe then { s with transportReserved := none }
    else (clearPending { s with transportReserved := none }).failManualBeforeSend
  else s

/-- Keep the safe obligation while exposing a terminal transport failure before any send. -/
def failTransportBeforeSend (s : OutputAuthority) (intent : OutputIntent) : OutputAuthority :=
  if s.transportReserved == some intent then
    let s := s.abortTransport intent
    { s with snapshot := { s.snapshot with outcome := some .failed } }
  else s

/-- Revoke ordinary authority as soon as a started physical write becomes uncertain. -/
def transportUncertain (s : OutputAuthority) (id : DispatchId) : Outcome Unit :=
  match s.snapshot.inFlight.filter (fun dispatch => dispatch.id == id) with
  | none => (.error (.output .unknownDispatch), s)
  | some dispatch => match s.requestSafe true with
    | (.error error, s) => (.error error, s)
    | (.ok _, s) =>
      if dispatch.safe then
        (.ok (), { s with
          ambiguousSafeResendBlocked := true
          snapshot := { s.snapshot with state := .faultLatched } })
      else (.ok (), s)

/-- A strict protocol ACK; the dispatch is kept for the distinct register readback. -/
def acknowledgeTransport (s : OutputAuthority) (id : DispatchId) (now : ℕ) : Outcome Unit :=
  match s.snapshot.inFlight with
  | none => (.error (.output .unknownDispatch), s)
  | some dispatch =>
    if dispatch.id ≠ id then (.error (.output .unknownDispatch), s)
    else (.ok (), captureManualDelivery { s with snapshot := { s.snapshot with
      acknowledged := some { value := dispatch.value, observedAt := now }
      outcome := some .acknowledged } } id false)

/-- Complete a protocol-specific exact raw readback comparison. -/
def completeTransportReadbackExact (s : OutputAuthority) (id : DispatchId) (reported : F64)
    (isMatch : Bool) (now : ℕ) : Outcome Bool :=
  match s.snapshot.inFlight with
  | none => (.error (.output .unknownDispatch), s)
  | some dispatch =>
    if dispatch.id ≠ id ∨ reported.isFinite = false then (.error (.output .unknownDispatch), s)
    else
      let s := { s with snapshot := { s.snapshot with
        reportedReadback := some { value := reported, observedAt := now } } }
      let settled := if isMatch then s.complete id .readbackVerified now
        else complete { s with snapshot := { s.snapshot with readbackFailure := some .mismatch } } id .failed now
      match settled with
      | (.error error, s) => (.error error, s)
      | (.ok _, s) => (.ok isMatch, s)

/-- Complete only when the separately read register matches the authorized value. -/
def completeTransportReadback (s : OutputAuthority) (id : DispatchId) (reported : F64) (now : ℕ) :
    Outcome Bool :=
  match s.snapshot.inFlight with
  | none => (.error (.output .unknownDispatch), s)
  | some dispatch => s.completeTransportReadbackExact id reported (reported == dispatch.value) now

/-- Settle a bounded readback failure without forgetting the preceding ACK. -/
def failTransportReadback (s : OutputAuthority) (id : DispatchId) (now : ℕ) : Outcome Unit :=
  match complete { s with snapshot := { s.snapshot with readbackFailure := some .unavailable } }
      id .ambiguous now with
  | (.error error, s) => (.error error, s)
  | (.ok _, s) => (.ok (), s)

def completeTransport (s : OutputAuthority) (id : DispatchId) (outcome : DispatchOutcome) (now : ℕ) :
    Outcome Unit :=
  match s.complete id outcome now with
  | (.error error, s) => (.error error, s)
  | (.ok _, s) => (.ok (), s)

end OutputAuthority
end LabRuntime
