import LabRuntime.SimpleDevice

/-! Facts captured at the transition that makes them true, in a bounded outbox to the host, and
the gate that keeps ordinary control closed without durable recording progress. -/

namespace LabRuntime

abbrev ControllerId := ℕ
abbrev ReferenceId := ℕ

def maxRecordingFacts : ℕ := 256
def maxRecordingFactBytes : ℕ := 256 * 1024
def requiredProgressAge : ℕ := fromSecs 2

inductive ControllerState
  | created | ready | warming | running | paused | failed
  deriving DecidableEq, Repr

/-- The states in which a controller prepares or owns an output. -/
def ControllerState.live : ControllerState → Bool
  | .warming | .running => true
  | _ => false

structure PidConfig where
  kp : F64
  ki : F64
  kd : F64
  outputMin : F64
  outputMax : F64
  deriving DecidableEq, Repr

/-- The output binding that a fact is captured under. -/
structure OutputContext where
  unit : Option EngineeringUnit
  authorityEpoch : Option ℕ
  resource : Option ResourceId
  bindingGeneration : Option ℕ
  mappingRevision : Option ℕ
  deriving Repr

def OutputContext.default : OutputContext :=
  { unit := none, authorityEpoch := none, resource := none, bindingGeneration := none, mappingRevision := none }

inductive OutputStage
  | supersededBeforeSend | rejectedBeforeSend | expiredBeforeSend | requested | authorized | sendStarted
  | acknowledged | readbackVerified | failed | ambiguous | transportUncertain | safeRequested
  | safeSendStarted | safeAcknowledged | safeReadbackVerified | revoked
  deriving DecidableEq, Repr

inductive OutputEvidenceSource
  | none | virtualSimulation | transportProtocol
  deriving DecidableEq, Repr

inductive RecordingFact
  | measurement (sequence : ℕ) (sample : Sample) (generation revision : ℕ)
  | output (sequence : ℕ) (actuator : ActuatorId) (attemptId : Option ℕ) (dispatchId : Option DispatchId)
      (unit : Option EngineeringUnit) (authorityEpoch : Option ℕ) (resource : Option ResourceId)
      (bindingGeneration mappingRevision : Option ℕ) (stage : OutputStage) (value : Option F64)
      (source : OutputEvidenceSource) (time : ℕ)
  | controller (sequence : ℕ) (controller : ControllerId) (state : ControllerState) (configRevision : ℕ)
      (pid : Option PidConfig) (time : ℕ)
  | reference (sequence : ℕ) (reference : ReferenceId) (revision : ℕ) (value : F64) (target rate : Option F64)
      (unit : EngineeringUnit) (time : ℕ)
  deriving Repr

def RecordingFact.sequence : RecordingFact → ℕ
  | .measurement sequence .. | .output sequence .. | .controller sequence .. | .reference sequence .. => sequence

/-- The bounded handoff; an overflow stays until a new run is armed. -/
structure FactOutbox where
  enabled : Bool
  nextSequence : ℕ
  facts : List RecordingFact
  outputContexts : OrderedMap ActuatorId OutputContext
  bytes : ℕ
  overflowed : Bool
  firstLostSequence : Option ℕ
  suppressedFacts : ℕ
  suppressedCountUnknown : Bool
  deriving Repr

namespace FactOutbox

def empty : FactOutbox :=
  { enabled := false, nextSequence := 0, facts := [], outputContexts := .empty, bytes := 0, overflowed := false,
    firstLostSequence := none, suppressedFacts := 0, suppressedCountUnknown := false }

def enable (o : FactOutbox) : FactOutbox :=
  { o with
    enabled := true, overflowed := false, firstLostSequence := none, suppressedFacts := 0
    suppressedCountUnknown := false }

def disable (o : FactOutbox) : FactOutbox :=
  { o with enabled := false, bytes := 0, facts := [], outputContexts := .empty }

def outputContext (o : FactOutbox) (actuator : ActuatorId) (context : OutputContext) : FactOutbox :=
  if o.enabled then { o with outputContexts := o.outputContexts.insert actuator context } else o

/-- The count is unknown once it could not be kept. -/
def suppressed (o : FactOutbox) : Option ℕ := if o.suppressedCountUnknown then none else some o.suppressedFacts

def take (o : FactOutbox) : List RecordingFact × FactOutbox := (o.facts, { o with bytes := 0, facts := [] })

def suppress (o : FactOutbox) (sequence : ℕ) : FactOutbox :=
  let o := { o with firstLostSequence := some (o.firstLostSequence.getD sequence) }
  match checkedAdd o.suppressedFacts 1 with
  | some next => { o with suppressedFacts := next }
  | none => { o with suppressedCountUnknown := true }

/-- A missing correlation counts as one lost fact. -/
def loseCorrelation (o : FactOutbox) : FactOutbox :=
  if o.enabled then match checkedAdd o.nextSequence 1 with
    | none => { o with overflowed := true, suppressedCountUnknown := true }
    | some sequence => suppress { o with nextSequence := sequence, overflowed := true } sequence
  else o

def push (o : FactOutbox) (bytes : ℕ) (create : ℕ → RecordingFact) : FactOutbox :=
  if o.enabled then match checkedAdd o.nextSequence 1 with
    | none => { o with overflowed := true, suppressedCountUnknown := true }
    | some sequence =>
      -- the identity advances even when capacity denies the payload
      let o := { o with nextSequence := sequence }
      if o.overflowed then o.suppress sequence
      else match checkedAdd o.bytes bytes with
      | none => suppress { o with overflowed := true } sequence
      | some nextBytes =>
        if o.facts.length ≥ maxRecordingFacts ∨ nextBytes > maxRecordingFactBytes then
          suppress { o with overflowed := true } sequence
        else { o with bytes := nextBytes, facts := o.facts ++ [create sequence] }
  else o

@[simp] theorem suppress_facts (o : FactOutbox) (sequence : ℕ) : (o.suppress sequence).facts = o.facts := by
  unfold suppress
  cases hnext : checkedAdd o.suppressedFacts 1 <;> simp [hnext]

/-- A push retains the fact under the next number, or it retains nothing more. -/
theorem push_facts (o : FactOutbox) (bytes : ℕ) (create : ℕ → RecordingFact) :
    (o.push bytes create).facts = o.facts ∨ ∃ n, (o.push bytes create).facts = o.facts ++ [create n] := by
  unfold push
  split_ifs
  · cases hseq : checkedAdd o.nextSequence 1 with
    | none => exact .inl rfl
    | some sequence =>
      dsimp only
      split_ifs
      · exact .inl (suppress_facts _ _)
      · cases hbytes : checkedAdd o.bytes bytes with
        | none => exact .inl (suppress_facts _ _)
        | some nextBytes =>
          dsimp only
          split_ifs
          · exact .inl (suppress_facts _ _)
          · exact .inr ⟨sequence, rfl⟩
  · exact .inl rfl

/-- A text counts with its length; the source counts the capacity of its allocation. -/
def measurement (o : FactOutbox) (sample : Sample) (generation revision : ℕ) : FactOutbox :=
  let bytes := 256 + match sample.value with
    | some (.text value) | some (.enum value) => value.utf8ByteSize
    | _ => 0
  o.push bytes fun sequence => .measurement sequence sample generation revision

def outputWithUnit (o : FactOutbox) (actuator : ActuatorId) (stage : OutputStage) (value : Option F64) (now : ℕ)
    (source : OutputEvidenceSource) (attemptId : Option ℕ) (dispatchId : Option DispatchId)
    (proposedUnit : Option EngineeringUnit) (originalEpoch : Option ℕ) : FactOutbox :=
  let context := (o.outputContexts.get actuator).getD .default
  o.push 128 fun sequence =>
    .output sequence actuator attemptId dispatchId (proposedUnit <|> context.unit)
      (originalEpoch <|> context.authorityEpoch) context.resource context.bindingGeneration
      context.mappingRevision stage value source now

def outputCorrelated (o : FactOutbox) (actuator : ActuatorId) (stage : OutputStage) (value : Option F64) (now : ℕ)
    (source : OutputEvidenceSource) (attemptId : Option ℕ) (dispatchId : Option DispatchId) : FactOutbox :=
  o.outputWithUnit actuator stage value now source attemptId dispatchId none none

def output (o : FactOutbox) (actuator : ActuatorId) (stage : OutputStage) (value : Option F64) (now : ℕ) : FactOutbox :=
  o.outputCorrelated actuator stage value now .none none none

/-- A completion, in the epoch its dispatch was started in. -/
def outputCompletion (o : FactOutbox) (actuator : ActuatorId) (stage : OutputStage) (value : Option F64) (now : ℕ)
    (source : OutputEvidenceSource) (attemptId : Option ℕ) (dispatchId : DispatchId) (originalEpoch : ℕ) : FactOutbox :=
  o.outputWithUnit actuator stage value now source attemptId (some dispatchId) none (some originalEpoch)

/-- A proposal, in the unit it was made in. -/
def outputProposal (o : FactOutbox) (actuator : ActuatorId) (stage : OutputStage) (value : Option F64)
    (proposedUnit : EngineeringUnit) (now : ℕ) (attemptId : Option ℕ) : FactOutbox :=
  o.outputWithUnit actuator stage value now .none attemptId none (some proposedUnit) none

/-- A proposal that never was sent, in the epoch it was made in. -/
def outputDisplaced (o : FactOutbox) (actuator : ActuatorId) (stage : OutputStage) (value : Option F64) (now : ℕ)
    (attemptId : Option ℕ) (originalEpoch : ℕ) : FactOutbox :=
  o.outputWithUnit actuator stage value now .none attemptId none none (some originalEpoch)

/-- A transport fact carries the binding its intent was queued under. -/
def outputTransportValue (o : FactOutbox) (intent : OutputIntent) (resource : ResourceId) (stage : OutputStage)
    (now : ℕ) (source : OutputEvidenceSource) (dispatchId : Option DispatchId) (value : F64) : FactOutbox :=
  o.push 128 fun sequence =>
    .output sequence intent.actuator intent.attemptId dispatchId (some intent.unit) (some intent.epoch)
      (some resource) (some intent.bindingGeneration) (some intent.mappingRevision) stage (some value) source now

def outputTransport (o : FactOutbox) (intent : OutputIntent) (resource : ResourceId) (stage : OutputStage) (now : ℕ)
    (source : OutputEvidenceSource) (dispatchId : Option DispatchId) : FactOutbox :=
  o.outputTransportValue intent resource stage now source dispatchId intent.value

def controller (o : FactOutbox) (id : ControllerId) (state : ControllerState) (configRevision : ℕ)
    (pid : Option PidConfig) (now : ℕ) : FactOutbox :=
  o.push 256 fun sequence => .controller sequence id state configRevision pid now

def reference (o : FactOutbox) (id : ReferenceId) (revision : ℕ) (value : F64) (target rate : Option F64)
    (unit : EngineeringUnit) (now : ℕ) : FactOutbox :=
  o.push 256 fun sequence => .reference sequence id revision value target rate unit now

end FactOutbox

/-- The recording prerequisite of ordinary control. -/
structure RequiredGate where
  enabled : Bool
  isOpen : Bool
  failed : Bool
  generation : ℕ
  validUntil : Option ℕ
  confirmedSubmission : Option ℕ
  deriving DecidableEq, Repr

def RequiredGate.default : RequiredGate :=
  { enabled := false, isOpen := false, failed := false, generation := 0, validUntil := none,
    confirmedSubmission := none }

end LabRuntime
