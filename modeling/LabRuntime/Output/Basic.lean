import LabRuntime.Model

/-! Output vocabulary: leases, proposals, intents, dispatches and the inspection snapshot.
Requested, authorized, send-started, ACK and readback stay distinct facts. -/

namespace LabRuntime

structure ActuatorId where
  instrument : InstrumentId
  parameter : ParameterId
  deriving DecidableEq, Repr

inductive OutputState
  | unverified | safePending | disarmed | armedManual | armedAuto | faultLatched
  deriving DecidableEq, Repr

/-- The two states in which one producer may propose. -/
def OutputState.armed : OutputState → Bool
  | .armedManual | .armedAuto => true
  | _ => false

inductive OutputOwner
  | manual (id : ℕ)
  | automatic (id : ℕ)
  deriving DecidableEq, Repr

def OutputOwner.isManual : OutputOwner → Bool
  | .manual _ => true
  | .automatic _ => false

def OutputOwner.armedState : OutputOwner → OutputState
  | .manual _ => .armedManual
  | .automatic _ => .armedAuto

inductive EvidenceLevel
  | acknowledgement | readback
  deriving DecidableEq, Repr

/-- Configured operating limits and safe evidence policy of one actuator. -/
structure SafeProfile where
  min : F64
  max : F64
  safeValue : F64
  maxLease : ℕ
  maxProposalTtl : ℕ
  requiredEvidence : EvidenceLevel
  deriving DecidableEq, Repr

def SafeProfile.isValid (p : SafeProfile) : Bool :=
  p.min.isFinite && p.max.isFinite && p.safeValue.isFinite && !decide (p.max ≤ p.min) &&
    decide (p.min ≤ p.safeValue) && decide (p.safeValue ≤ p.max) && !decide (p.maxLease = 0) &&
    !decide (p.maxProposalTtl = 0)

def SafeProfile.validate (p : SafeProfile) : Except Error Unit :=
  if p.isValid then .ok () else .error (.output .invalidProfile)

/-- Opaque authorization for one owner, binding and authority epoch. -/
structure OutputLease where
  actuator : ActuatorId
  instanceId : ℕ
  owner : OutputOwner
  epoch : ℕ
  expires : ℕ
  deriving DecidableEq, Repr

structure OutputProposal where
  lease : OutputLease
  value : Value
  unit : EngineeringUnit
  ttl : ℕ
  deriving Repr

/-- The immutable intent held by a transport queue. -/
structure OutputIntent where
  actuator : ActuatorId
  attemptId : Option ℕ
  instanceId : ℕ
  lease : Option OutputLease
  epoch : ℕ
  value : F64
  unit : EngineeringUnit
  expires : ℕ
  safe : Bool
  bindingGeneration : ℕ
  mappingRevision : ℕ
  deriving Repr

/-- The derived `PartialEq`: the value is compared as `f64`, the unit by its identity. -/
instance : BEq OutputIntent :=
  ⟨fun a b => decide (a.actuator = b.actuator) && decide (a.attemptId = b.attemptId) &&
    decide (a.instanceId = b.instanceId) && decide (a.lease = b.lease) && decide (a.epoch = b.epoch) &&
    a.value == b.value && a.unit == b.unit && decide (a.expires = b.expires) &&
    decide (a.safe = b.safe) && decide (a.bindingGeneration = b.bindingGeneration) &&
    decide (a.mappingRevision = b.mappingRevision)⟩

theorem OutputIntent.beq_iff (a b : OutputIntent) : (a == b) = true ↔
    a.actuator = b.actuator ∧ a.attemptId = b.attemptId ∧ a.instanceId = b.instanceId ∧
      a.lease = b.lease ∧ a.epoch = b.epoch ∧ (a.value == b.value) = true ∧
      (a.unit == b.unit) = true ∧ a.expires = b.expires ∧ a.safe = b.safe ∧
      a.bindingGeneration = b.bindingGeneration ∧ a.mappingRevision = b.mappingRevision := by
  show (_ && _) = true ↔ _
  simp [and_assoc]

/-- Completion correlation scoped to one authority instance. -/
structure DispatchId where
  instanceId : ℕ
  sequence : ℕ
  deriving DecidableEq, Repr

/-- A send already admitted at the final authority check. -/
structure Dispatch where
  id : DispatchId
  value : F64
  safe : Bool
  epoch : ℕ
  deriving DecidableEq, Repr

inductive DispatchOutcome
  | acknowledged | readbackVerified | failed | ambiguous
  deriving DecidableEq, Repr

/-- Outcomes after which ordinary authority must be revoked. -/
def DispatchOutcome.unsettled : DispatchOutcome → Bool
  | .failed | .ambiguous => true
  | _ => false

inductive OutputReadbackFailure
  | mismatch | unavailable
  deriving DecidableEq, Repr

structure OutputObservation where
  value : F64
  observedAt : ℕ
  deriving DecidableEq, Repr

/-- One retained manual delivery, independent of later safe-output observations. -/
structure ManualOutputAttempt where
  virtualSimulation : Bool
  id : ℕ
  requested : F64
  dispatch : Option DispatchId
  terminal : Bool
  outcome : Option DispatchOutcome
  sent : Option OutputObservation
  acknowledged : Option OutputObservation
  readback : Option OutputObservation
  reportedReadback : Option OutputObservation
  readbackFailure : Option OutputReadbackFailure
  deriving DecidableEq, Repr

structure OutputSnapshot where
  manualSupported : Bool
  instanceId : ℕ
  profile : Option SafeProfile
  manualAttempt : Option ManualOutputAttempt
  state : OutputState
  lease : Option OutputLease
  epoch : ℕ
  faultLatched : Bool
  safeConfirmed : Bool
  pending : Bool
  inFlight : Option Dispatch
  requested : Option F64
  sent : Option OutputObservation
  acknowledged : Option OutputObservation
  readback : Option OutputObservation
  reportedReadback : Option OutputObservation
  readbackFailure : Option OutputReadbackFailure
  outcome : Option DispatchOutcome
  deriving DecidableEq, Repr

inductive OutputCommand
  | bindProfile (profile : SafeProfile)
  | requestSafe
  | acquire (owner : OutputOwner) (lifetime : ℕ)
  | renewManual (lease : OutputLease) (lifetime : ℕ)
  | release (lease : OutputLease)
  | trip
  | acknowledgeFault
  | propose (proposal : OutputProposal)
  | beginDispatch
  | complete (dispatchId : DispatchId) (outcome : DispatchOutcome)
  | tick
  deriving Repr

inductive OutputResult
  | updated
  | lease (lease : OutputLease)
  | queued
  | dispatched (dispatch : Dispatch)
  | completed
  deriving DecidableEq, Repr

/-- Narrow manual operations on a declared operational actuator. -/
inductive ManualOutputCommand
  | acquire (lifetime : ℕ)
  | renew (lifetime : ℕ)
  | write (value : Value) (ttl : ℕ)
  | safe
  deriving DecidableEq, Repr

end LabRuntime
