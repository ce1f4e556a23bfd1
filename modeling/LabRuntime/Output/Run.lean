import LabRuntime.Lib.History
import LabRuntime.Output.Permission

/-! Calls on one authority in any order and at any times, and what a call does: starts a send,
reports a send unsettled, completes it, or revokes. -/

namespace LabRuntime

/-- The calls the runtime and the transport owner make on an authority. -/
inductive AuthorityOp
  | command (command : OutputCommand)
  | tick
  | renewNative (lease : OutputLease) (lifetime : ℕ)
  | reserveTransport (queueDeadline : ℕ) (attemptId : Option ℕ) (bindingGeneration mappingRevision : ℕ)
  | validateTransport (intent : OutputIntent)
  | beginTransport (intent : OutputIntent)
  | abortTransport (intent : OutputIntent)
  | failTransportBeforeSend (intent : OutputIntent)
  | transportUncertain (id : DispatchId)
  | acknowledgeTransport (id : DispatchId)
  | completeTransport (id : DispatchId) (outcome : DispatchOutcome)
  | completeTransportReadback (id : DispatchId) (reported : F64)
  | completeTransportReadbackExact (id : DispatchId) (reported : F64) (isMatch : Bool)
  | failTransportReadback (id : DispatchId)
  | trackManualAttempt (id : ℕ) (virtualSimulation : Bool)
  | failManualBeforeSend

structure AuthorityCall where
  op : AuthorityOp
  now : ℕ

inductive AuthorityReply
  | done
  | result (result : OutputResult)
  | lease (lease : OutputLease)
  | intent (intent : OutputIntent)
  | dispatched (id : DispatchId)
  | matched (isMatch : Bool)

namespace OutputAuthority

/-- One result type for every operation. -/
def reply {α : Type} (f : α → AuthorityReply) (o : Outcome α) : Outcome AuthorityReply :=
  (o.1.map f, o.2)

def apply (s : OutputAuthority) (call : AuthorityCall) : Outcome AuthorityReply :=
  match call.op with
  | .command command => reply .result (s.command command call.now)
  | .tick => reply (fun _ => .done) (s.tick call.now)
  | .renewNative lease lifetime => reply .lease (s.renewNative lease lifetime call.now)
  | .reserveTransport queueDeadline attemptId bindingGeneration mappingRevision =>
    reply .intent (s.reserveTransport call.now queueDeadline attemptId bindingGeneration mappingRevision)
  | .validateTransport intent => reply (fun _ => .done) (s.validateTransport intent call.now, s)
  | .beginTransport intent => reply .dispatched (s.beginTransport intent call.now)
  | .abortTransport intent => (.ok .done, s.abortTransport intent)
  | .failTransportBeforeSend intent => (.ok .done, s.failTransportBeforeSend intent)
  | .transportUncertain id => reply (fun _ => .done) (s.transportUncertain id)
  | .acknowledgeTransport id => reply (fun _ => .done) (s.acknowledgeTransport id call.now)
  | .completeTransport id outcome => reply (fun _ => .done) (s.completeTransport id outcome call.now)
  | .completeTransportReadback id reported =>
    reply .matched (s.completeTransportReadback id reported call.now)
  | .completeTransportReadbackExact id reported isMatch =>
    reply .matched (s.completeTransportReadbackExact id reported isMatch call.now)
  | .failTransportReadback id => reply (fun _ => .done) (s.failTransportReadback id call.now)
  -- the source panics when nothing was ever proposed; no run continues past that
  | .trackManualAttempt id virtualSimulation =>
    (.ok .done, (s.trackManualAttempt id virtualSimulation).getD s)
  | .failManualBeforeSend => (.ok .done, s.failManualBeforeSend)

def step (s : OutputAuthority) (call : AuthorityCall) : OutputAuthority := (s.apply call).2

/-- The state a run of calls on `s` ends in. -/
def run (s : OutputAuthority) (calls : List AuthorityCall) : OutputAuthority := History.after step s calls

/-- What every call keeps, a run keeps. -/
theorem run_stable {I : OutputAuthority → Prop} (h : ∀ s call, I s → I (s.step call))
    {s : OutputAuthority} (hs : I s) (calls : List AuthorityCall) : I (run s calls) :=
  History.Stable.after h hs calls

theorem run_append (s : OutputAuthority) (calls later : List AuthorityCall) :
    run s (calls ++ later) = run (run s calls) later := History.after_append ..

/-! ### What a call does -/

/-- The call was accepted and put `d` in flight: `begin` or `begin_transport` started it. -/
def Starts (s : OutputAuthority) (call : AuthorityCall) (d : Dispatch) : Prop :=
  (call.op = .command .beginDispatch ∨ ∃ intent, call.op = .beginTransport intent) ∧
    (s.apply call).1.toOption.isSome = true ∧ (s.step call).snapshot.inFlight = some d

/-- The outcome a call reports for the dispatch `d` in flight. -/
def completes (op : AuthorityOp) (d : Dispatch) : Option DispatchOutcome :=
  match op with
  | .command (.complete id outcome) | .completeTransport id outcome =>
    if d.id = id then some outcome else none
  | .completeTransportReadback id reported =>
    if d.id = id ∧ reported.isFinite = true then
      some (if reported == d.value then .readbackVerified else .failed)
    else none
  | .completeTransportReadbackExact id reported isMatch =>
    if d.id = id ∧ reported.isFinite = true then some (if isMatch then .readbackVerified else .failed)
    else none
  | .failTransportReadback id => if d.id = id then some .ambiguous else none
  | _ => none

def Completes (s : OutputAuthority) (call : AuthorityCall) (d : Dispatch) (outcome : DispatchOutcome) :
    Prop :=
  s.snapshot.inFlight = some d ∧ completes call.op d = some outcome

/-- The call reports the dispatch in flight uncertain, failed or ambiguous. -/
def Reports (s : OutputAuthority) (call : AuthorityCall) (d : Dispatch) : Prop :=
  (s.snapshot.inFlight = some d ∧ call.op = .transportUncertain d.id) ∨
    ∃ outcome, s.Completes call d outcome ∧ outcome.unsettled = true

/-- The call revokes: a safe request, a trip, a release, an expiry or an unsettled delivery. -/
def Revokes (s : OutputAuthority) (call : AuthorityCall) : Prop :=
  match call.op with
  | .command .requestSafe | .command .trip => s.snapshot.profile.isSome = true
  | .command (.release lease) => s.checkLease lease call.now = .ok ()
  | .tick => ∃ lease, s.snapshot.lease = some lease ∧ lease.expires ≤ call.now
  | _ => ∃ d, s.Reports call d

/-- The call is an accepted acquisition. -/
def Acquires (s : OutputAuthority) (call : AuthorityCall) : Prop :=
  ∃ owner lifetime lease, call.op = .command (.acquire owner lifetime) ∧
    (s.apply call).1 = .ok (.result (.lease lease))

/-- The call is an accepted profile binding. -/
def Binds (s : OutputAuthority) (call : AuthorityCall) : Prop :=
  ∃ profile, call.op = .command (.bindProfile profile) ∧ (s.apply call).1 = .ok (.result .updated)

end OutputAuthority
end LabRuntime
