import LabRuntime.Runtime.Shell

/-! Acquisition, transports and the safety service leave the registries of instruments alone: they move the clocks only. -/

namespace LabRuntime.Runtime

open Metakon

variable {σ : Type} {s s' : Runtime σ}

-- a relation that holds of whatever leaves the shell alone, for the calls that check a clock too
variable {R : Runtime σ → Runtime σ → Prop} [Std.Refl R] [IsTrans (Runtime σ) R]

/-! ### Deliveries -/

theorem enqueueOutputOn_shell (resource : ResourceId) (request : List UInt8) (expectedResponse now deadline timeout : ℕ)
    (intent : OutputIntent) : Procedure.Moves SameShell
      (enqueueOutputOn resource request expectedResponse now deadline timeout intent : Step σ (Except TransportError ℕ)) := by
  refine .bind .get fun s => ?_
  cases s.resources.get resource with
  | none => exact .pure _
  | some r => exact .bind (.update fun _ => rfl) fun _ => .pure _

omit [Std.Refl R] in
theorem queueMetakonOutput_moves (same : ∀ s s', SameShell s s' → R s s') (actuator : ActuatorId) (now queueTtl timeout : ℕ)
    (clock : Procedure.Moves R (checkTransportTime now : Step σ Unit)) :
    Procedure.Moves R (queueMetakonOutput actuator now queueTtl timeout : Step σ ℕ) := by
  refine .bind clock fun _ => Procedure.Moves.mono ?_ same
  refine .bind .get fun s => ?_
  cases durationAdd now queueTtl with
  | none => exact .stop _
  | some deadline =>
    cases s.fence actuator.instrument with
    | none => exact .stop _
    | some fence =>
      refine .bind .get fun s => .bind (onOutput_shell _ _) fun intent => ?_
      cases s.prepareOutput actuator intent with
      | error error => exact .bind (changeOutput_shell _ _) fun _ => .stop _
      | ok prepared =>
        obtain ⟨request, expectedResponse, protocol⟩ := prepared
        refine .bind (enqueueOutputOn_shell _ _ _ _ _ _ _) fun result => ?_
        cases result with
        | ok transaction => exact .bind (.update fun _ => rfl) fun _ => .pure _
        | error error => exact .bind (changeOutput_shell _ _) fun _ => .stop _

theorem queueMetakonOutput_onward (actuator : ActuatorId) (now queueTtl timeout : ℕ) :
    Procedure.Moves Onward (queueMetakonOutput actuator now queueTtl timeout : Step σ ℕ) :=
  queueMetakonOutput_moves (fun _ _ => SameShell.onward) _ _ _ _ (checkTransportTime_onward now)

theorem proposeDelivery_shell (actuator : ActuatorId) (proposal : OutputProposal) (calculation : Option Calculation)
    (virtualSimulation : Bool) (now : ℕ) :
    Procedure.Moves SameShell (proposeDelivery actuator proposal calculation virtualSimulation now : Step σ Unit) := by
  refine .bind allocateOutputAttempt_shell fun attemptId => .bind (onOutput_shell _ _) fun _ => ?_
  have hrest : Procedure.Moves SameShell (do
      modify fun s => { s with
        outputAttempts := s.outputAttempts.insert actuator attemptId
        calculations := s.calculations ++ (calculation.map fun calculation => (attemptId, calculation)).toList }
      let s ← get
      let requested := (s.outputs.get actuator).bind fun authority => authority.snapshot.requested
      record fun facts => facts.outputCorrelated actuator .requested requested now .none (some attemptId) none : Step σ Unit) :=
    .bind (.update fun _ => rfl) fun _ => .bind .get fun _ => record_shell _
  dsimp only
  split_ifs
  · refine .bind .get fun s => ?_
    cases s.outputs.get actuator with
    | none => exact .bind (.stop _) fun _ => hrest
    | some authority =>
      dsimp only
      cases authority.trackManualAttempt attemptId virtualSimulation with
      | none => exact .bind (.stop _) fun _ => hrest
      | some authority => exact .bind (.update fun _ => rfl) fun _ => hrest
  · exact hrest

theorem deliverPhysical_onward (actuator : ActuatorId) (proposal : OutputProposal) (calculation : Option Calculation) (now : ℕ) :
    Procedure.Moves Onward (deliverPhysical actuator proposal calculation now : Step σ Unit) := by
  refine .bind (moves_onward (proposeDelivery_shell _ _ _ _ _)) fun _ =>
    .bind (moves_onward (requireRecordingOpen_shell _)) fun _ => .bind .get fun s => ?_
  cases s.outputTiming actuator.instrument with
  | none => exact .stop _
  | some timing =>
    obtain ⟨_ | queueTtl, _ | timeout⟩ := timing
    · exact .stop _
    · exact .stop _
    · exact .stop _
    · exact .bind (queueMetakonOutput_onward _ _ _ _) fun _ => .pure _

/-! ### Measurements -/

theorem pushMetakonSample_shell (id : InstrumentId) (sample : Sample) :
    Procedure.Moves SameShell (pushMetakonSample id sample : Step σ Unit) := by
  intro s
  unfold pushMetakonSample
  rw [Procedure.run_get_bind]
  cases hget : s.metakonInstruments.get id with
  | none => rfl
  | some inst =>
    dsimp only
    cases inst.signals.get sample.signal with
    | none => rfl
    | some buffer =>
      dsimp only
      cases buffer.push sample with
      | error error => rfl
      | ok buffer =>
        simp only [SameShell, Procedure.run_modify, shell, keys_replace hget]

theorem pushSimpleSample_shell (id : InstrumentId) (sample : Sample) :
    Procedure.Moves SameShell (pushSimpleSample id sample : Step σ Unit) := by
  intro s
  unfold pushSimpleSample
  rw [Procedure.run_get_bind]
  cases hget : s.simpleDeviceInstruments.get id with
  | none => rfl
  | some inst =>
    dsimp only
    cases inst.signals.get sample.signal with
    | none => rfl
    | some buffer =>
      dsimp only
      cases buffer.push sample with
      | error error => rfl
      | ok buffer =>
        simp only [SameShell, Procedure.run_modify, shell, keys_replace hget]

theorem metakonParameter_shell (id : InstrumentId) (parameter : ParameterId) :
    Procedure.Moves SameShell (metakonParameter id parameter : Step σ ParameterDescriptor) := by
  refine .bind .get fun s => ?_
  cases s.metakonInstruments.get id with
  | none => exact .stop _
  | some inst =>
    dsimp only
    cases inst.descriptor.parameter parameter with
    | none => exact .stop _
    | some descriptor => exact .pure _

theorem simpleParameter_shell (id : InstrumentId) (parameter : ParameterId) :
    Procedure.Moves SameShell (simpleParameter id parameter : Step σ ParameterDescriptor) := by
  refine .bind .get fun s => ?_
  cases s.simpleDeviceInstruments.get id with
  | none => exact .stop _
  | some inst =>
    dsimp only
    cases inst.descriptor.parameter parameter with
    | none => exact .stop _
    | some descriptor => exact .pure _

theorem applyMetakonValue_shell (pending : PendingRead) (value : MetakonValue) (now : ℕ) :
    Procedure.Moves SameShell (applyMetakonValue pending value now : Step σ Unit) := by
  refine .bind (metakonParameter_shell _ _) fun descriptor => ?_
  cases descriptor.signal with
  | none => exact .pure ()
  | some signal =>
    dsimp only
    cases metakonReading pending value with
    | error error => exact .stop _
    | ok reading =>
      cases reading with
      | none => exact .pure ()
      | some reading =>
        cases reading with
        | unavailable reason => exact pushMetakonSample_shell _ _
        | good value => exact .bind (attempt_keeps _) fun _ => pushMetakonSample_shell _ _

theorem pushTransportFailure_shell (pending : PendingRead) (now : ℕ) :
    Procedure.Moves SameShell (pushTransportFailure pending now : Step σ Unit) := by
  refine .bind (metakonParameter_shell _ _) fun descriptor => ?_
  cases descriptor.signal with
  | none => exact .pure ()
  | some signal => exact pushMetakonSample_shell _ _

theorem applySimpleValue_shell (pending : PendingSimpleRead) (value : Value) (now : ℕ) :
    Procedure.Moves SameShell (applySimpleValue pending value now : Step σ Unit) := by
  refine .bind (simpleParameter_shell _ _) fun descriptor => .bind (attempt_keeps _) fun _ => ?_
  cases descriptor.signal with
  | none => exact .stop _
  | some signal => exact pushSimpleSample_shell _ _

theorem pushSimpleTransportFailure_shell (pending : PendingSimpleRead) (now : ℕ) :
    Procedure.Moves SameShell (pushSimpleTransportFailure pending now : Step σ Unit) := by
  refine .bind (simpleParameter_shell _ _) fun descriptor => ?_
  cases descriptor.signal with
  | none => exact .stop _
  | some signal => exact pushSimpleSample_shell _ _

theorem recordPendingSampleAt_shell (pending : PendingRead) (now : ℕ) :
    Procedure.Moves SameShell (recordPendingSampleAt pending now : Step σ Unit) := by
  refine .bind .get fun s => ?_
  cases s.metakonInstruments.get pending.instrument with
  | none => exact .pure ()
  | some inst => exact record_shell _

theorem recordPendingSimpleSampleAt_shell (pending : PendingSimpleRead) (now : ℕ) :
    Procedure.Moves SameShell (recordPendingSimpleSampleAt pending now : Step σ Unit) := by
  refine .bind .get fun s => ?_
  cases s.simpleDeviceInstruments.get pending.instrument with
  | none => exact .pure ()
  | some inst => exact record_shell _

/-! ### Transport events -/

theorem protocolFailureOn_shell (resource : ResourceId) : Procedure.Moves SameShell (protocolFailureOn resource : Step σ Unit) := by
  refine .bind .get fun s => ?_
  cases s.resources.get resource with
  | none => exact .stop _
  | some r =>
    dsimp only
    rcases r.executor.protocolFailure with ⟨_ | _, executor⟩
    · exact .bind (.update fun _ => rfl) fun _ => .stop _
    · exact .bind (.update fun _ => rfl) fun _ => .pure ()

theorem transportFact_shell (intent : OutputIntent) (resource : ResourceId) (stage : OutputStage) (now : ℕ)
    (dispatch : Option DispatchId) :
    Procedure.Moves SameShell (transportFact intent resource stage now dispatch : Step σ PUnit) := record_shell _

theorem renewAfterDelivery_shell (actuator : ActuatorId) (controller : NativeController) (isMatch : Bool) (now : ℕ) :
    Procedure.Moves SameShell (renewAfterDelivery actuator controller isMatch now : Step σ (Option OutputLease)) := by
  unfold renewAfterDelivery
  split_ifs
  · refine .bind .get fun s => ?_
    cases controller.lease with
    | none => exact .stop _
    | some lease =>
      dsimp only
      cases s.outputs.get actuator with
      | none => exact .stop _
      | some authority => exact .bind (.update fun _ => rfl) fun _ => .pure _
  · exact .pure _

theorem concludeDelivery_shell (id : ControllerId) (controller : NativeController) (renewal : Option OutputLease) (now : ℕ) :
    Procedure.Moves SameShell (concludeDelivery id controller renewal now : Step σ Unit) := by
  unfold concludeDelivery
  cases renewal with
  | some replacement => exact .update fun _ => rfl
  | none => exact .bind (failController_shell _ _) fun _ => .bind (record_shell _) fun _ => .update fun _ => rfl

theorem settleControllerAfterPhysicalReadback_shell (actuator : ActuatorId) (isMatch : Bool) (now : ℕ) :
    Procedure.Moves SameShell (settleControllerAfterPhysicalReadback actuator isMatch now : Step σ Unit) := by
  refine .bind .get fun s => ?_
  cases s.runningController actuator with
  | none => exact .pure ()
  | some found =>
    obtain ⟨id, controller⟩ := found
    exact .bind (.update fun _ => rfl) fun _ => .bind (renewAfterDelivery_shell _ _ _ _) fun _ => concludeDelivery_shell _ _ _ _

theorem failOutputReadback_shell (resource : ResourceId) (pending : PendingOutputReadback) (now : ℕ) :
    Procedure.Moves SameShell (failOutputReadback resource pending now : Step σ Unit) := by
  have hsettle : Procedure.Moves SameShell
      (if !pending.intent.safe then settleControllerAfterPhysicalReadback pending.intent.actuator false now else pure () :
        Step σ Unit) := by
    split_ifs
    · exact settleControllerAfterPhysicalReadback_shell _ _ _
    · exact .pure ()
  refine .bind .get fun s => ?_
  dsimp only
  by_cases hknown : s.outputs.contains pending.intent.actuator = true
  · rw [if_pos hknown]
    exact .bind (onOutput_shell _ _) fun _ => .bind (transportFact_shell _ _ _ _ _) fun _ => hsettle
  · rw [if_neg hknown]
    exact hsettle

theorem handleOutputReadback_shell (resource : ResourceId) (pending : PendingOutputReadback) (record : TransactionRecord)
    (response : Option (List UInt8)) (now : ℕ) :
    Procedure.Moves SameShell (handleOutputReadback resource pending record response now : Step σ Unit) := by
  refine .bind .get fun s => ?_
  dsimp only
  by_cases hfence : s.fence pending.intent.actuator.instrument ≠ some (pending.intent.fence resource)
  · rw [if_pos hfence]
    exact .pure ()
  rw [if_neg hfence]
  by_cases hdone : record.outcome ≠ .completed
  · rw [if_pos hdone]
    exact failOutputReadback_shell _ _ _
  rw [if_neg hdone]
  cases s.decodeReadback pending response with
  | none => exact .bind (failOutputReadback_shell _ _ _) fun _ => protocolFailureOn_shell _
  | some read =>
    obtain ⟨reported, exactMatch⟩ := read
    refine .bind (onOutput_shell _ _) fun matched => .bind (record_shell _) fun _ => ?_
    split_ifs
    · exact settleControllerAfterPhysicalReadback_shell _ _ _
    · exact .pure ()

theorem handleReadUnavailable_shell (key : TransactionKey) (bindingGeneration mappingRevision now : ℕ) :
    Procedure.Moves SameShell (handleReadUnavailable key bindingGeneration mappingRevision now : Step σ Unit) := by
  refine .bind .get fun s => ?_
  dsimp only
  cases s.pendingReads.get key with
  | some pending =>
    dsimp only
    split_ifs
    · exact .bind (pushTransportFailure_shell _ _) fun _ => .bind (recordPendingSampleAt_shell _ _) fun _ => .update fun _ => rfl
    · exact .pure ()
  | none =>
    dsimp only
    cases s.pendingSimpleReads.get key with
    | some pending =>
      dsimp only
      split_ifs
      · exact .bind (pushSimpleTransportFailure_shell _ _) fun _ => .bind (recordPendingSimpleSampleAt_shell _ _) fun _ =>
          .update fun _ => rfl
      · exact .pure ()
    | none => exact .pure ()

theorem handleReadFenced_shell (key : TransactionKey) (now : ℕ) :
    Procedure.Moves SameShell (handleReadFenced key now : Step σ Unit) := by
  refine .bind (.update fun _ => rfl) fun _ => .bind .get fun s => ?_
  cases s.pendingOutputReadbacks.get key with
  | none => exact .pure ()
  | some pending => exact .bind (.update fun _ => rfl) fun _ => failOutputReadback_shell _ _ _

theorem handleSimpleRead_shell (key : TransactionKey) (pending : PendingSimpleRead) (record : TransactionRecord)
    (response : Option (List UInt8)) (now : ℕ) :
    Procedure.Moves SameShell (handleSimpleRead key pending record response now : Step σ Unit) := by
  have hrecord := recordPendingSimpleSampleAt_shell (σ := σ) pending now
  refine .bind .get fun s => ?_
  cases s.simpleDeviceInstruments.get pending.instrument with
  | none => exact .pure ()
  | some inst =>
    dsimp only
    split_ifs
    · exact .pure ()
    · cases response.bind fun bytes => (inst.descriptor.parameter pending.parameter).bind fun descriptor =>
          pending.response.decode bytes descriptor with
      | some value => exact .bind (applySimpleValue_shell _ _ _) fun _ => hrecord
      | none => exact .bind (pushSimpleTransportFailure_shell _ _) fun _ => .bind (protocolFailureOn_shell _) fun _ => hrecord
    · exact .bind (pushSimpleTransportFailure_shell _ _) fun _ => hrecord
    · exact hrecord

theorem handleMetakonRead_shell (key : TransactionKey) (pending : PendingRead) (record : TransactionRecord)
    (response : Option (List UInt8)) (now : ℕ) :
    Procedure.Moves SameShell (handleMetakonRead key pending record response now : Step σ Unit) := by
  have hrecord := recordPendingSampleAt_shell (σ := σ) pending now
  have hbad : Procedure.Moves SameShell (do
      pushTransportFailure pending now
      protocolFailureOn key.resource
      recordPendingSampleAt pending now : Step σ Unit) :=
    .bind (pushTransportFailure_shell _ _) fun _ => .bind (protocolFailureOn_shell _) fun _ => hrecord
  refine .bind .get fun s => ?_
  cases s.metakonInstruments.get pending.instrument with
  | none => exact .pure ()
  | some inst =>
    dsimp only
    split_ifs
    · exact .pure ()
    · cases response with
      | none => exact hbad
      | some bytes =>
        dsimp only
        cases decodeRead bytes pending.expected with
        | ok value => exact .bind (applyMetakonValue_shell _ _ _) fun _ => hrecord
        | error error => exact hbad
    · exact .bind (pushTransportFailure_shell _ _) fun _ => hrecord
    · exact hrecord

theorem handleReadTerminal_shell (resource : ResourceId) (record : TransactionRecord) (response : Option (List UInt8)) (now : ℕ) :
    Procedure.Moves SameShell (handleReadTerminal resource record response now : Step σ Unit) := by
  refine .bind .get fun s => ?_
  cases s.pendingOutputReadbacks.get { resource := resource, transaction := record.id } with
  | some pending => exact .bind (.update fun _ => rfl) fun _ => handleOutputReadback_shell _ _ _ _ _
  | none =>
    dsimp only
    cases s.pendingSimpleReads.get { resource := resource, transaction := record.id } with
    | some pending => exact .bind (.update fun _ => rfl) fun _ => handleSimpleRead_shell _ _ _ _ _
    | none =>
      dsimp only
      cases s.pendingReads.get { resource := resource, transaction := record.id } with
      | some pending => exact .bind (.update fun _ => rfl) fun _ => handleMetakonRead_shell _ _ _ _ _
      | none => exact .pure ()

/-- A call on a known authority and the fact of it, or nothing. -/
theorem settledFact_shell (s : Runtime σ) (actuator : ActuatorId) (f : OutputAuthority → Outcome Unit) (intent : OutputIntent)
    (resource : ResourceId) (stage : OutputStage) (now : ℕ) (dispatch : Option DispatchId) :
    Procedure.Moves SameShell (if s.outputs.contains actuator = true then do
        onOutput actuator f
        transportFact intent resource stage now dispatch
      else pure () : Step σ Unit) := by
  split_ifs
  · exact .bind (onOutput_shell _ _) fun _ => transportFact_shell _ _ _ _ _
  · exact .pure ()

theorem handleOutputUncertain_shell (resource : ResourceId) (id : ℕ) (intent : OutputIntent) (dispatch : DispatchId) (now : ℕ) :
    Procedure.Moves SameShell (handleOutputUncertain resource id intent dispatch now : Step σ Unit) :=
  .bind (.update fun _ => rfl) fun _ => .bind .get fun s => settledFact_shell s _ _ _ _ _ _ _

theorem queueReadback_shell (resource : ResourceId) (intent : OutputIntent) (dispatch : DispatchId)
    (pendingWrite : Option PendingOutputWrite) (now : ℕ) :
    Procedure.Moves SameShell (queueReadback resource intent dispatch pendingWrite now : Step σ Unit) := by
  unfold queueReadback
  cases pendingWrite with
  | none => exact .stop _
  | some pendingWrite =>
    refine .bind .get fun s => .bind (attempt_keeps _) fun prepared => .bind .get fun s => ?_
    obtain ⟨request, expectedLength, protocol⟩ := prepared
    dsimp only
    cases durationAdd now pendingWrite.timeout with
    | none => exact .stop _
    | some deadline =>
      cases s.resources.get resource with
      | none => exact .stop _
      | some r =>
        dsimp only
        rcases r.executor.enqueueRead request expectedLength now deadline pendingWrite.timeout false
          intent.bindingGeneration intent.mappingRevision with ⟨_ | transaction, executor⟩
        · exact .bind (.update fun _ => rfl) fun _ => failOutputReadback_shell _ _ _
        · exact .bind (.update fun _ => rfl) fun _ => .update fun _ => rfl

theorem acknowledgeOutput_shell (resource : ResourceId) (intent : OutputIntent) (dispatch : DispatchId)
    (pendingWrite : Option PendingOutputWrite) (now : ℕ) :
    Procedure.Moves SameShell (acknowledgeOutput resource intent dispatch pendingWrite now : Step σ Unit) := by
  refine .bind .get fun s => ?_
  cases s.outputs.get intent.actuator with
  | none => exact .stop _
  | some authority =>
    refine .bind (attempt_keeps _) fun requiresReadback => .bind (settle_shell _ _) fun _ =>
      .bind (transportFact_shell _ _ _ _ _) fun _ => ?_
    split_ifs
    · exact queueReadback_shell _ _ _ _ _
    · exact settleControllerAfterPhysicalReadback_shell _ _ _
    · exact .pure ()

theorem handleStartedOutput_shell (resource : ResourceId) (intent : OutputIntent) (dispatch : DispatchId)
    (pendingWrite : Option PendingOutputWrite) (record : TransactionRecord) (response : Option (List UInt8)) (now : ℕ) :
    Procedure.Moves SameShell (handleStartedOutput resource intent dispatch pendingWrite record response now : Step σ Unit) := by
  refine .bind .get fun s => ?_
  dsimp only
  split_ifs
  · exact acknowledgeOutput_shell _ _ _ _ _
  · exact .bind (onOutput_shell _ _) fun _ => .bind (transportFact_shell _ _ _ _ _) fun _ => .bind (.update fun _ => rfl) fun _ =>
      protocolFailureOn_shell _
  · exact .pure ()
  · exact .bind (onOutput_shell _ _) fun _ => transportFact_shell _ _ _ _ _
  · exact .pure ()

theorem handleOutputTerminal_shell (resource : ResourceId) (intent : OutputIntent) (dispatch : Option DispatchId)
    (record : TransactionRecord) (response : Option (List UInt8)) (now : ℕ) :
    Procedure.Moves SameShell (handleOutputTerminal resource intent dispatch record response now : Step σ Unit) := by
  refine .bind .get fun s => .bind (.update fun _ => rfl) fun _ => ?_
  cases dispatch with
  | none => exact .bind (changeOutput_shell _ _) fun _ => transportFact_shell _ _ _ _ _
  | some dispatch => exact handleStartedOutput_shell _ _ _ _ _ _ _

theorem handleBoundaryRecovered_shell (resource : ResourceId) (now : ℕ) :
    Procedure.Moves SameShell (handleBoundaryRecovered resource now : Step σ Unit) := by
  refine .bind .get fun s => ?_
  cases s.unsettledOutputs.get resource with
  | none => exact .pure ()
  | some unsettled =>
    obtain ⟨intent, dispatch⟩ := unsettled
    exact .bind (.update fun _ => rfl) fun _ => .bind .get fun s => settledFact_shell s _ _ _ _ _ _ _

theorem handleTransportEvent_shell (resource : ResourceId) (event : TransportEvent) (now : ℕ) :
    Procedure.Moves SameShell (handleTransportEvent resource event now : Step σ Unit) := by
  cases event with
  | readUnavailable id bindingGeneration mappingRevision => exact handleReadUnavailable_shell _ _ _ _
  | readFenced id => exact handleReadFenced_shell _ _
  | readTerminal record response => exact handleReadTerminal_shell _ _ _ _
  | outputUncertain id intent dispatch => exact handleOutputUncertain_shell _ _ _ _ _
  | outputTerminal intent dispatch record response => exact handleOutputTerminal_shell _ _ _ _ _ _
  | boundaryRecovered => exact handleBoundaryRecovered_shell _ _
  | boundaryFailed => exact .pure ()

/-! ### Polling and retirement -/

theorem pollExecutor_shell (A : ByteTransport σ) (resource : ResourceId) (now : ℕ) :
    Procedure.Moves SameShell (pollExecutor A resource now : Step σ (Option TransportEvent)) := by
  intro s
  unfold pollExecutor
  rw [Procedure.run_modify_bind, Procedure.run_get_bind]
  have hserviced := s.serviceRequiredRecordingDeadline_shell now
  generalize s.serviceRequiredRecordingDeadline now = s₁ at hserviced
  refine trans_of SameShell hserviced ?_
  cases s₁.resources.get resource with
  | none => rfl
  | some r =>
    dsimp only
    rcases r.executor.pollAuthorized (A.boundary (s₁.authorizer resource now))
      (r.adapter, { outputs := s₁.outputs, facts := s₁.recordingFacts, sends := s₁.sends }) now with
      ⟨⟨_ | event, executor⟩, adapter, permit⟩
    · rfl
    · rfl

theorem pollTransports_moves (same : ∀ s s', SameShell s s' → R s s') (A : ByteTransport σ) (now : ℕ)
    (transport : Procedure.Moves R (checkTransportTime now : Step σ Unit))
    (output : Procedure.Moves R (checkOutputTime now : Step σ Unit)) :
    Procedure.Moves R (pollTransports A now : Step σ Unit) := by
  have hopen : Procedure.Moves R (openPoll now : Step σ Unit) :=
    .bind ((serviced_shell now).mono same) fun _ => .bind transport fun _ => .bind output fun _ =>
      .update fun s => same _ _ (foldl_shell syncRecordingOutputContext_shell _ s)
  refine .bind hopen fun _ => .bind .get fun s => .forEach fun resource _ => Procedure.Moves.mono ?_ same
  refine .bind (pollExecutor_shell _ _ _) fun event => ?_
  cases event with
  | none => exact .pure ()
  | some event => exact handleTransportEvent_shell _ _ _

theorem pollTransports_onward (A : ByteTransport σ) (now : ℕ) : Procedure.Moves Onward (pollTransports A now : Step σ Unit) :=
  pollTransports_moves (fun _ _ => SameShell.onward) A now (checkTransportTime_onward now) (checkOutputTime_onward now)

theorem retireResource_onward (A : ByteTransport σ) (resource : ResourceId) (now : ℕ) :
    Procedure.Moves Onward (retireResource A resource now : Step σ (TransportShutdown × List TransportEvent)) := by
  refine .bind (checkTransportTime_onward now) fun _ => .bind .get fun s => ?_
  cases s.resources.get resource with
  | none => exact .stop _
  | some r =>
    dsimp only
    rcases r.executor.tryShutdown (A.boundary fun (_ : Unit) _ _ => (.error (), ())) (r.adapter, ()) with
      ⟨⟨status, executor⟩, adapter, _⟩
    exact .bind (.update fun _ => SameShell.onward rfl) fun _ => .pure _

theorem shutdownTransport_onward (A : ByteTransport σ) (resource : ResourceId) (now : ℕ) :
    Procedure.Moves Onward (shutdownTransport A resource now : Step σ TransportShutdown) := by
  refine .bind (retireResource_onward A resource now) fun retired => ?_
  obtain ⟨status, events⟩ := retired
  exact .bind (.forEach fun event _ => moves_onward (handleTransportEvent_shell _ _ _)) fun _ => .pure _

/-! ### Safety service -/

theorem serviceController_shell (now : ℕ) (id : ControllerId) : Procedure.Moves SameShell (serviceController now id : Step σ Unit) := by
  refine .bind .get fun s => ?_
  cases s.controllers.get id with
  | none => exact .stop _
  | some controller =>
    refine .bind (.update fun _ => rfl) fun _ => .bind .get fun s => ?_
    dsimp only
    by_cases hfails : (controller.state.live && s.mustFail controller now) = true
    · rw [if_pos hfails]
      by_cases hwarm : controller.state ≠ .warming
      · rw [if_pos hwarm]
        exact .bind (ignoring_moves (failController_shell _ _)) fun _ => .bind (record_shell _) fun _ => .update fun _ => rfl
      · rw [if_neg hwarm]
        exact .bind (record_shell _) fun _ => .update fun _ => rfl
    · rw [if_neg hfails]
      exact .update fun _ => rfl

/-- The safety service after its clock was checked. -/
def serviceChecked (A : ByteTransport σ) (now : ℕ) : Step σ Unit := do
  Procedure.forEach (← get).controllers.keys (serviceController now)
  let s ← get
  Procedure.forEach (s.safePending.filter fun actuator => s.thermalPlants.contains actuator.instrument)
    fun actuator => ignoring (completeSimulatedSafe actuator now)
  let s ← get
  Procedure.forEach (s.safePending.filterMap fun actuator => match s.outputTiming actuator.instrument with
      | some (some queueTtl, some timeout) => some (actuator, queueTtl, timeout)
      | _ => none)
    fun (actuator, queueTtl, timeout) => ignoring (queueMetakonOutput actuator now queueTtl timeout)
  pollTransports A now

theorem serviceSafety_eq (A : ByteTransport σ) (now : ℕ) : serviceSafety A now = (do
    modify fun s => s.serviceRequiredRecordingDeadline now
    checkOutputTime now
    serviceChecked A now : Step σ Unit) := rfl

theorem serviceChecked_moves (same : ∀ s s', SameShell s s' → R s s') (A : ByteTransport σ) (now : ℕ)
    (transport : Procedure.Moves R (checkTransportTime now : Step σ Unit))
    (output : Procedure.Moves R (checkOutputTime now : Step σ Unit)) :
    Procedure.Moves R (serviceChecked A now : Step σ Unit) := by
  refine .bind .get fun s => .bind (.forEach fun id _ => (serviceController_shell _ _).mono same) fun _ => .bind .get fun s =>
    .bind (.forEach fun actuator _ => ignoring_moves ((completeSimulatedSafe_shell _ _).mono same)) fun _ =>
    .bind .get fun s => .bind (.forEach fun pending _ => ?_) fun _ => pollTransports_moves same A now transport output
  obtain ⟨actuator, queueTtl, timeout⟩ := pending
  exact ignoring_moves (queueMetakonOutput_moves same _ _ _ _ transport)

theorem serviceSafety_onward (A : ByteTransport σ) (now : ℕ) : Procedure.Moves Onward (serviceSafety A now : Step σ Unit) :=
  .bind (moves_onward (serviced_shell now)) fun _ => .bind (checkOutputTime_onward now) fun _ =>
    serviceChecked_moves (fun _ _ => SameShell.onward) A now (checkTransportTime_onward now) (checkOutputTime_onward now)

/-- After a safety service the clock shows its time. -/
theorem serviceSafety_ok {A : ByteTransport σ} {now : ℕ} {u : Unit} (h : (serviceSafety A now).run s = (.ok u, s')) :
    s'.outputTime = now := by
  rw [serviceSafety_eq, Procedure.run_modify_bind] at h
  obtain ⟨u, s₁, hclock, hrest⟩ := Procedure.bind_ok.1 h
  have hholds := serviceChecked_moves (R := Timely now) (fun _ _ => SameShell.timely now) A now (checkTransportTime_timely now now)
    (checkOutputTime_timely now) s₁ (checkOutputTime_ok hclock)
  rwa [hrest] at hholds

end LabRuntime.Runtime
