import LabRuntime.Runtime.PhysicalIo
import LabRuntime.Output.SafeResend
import LabRuntime.Transport.Evidence

/-! What the owner makes of send evidence. An output that is reported as started is never recorded as
rejected before the send, and its safe request is not sent again. -/

namespace LabRuntime

def RecordingFact.stage : RecordingFact → Option OutputStage
  | .output _ _ _ _ _ _ _ _ _ stage _ _ _ => some stage
  | _ => none

namespace Permission

variable {c c' : Permission} {now : ℕ}

/-- A safe write in flight is the only one owed, or a further one is blocked. -/
structure Unrepeated (c : Permission) : Prop where
  safe : ∀ d, c.inFlight = some d → d.safe = true
  owed : c.obligation = true → c.blocked = true

/-- The calls that settle a started physical output. -/
inductive Settling : AuthorityOp → Prop
  | uncertain (id : DispatchId) : Settling (.transportUncertain id)
  | acknowledged (id : DispatchId) : Settling (.acknowledgeTransport id)
  | completed (id : DispatchId) (outcome : DispatchOutcome) : Settling (.completeTransport id outcome)
  | readbackFailed (id : DispatchId) : Settling (.failTransportReadback id)

theorem Unrepeated.settle (h : c.Unrepeated) : c.settle.Unrepeated :=
  { safe := by rintro d ⟨⟩, owed := h.owed }

theorem Unrepeated.exhaust (h : c.Unrepeated) : c.exhaust.Unrepeated := ⟨h.safe, h.owed⟩

theorem Unrepeated.distrust (h : c.Unrepeated) {d : Dispatch} (hd : d.safe = true) : (c.distrust d).Unrepeated := by
  unfold Permission.distrust
  split_ifs with he
  · refine ⟨fun d' hd' => h.safe d' ?_, fun _ => rfl⟩
    rwa [revoke_of_lt he.2] at hd'
  · rw [revoke_of_not_lt fun hlt => he ⟨hd, hlt⟩]
    exact h.exhaust

theorem Unrepeated.settled (h : c.Unrepeated) {d : Dispatch} {outcome : DispatchOutcome}
    (hc : c.Settled d outcome c') : c'.Unrepeated := by
  cases hc with
  | old => exact h.settle
  | current => exact { safe := by rintro d ⟨⟩, owed := h.owed }

end Permission

namespace OutputAuthority
open Permission

/-- Settling a safe output never permits it to be sent once more. -/
theorem Unrepeated.step {s : OutputAuthority} {call : AuthorityCall} (hop : Settling call.op)
    (h : s.permission.Unrepeated) : (s.step call).permission.Unrepeated := by
  by_cases hr : s.Revokes call
  · obtain ⟨d, hd⟩ : ∃ d, s.Reports call d := by
      obtain ⟨op, now⟩ := call
      cases hop <;> exact hr
    obtain ⟨hf, hop⟩ | ⟨outcome, hd, ho⟩ := hd
    · have hstep : (s.step call).permission = s.permission.distrust d := by
        rw [← s.transportUncertain_permission hf]
        simp only [OutputAuthority.step, apply, hop, reply_snd]
      exact hstep ▸ h.distrust (h.safe d hf)
    · exact step_failed hd ho ▸ h.settle.distrust (h.safe d hd.1)
  · have hchange := step_change hr
    generalize (s.apply call).1 = r at hchange
    generalize (s.step call).permission = c at hchange
    obtain ⟨op, now⟩ := call
    cases hop <;> cases hchange with
    | rejected | observed => exact h
    | dropped => exact ⟨h.safe, h.owed⟩
    | latched => exact h.exhaust
    | renewed => exact ⟨h.safe, h.owed⟩
    | withdrawn _ _ _ => split_ifs <;> exact ⟨h.safe, h.owed⟩
    | completed _ _ _ settled => exact h.settled settled

end OutputAuthority

namespace Runtime

variable {σ : Type} {s s' : Runtime σ}

/-- The step captured no rejection before a send. -/
def Unrejected (s s' : Runtime σ) : Prop :=
  ∀ fact ∈ s'.recordingFacts.facts, fact ∈ s.recordingFacts.facts ∨ fact.stage ≠ some .rejectedBeforeSend

instance : Std.Refl (Unrejected (σ := σ)) := ⟨fun _ _ h => .inl h⟩

instance : IsTrans (Runtime σ) Unrejected :=
  ⟨fun _ _ _ h h' fact hfact => (h' fact hfact).elim (h fact) .inr⟩

/-- A step that leaves the outbox alone. -/
theorem Unrejected.of_eq (h : s'.recordingFacts = s.recordingFacts) : Unrejected s s' :=
  fun _ hfact => .inl (h ▸ hfact)

theorem Unrejected.of_push (bytes : ℕ) {create : ℕ → RecordingFact}
    (h : s'.recordingFacts = s.recordingFacts.push bytes create)
    (hstage : ∀ n, (create n).stage ≠ some .rejectedBeforeSend) : Unrejected s s' := by
  intro fact hfact
  rw [h] at hfact
  obtain hsame | ⟨n, hadd⟩ := s.recordingFacts.push_facts bytes create
  · exact .inl (hsame ▸ hfact)
  · rw [hadd, List.mem_append, List.mem_singleton] at hfact
    obtain hold | rfl := hfact
    · exact .inl hold
    · exact .inr (hstage n)

/-! ### The steps of a started output -/

theorem attempt_moves {α : Type} (result : Except Error α) : Procedure.Moves Unrejected (attempt result : Step σ α) := by
  cases result with
  | ok a => exact .pure a
  | error e => exact .stop _

theorem record_moves {f : FactOutbox → FactOutbox} (h : ∀ s : Runtime σ, Unrejected s { s with recordingFacts := f s.recordingFacts }) :
    Procedure.Moves Unrejected (record f : Step σ PUnit) :=
  .update h

theorem settle_moves {α : Type} (actuator : ActuatorId) (o : Outcome α) :
    Procedure.Moves Unrejected (settle actuator o : Step σ α) := by
  obtain ⟨result, authority⟩ := o
  exact .bind (.update fun s => .of_eq rfl) fun _ => attempt_moves result

theorem onOutput_moves {α : Type} (actuator : ActuatorId) (f : OutputAuthority → Outcome α) :
    Procedure.Moves Unrejected (onOutput actuator f : Step σ α) := by
  refine .bind .get fun s => ?_
  cases s.outputs.get actuator with
  | none => exact .stop _
  | some authority => exact settle_moves actuator (f authority)

theorem transportFact_moves (intent : OutputIntent) (resource : ResourceId) {stage : OutputStage} (now : ℕ)
    (dispatch : Option DispatchId) (h : stage ≠ .rejectedBeforeSend) :
    Procedure.Moves Unrejected (transportFact intent resource stage now dispatch : Step σ PUnit) :=
  record_moves fun s => .of_push 128 rfl fun n => by simpa [RecordingFact.stage] using h

theorem protocolFailureOn_moves (resource : ResourceId) :
    Procedure.Moves Unrejected (protocolFailureOn resource : Step σ Unit) := by
  refine .bind .get fun s => ?_
  cases s.resources.get resource with
  | none => exact .stop _
  | some r =>
    dsimp only
    rcases r.executor.protocolFailure with ⟨result, executor⟩
    refine .bind (.update fun s => .of_eq rfl) fun _ => ?_
    cases result with
    | ok _ => exact .pure ()
    | error error => exact .stop _

theorem applyVirtualDispatch_moves (actuator : ActuatorId) (value : F64) :
    Procedure.Moves Unrejected (applyVirtualDispatch actuator value : Step σ Unit) := by
  refine .bind .get fun s => ?_
  cases s.thermalPlants.get actuator.instrument with
  | none => exact .pure ()
  | some plant =>
    dsimp only
    split_ifs
    · exact .bind (attempt_moves _) fun _ => .update fun s => .of_eq rfl
    · exact .pure ()

theorem beginSimulated_moves (actuator : ActuatorId) (now : ℕ) :
    Procedure.Moves Unrejected (beginSimulated actuator now : Step σ Dispatch) := by
  refine .bind .get fun s => ?_
  cases s.outputs.get actuator with
  | none => exact .stop _
  | some authority =>
    refine .bind (settle_moves _ _) fun result => ?_
    cases result with
    | dispatched dispatch => exact .bind .get fun s => .bind (.update fun s => .of_eq rfl) fun _ => .pure dispatch
    | _ => exact .stop _

theorem completeSimulatedSafe_moves (actuator : ActuatorId) (now : ℕ) :
    Procedure.Moves Unrejected (completeSimulatedSafe actuator now : Step σ Unit) := by
  refine .bind (beginSimulated_moves _ _) fun dispatch => .bind .get fun s =>
    .bind (record_moves fun s => .of_push 128 rfl fun n => ?_) fun _ =>
      .bind (applyVirtualDispatch_moves _ _) fun _ => .bind (onOutput_moves _ _) fun _ =>
        record_moves fun s => .of_push 128 rfl fun n => ?_
  · simp [RecordingFact.stage]
  · simp [RecordingFact.stage]

theorem failController_moves (controller : NativeController) (now : ℕ) :
    Procedure.Moves Unrejected (failController controller now : Step σ Unit) := by
  refine .bind .get fun s => ?_
  cases s.outputs.get controller.config.output with
  | none => exact .stop _
  | some authority =>
    dsimp only
    split_ifs
    · refine .bind (settle_moves _ _) fun _ => .bind .get fun s => ?_
      split_ifs
      · exact completeSimulatedSafe_moves _ _
      · exact .pure ()
    · exact .pure ()

theorem settleControllerAfterPhysicalReadback_moves (actuator : ActuatorId) (isMatch : Bool) (now : ℕ) :
    Procedure.Moves Unrejected (settleControllerAfterPhysicalReadback actuator isMatch now : Step σ Unit) := by
  refine .bind .get fun s => ?_
  cases s.runningController actuator with
  | none => exact .pure ()
  | some found =>
    refine .bind (.update fun s => .of_eq rfl) fun _ => .bind ?_ fun renewal => ?_
    · unfold renewAfterDelivery
      split_ifs
      · refine .bind .get fun s => ?_
        cases found.2.lease with
        | none => exact .stop _
        | some lease =>
          cases s.outputs.get actuator with
          | none => exact .stop _
          | some authority => exact .bind (.update fun s => .of_eq rfl) fun _ => .pure _
      · exact .pure none
    · cases renewal with
      | some replacement => exact .update fun s => .of_eq rfl
      | none =>
        refine .bind (failController_moves _ _) fun _ => .bind (record_moves fun s => .of_push 256 rfl fun n => ?_)
          fun _ => .update fun s => .of_eq rfl
        simp [RecordingFact.stage]

theorem failOutputReadback_moves (resource : ResourceId) (pending : PendingOutputReadback) (now : ℕ) :
    Procedure.Moves Unrejected (failOutputReadback resource pending now : Step σ Unit) := by
  have hsettle : Procedure.Moves Unrejected (if (!pending.intent.safe) = true then
      settleControllerAfterPhysicalReadback pending.intent.actuator false now else pure () : Step σ Unit) := by
    split_ifs
    · exact settleControllerAfterPhysicalReadback_moves _ _ _
    · exact .pure ()
  refine .bind .get fun s => ?_
  dsimp only
  split_ifs at hsettle ⊢
  all_goals
    first
      | exact .bind (onOutput_moves _ _) fun _ => .bind (transportFact_moves _ _ _ _ (by decide)) fun _ => hsettle
      | exact hsettle

theorem queueReadback_moves (resource : ResourceId) (intent : OutputIntent) (dispatch : DispatchId)
    (pendingWrite : Option PendingOutputWrite) (now : ℕ) :
    Procedure.Moves Unrejected (queueReadback resource intent dispatch pendingWrite now : Step σ Unit) := by
  cases pendingWrite with
  | none => exact .stop _
  | some pendingWrite =>
    refine .bind .get fun s => .bind (attempt_moves _) fun plan => .bind .get fun s => ?_
    obtain ⟨request, expectedLength, protocol⟩ := plan
    cases durationAdd now pendingWrite.timeout with
    | none => exact .stop _
    | some deadline =>
      cases s.resources.get resource with
      | none => exact .stop _
      | some r =>
        dsimp only
        rcases r.executor.enqueueRead request expectedLength now deadline pendingWrite.timeout false
          intent.bindingGeneration intent.mappingRevision with ⟨result, executor⟩
        refine .bind (.update fun s => .of_eq rfl) fun _ => ?_
        cases result with
        | ok transaction => exact .update fun s => .of_eq rfl
        | error _ => exact failOutputReadback_moves _ _ _

theorem acknowledgeOutput_moves (resource : ResourceId) (intent : OutputIntent) (dispatch : DispatchId)
    (pendingWrite : Option PendingOutputWrite) (now : ℕ) :
    Procedure.Moves Unrejected (acknowledgeOutput resource intent dispatch pendingWrite now : Step σ Unit) := by
  refine .bind .get fun s => ?_
  cases s.outputs.get intent.actuator with
  | none => exact .stop _
  | some authority =>
    refine .bind (attempt_moves _) fun requiresReadback => .bind (settle_moves _ _) fun _ =>
      .bind (transportFact_moves _ _ _ _ ?_) fun _ => ?_
    · cases intent.safe <;> decide
    · split_ifs
      · exact queueReadback_moves _ _ _ _ _
      · exact settleControllerAfterPhysicalReadback_moves _ _ _
      · exact .pure ()

theorem handleStartedOutput_moves (resource : ResourceId) (intent : OutputIntent) (dispatch : DispatchId)
    (pendingWrite : Option PendingOutputWrite) (record : TransactionRecord) (response : Option (List UInt8))
    (now : ℕ) :
    Procedure.Moves Unrejected
      (handleStartedOutput resource intent dispatch pendingWrite record response now : Step σ Unit) := by
  refine .bind .get fun s => ?_
  dsimp only
  split_ifs
  · exact acknowledgeOutput_moves _ _ _ _ _
  · exact .bind (onOutput_moves _ _) fun _ => .bind (transportFact_moves _ _ _ _ (by decide)) fun _ =>
      .bind (.update fun s => .of_eq rfl) fun _ => protocolFailureOn_moves _
  · exact .pure ()
  · exact .bind (onOutput_moves _ _) fun _ => transportFact_moves _ _ _ _ (by decide)
  · exact .pure ()

/-! ### The authority of a safe output -/

/-- A safe write of the actuator is not owed again. -/
def Unrepeated (actuator : ActuatorId) (s : Runtime σ) : Prop :=
  ∀ authority, s.outputs.get actuator = some authority → authority.permission.Unrepeated

/-- The step does not owe the safe write of an actuator again. -/
def Spares (actuator : ActuatorId) (s s' : Runtime σ) : Prop := s.Unrepeated actuator → s'.Unrepeated actuator

variable {actuator : ActuatorId}

instance : Std.Refl (Spares (σ := σ) actuator) := ⟨fun _ h => h⟩

instance : IsTrans (Runtime σ) (Spares actuator) := ⟨fun _ _ _ h h' hs => h' (h hs)⟩

theorem Spares.of_eq (h : s'.outputs = s.outputs) : Spares actuator s s' :=
  fun hs authority ha => hs authority (h ▸ ha)

theorem attempt_spares {α : Type} (result : Except Error α) :
    Procedure.Moves (Spares actuator) (attempt result : Step σ α) := by
  cases result with
  | ok a => exact .pure a
  | error e => exact .stop _

theorem settle_spares {α : Type} {other : ActuatorId} {before : OutputAuthority} {o : Outcome α} {op : AuthorityOp}
    (now : ℕ) (hop : Permission.Settling op) (hget : s.outputs.get other = some before)
    (ho : o.2 = before.step ⟨op, now⟩) : Spares actuator s ((settle other o).run s).2 := by
  intro hs authority ha
  obtain ⟨result, after⟩ := o
  obtain rfl : after = before.step ⟨op, now⟩ := ho
  have hout : (s.outputs.insert other (before.step ⟨op, now⟩)).get actuator = some authority := by
    cases result <;> exact ha
  obtain ⟨rfl, rfl⟩ | hold := OrderedMap.get_insert_cases _ hout
  · exact OutputAuthority.Unrepeated.step hop (hs _ hget)
  · exact hs authority hold

theorem onOutput_spares {α : Type} (other : ActuatorId) {f : OutputAuthority → Outcome α} {op : AuthorityOp} (now : ℕ)
    (hop : Permission.Settling op) (hf : ∀ authority, (f authority).2 = authority.step ⟨op, now⟩) :
    Procedure.Moves (Spares actuator) (onOutput other f : Step σ α) := by
  intro s
  unfold onOutput
  rw [Procedure.run_get_bind]
  cases hget : s.outputs.get other with
  | none => exact refl_of (Spares actuator) s
  | some before => exact settle_spares now hop hget (hf before)

theorem protocolFailureOn_spares (resource : ResourceId) :
    Procedure.Moves (Spares actuator) (protocolFailureOn resource : Step σ Unit) := by
  refine .bind .get fun s => ?_
  cases s.resources.get resource with
  | none => exact .stop _
  | some r =>
    dsimp only
    rcases r.executor.protocolFailure with ⟨result, executor⟩
    refine .bind (.update fun s => .of_eq rfl) fun _ => ?_
    cases result with
    | ok _ => exact .pure ()
    | error error => exact .stop _

theorem failOutputReadback_spares (resource : ResourceId) (pending : PendingOutputReadback) (now : ℕ)
    (h : pending.intent.safe = true) :
    Procedure.Moves (Spares actuator) (failOutputReadback resource pending now : Step σ Unit) := by
  refine .bind .get fun s => ?_
  simp only [h, Bool.not_true, Bool.false_eq_true, if_false]
  split_ifs
  · refine .bind (onOutput_spares _ now (.readbackFailed pending.dispatch) fun authority => ?_) fun _ =>
      .bind (.update fun s => .of_eq rfl) fun _ => .pure ()
    simp [OutputAuthority.step, OutputAuthority.apply]
  · exact .pure ()

theorem queueReadback_spares (resource : ResourceId) (intent : OutputIntent) (dispatch : DispatchId)
    (pendingWrite : Option PendingOutputWrite) (now : ℕ) (h : intent.safe = true) :
    Procedure.Moves (Spares actuator) (queueReadback resource intent dispatch pendingWrite now : Step σ Unit) := by
  cases pendingWrite with
  | none => exact .stop _
  | some pendingWrite =>
    refine .bind .get fun s => .bind (attempt_spares _) fun plan => .bind .get fun s => ?_
    obtain ⟨request, expectedLength, protocol⟩ := plan
    cases durationAdd now pendingWrite.timeout with
    | none => exact .stop _
    | some deadline =>
      cases s.resources.get resource with
      | none => exact .stop _
      | some r =>
        dsimp only
        rcases r.executor.enqueueRead request expectedLength now deadline pendingWrite.timeout false
          intent.bindingGeneration intent.mappingRevision with ⟨result, executor⟩
        refine .bind (.update fun s => .of_eq rfl) fun _ => ?_
        cases result with
        | ok transaction => exact .update fun s => .of_eq rfl
        | error _ => exact failOutputReadback_spares _ _ _ h

theorem acknowledgeOutput_spares (resource : ResourceId) (intent : OutputIntent) (dispatch : DispatchId)
    (pendingWrite : Option PendingOutputWrite) (now : ℕ) (h : intent.safe = true) :
    Procedure.Moves (Spares actuator) (acknowledgeOutput resource intent dispatch pendingWrite now : Step σ Unit) := by
  intro s
  unfold acknowledgeOutput
  rw [Procedure.run_get_bind]
  cases hget : s.outputs.get intent.actuator with
  | none => exact refl_of (Spares actuator) s
  | some authority =>
    dsimp only
    cases authority.requiresReadback with
    | error e => exact refl_of (Spares actuator) s
    | ok requiresReadback =>
      rw [attempt, Procedure.run_pure_bind]
      refine Procedure.Moves.bind_from ?_ fun _ => .bind (.update fun s => .of_eq rfl) fun _ => ?_
      · cases requiresReadback with
        | true =>
          refine settle_spares now (.acknowledged dispatch) hget ?_
          simp [OutputAuthority.step, OutputAuthority.apply]
        | false =>
          refine settle_spares now (.completed dispatch .acknowledged) hget ?_
          simp [OutputAuthority.step, OutputAuthority.apply]
      · simp only [h, Bool.not_true, Bool.false_eq_true, if_false]
        split_ifs
        · exact queueReadback_spares _ _ _ _ _ h
        · exact .pure ()

theorem handleStartedOutput_spares (resource : ResourceId) (intent : OutputIntent) (dispatch : DispatchId)
    (pendingWrite : Option PendingOutputWrite) (record : TransactionRecord) (response : Option (List UInt8))
    (now : ℕ) (h : intent.safe = true) :
    Procedure.Moves (Spares actuator)
      (handleStartedOutput resource intent dispatch pendingWrite record response now : Step σ Unit) := by
  refine .bind .get fun s => ?_
  dsimp only
  split_ifs
  · exact acknowledgeOutput_spares _ _ _ _ _ h
  · refine .bind (onOutput_spares _ now (.uncertain dispatch) fun authority => ?_) fun _ =>
      .bind (.update fun s => .of_eq rfl) fun _ => .bind (.update fun s => .of_eq rfl) fun _ =>
        protocolFailureOn_spares _
    simp [OutputAuthority.step, OutputAuthority.apply]
  · exact .pure ()
  · refine .bind (onOutput_spares _ now (.completed dispatch .ambiguous) fun authority => ?_) fun _ =>
      .update fun s => .of_eq rfl
    simp [OutputAuthority.step, OutputAuthority.apply]
  · exact .pure ()

/-- A started output is recorded as started, whatever its end. -/
theorem handleOutputTerminal_moves (resource : ResourceId) (intent : OutputIntent) (dispatch : DispatchId)
    (record : TransactionRecord) (response : Option (List UInt8)) (now : ℕ) :
    Procedure.Moves Unrejected
      (handleOutputTerminal resource intent (some dispatch) record response now : Step σ Unit) :=
  .bind .get fun _ => .bind (.update fun _ => .of_eq rfl) fun _ => handleStartedOutput_moves _ _ _ _ _ _ _

theorem handleOutputTerminal_spares (resource : ResourceId) (intent : OutputIntent) (dispatch : DispatchId)
    (record : TransactionRecord) (response : Option (List UInt8)) (now : ℕ) (h : intent.safe = true) :
    Procedure.Moves (Spares actuator)
      (handleOutputTerminal resource intent (some dispatch) record response now : Step σ Unit) :=
  .bind .get fun _ => .bind (.update fun _ => .of_eq rfl) fun _ => handleStartedOutput_spares _ _ _ _ _ _ _ h

end Runtime

/-! ### Runs of an executor -/

namespace ResourceExecutor

variable {ω : Type} {B : Boundary ω}

/-- What a terminal event is worth: it is honest about the wire, and an owner that is told of a started
output records no rejection before the send and does not owe a safe write again. -/
structure Evidenced (wire : List WireEvent) (event : TransportEvent) : Prop where
  honest : Honest wire event
  recorded : ∀ intent dispatch record response, event = .outputTerminal intent dispatch record response →
    Carried wire record.id → ∀ {σ : Type} (s : Runtime σ) (resource : ResourceId) (now : ℕ),
      s.Unrejected ((Runtime.handleTransportEvent resource event now).run s).2 ∧
        (intent.safe = true → ∀ actuator, s.Spares actuator ((Runtime.handleTransportEvent resource event now).run s).2)

theorem Honest.evidenced {wire : List WireEvent} {event : TransportEvent} (h : Honest wire event) :
    Evidenced wire event := by
  refine ⟨h, ?_⟩
  rintro intent dispatch record response rfl hcarried σ s resource now
  obtain ⟨hstarted, hdispatch⟩ := h intent dispatch record response rfl
  obtain ⟨id, rfl⟩ := Option.isSome_iff_exists.1 (hdispatch.2 (hstarted.2 hcarried))
  exact ⟨Runtime.handleOutputTerminal_moves resource intent id record response now s, fun hsafe actuator =>
    Runtime.handleOutputTerminal_spares resource intent id record response now hsafe s⟩

/-- In every run in which the first accepted byte of an output is always recorded, every terminal event
that is taken or waits says exactly whether a byte of its output was accepted. -/
theorem send_evidence_honest {s : ResourceExecutor} (made : Made s) (w : ω) (ops : List ExecutorOp)
    (ok : ¬ History.Happens (Owner.step B) (fun o op => o.misreports B op = true) (Owner.start s w) ops) :
    ∀ event ∈ (Owner.run B s w ops).taken ++ (Owner.run B s w ops).executor.events,
      Evidenced (Owner.run B s w ops).wire event := fun event hevent =>
  ((run_truthful made.fresh w ops ok).truthful.events event hevent).evidenced

/-- An output whose answer is awaited for two seconds. -/
def heaterOutput : ExecutorOp :=
  .enqueueOutput [1, 2] 1 0 (fromSecs 2) (fromSecs 1)
    { actuator := { instrument := 1, parameter := 7 }, attemptId := none, instanceId := 1, lease := none, epoch := 1
      value := F64.ofInt 0, unit := .percent, expires := fromSecs 2, safe := true, bindingGeneration := 1
      mappingRevision := 1 }

theorem send_evidence_honest_heaterOutput :
    (¬ History.Happens (Owner.step scripted) (fun o op => o.misreports scripted op = true)
        (Owner.start newExecutor {}) [heaterOutput, .poll 1]) ∧
      ∀ event ∈ (Owner.run scripted newExecutor {} [heaterOutput, .poll 1]).taken ++
          (Owner.run scripted newExecutor {} [heaterOutput, .poll 1]).executor.events,
        Evidenced (Owner.run scripted newExecutor {} [heaterOutput, .poll 1]).wire event := by
  have ok : ¬ History.Happens (Owner.step scripted) (fun o op => o.misreports scripted op = true)
      (Owner.start newExecutor {}) [heaterOutput, .poll 1] := by decide
  exact ⟨ok, send_evidence_honest newExecutor_made _ _ ok⟩

/-- Both bytes are accepted, then the start is refused and the boundary recovers. -/
def refusedWire : Owner Script :=
  Owner.run scripted newExecutor { answers := [.ok none, .error ()] } [heaterOutput, .poll 1, .poll 2]

/-- The terminal event of an accepted request says that nothing was sent. -/
theorem refused_start_misreported : ¬ ∀ event ∈ refusedWire.taken ++ refusedWire.executor.events,
    Evidenced refusedWire.wire event := by
  intro h
  have hevent : refusedWire.taken ++ refusedWire.executor.events = [.outputTerminal _ none ⟨1, .failed, false, 2, 1, 1⟩ none] := rfl
  have hhonest := (h _ (hevent ▸ List.mem_singleton_self _)).honest _ _ _ _ rfl
  have hcarried : Carried refusedWire.wire 1 := by unfold Carried; decide
  exact absurd (hhonest.1.2 hcarried) (by decide)

end ResourceExecutor
end LabRuntime
