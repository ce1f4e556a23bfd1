import LabRuntime.Runtime.Moves
import LabRuntime.Transport.Asked

/-! The physical calls as moves: queueing, delivery evidence, polling, retirement and safety service. -/

namespace LabRuntime.Runtime

open Metakon
open Core (Inv Path Micro)

variable {σ : Type} {P : Premises} {s s' : Runtime σ} {k : ActuatorId} {a : OutputAuthority}

/-! ### Queueing an output -/

theorem enqueueOutputOn_same (resource : ResourceId) (request : List UInt8)
    (expectedResponse now deadline timeout : ℕ) (intent : OutputIntent) :
    Procedure.Moves SameCore (enqueueOutputOn resource request expectedResponse now deadline timeout intent : Step σ _) := by
  refine .bind .get fun s => ?_
  cases s.resources.get resource with
  | none => exact .pure _
  | some r => exact .bind (.update fun s => rfl) fun _ => .pure _

theorem abortTransport_keeps (k : ActuatorId) (intent : OutputIntent) :
    Procedure.Moves (Keeps P) (changeOutput k fun authority => authority.abortTransport intent : Step σ PUnit) :=
  changeOutput_keeps k (b := .abortTransport intent) 0 rfl fun _ => rfl

theorem reserve_keeps (queueDeadline generation revision now : ℕ) :
    Keeps P s (((onOutput k fun authority =>
      authority.reserveTransport now queueDeadline (s.outputAttempts.get k) generation revision : Step σ _)).run s).2 := by
  unfold onOutput
  rw [Procedure.run_get_bind]
  cases hget : s.outputs.get k with
  | none => exact refl_of (Keeps P) s
  | some a =>
    dsimp only
    rw [settle_snd]
    exact .micro rfl fun _ => .reserved hget

theorem queueMetakonOutput_keeps (k : ActuatorId) (now queueTtl timeout : ℕ) :
    Procedure.Moves (Keeps P) (queueMetakonOutput k now queueTtl timeout : Step σ ℕ) := by
  refine .bind (moves_keeps (checkTransportTime_same now)) fun _ => .bind .get fun s => ?_
  cases durationAdd now queueTtl with
  | none => exact .stop _
  | some deadline =>
    cases s.fence k.instrument with
    | none => exact .stop _
    | some fence =>
      intro s
      dsimp only
      rw [Procedure.run_get_bind]
      refine Procedure.Moves.bind_from (reserve_keeps _ _ _ _) fun intent => ?_
      cases s.prepareOutput k intent with
      | error error => exact .bind (abortTransport_keeps k intent) fun _ => .stop _
      | ok prepared =>
        refine .bind (moves_keeps (enqueueOutputOn_same _ _ _ _ _ _ _)) fun result => ?_
        cases result with
        | ok transaction => exact .bind (.update fun s => SameCore.keeps rfl) fun _ => .pure _
        | error error => exact .bind (abortTransport_keeps k intent) fun _ => .stop _

/-! ### Deliveries -/

/-- A delivery is the proposal of a sound controller update, or manual. -/
structure Delivers (k : ActuatorId) (proposal : OutputProposal) (calculation : Option Calculation) (now : ℕ) : Prop where
  computed : ∀ m, calculation = some m → m.Sound ∧ m.output = k ∧ m.lease = proposal.lease ∧
    proposal.value = .float m.update.output ∧ proposal.ttl = m.ttl ∧ m.time = now
  manual : calculation = none → proposal.lease.owner.isManual = true

/-- An accepted proposal is queued and requested. -/
theorem propose_ok {proposal : OutputProposal} {now : ℕ} {result : OutputResult}
    (h : (a.command (.propose proposal) now).1 = .ok result) :
    result = .queued ∧ ∃ q, (a.command (.propose proposal) now).2.pending = some q ∧
      (a.command (.propose proposal) now).2.snapshot.requested = some q.value := by
  unfold OutputAuthority.command OutputAuthority.propose at h ⊢
  dsimp only at h ⊢
  cases hc : a.checkLease proposal.lease now with
  | error e => simp [hc] at h
  | ok u =>
    simp only [hc] at h ⊢
    by_cases hu : (proposal.unit != a.unit) = true
    · simp [hu] at h
    simp only [hu] at h ⊢
    cases hp : a.profile with
    | error e => simp [hp] at h
    | ok p =>
      simp only [hp] at h ⊢
      cases hr : (ValueSpec.float p.min p.max).validate proposal.value with
      | error e => simp [hr] at h
      | ok u =>
        simp only [hr] at h ⊢
        by_cases ht : proposal.ttl = 0 ∨ proposal.ttl > p.maxProposalTtl
        · simp [ht] at h
        simp only [ht, if_false] at h ⊢
        cases hd : durationAdd now proposal.ttl with
        | none => simp [hd] at h
        | some deadline =>
          simp only [hd] at h ⊢
          by_cases hs : a.pending.isSome = true
          · simp [hs] at h
          simp only [hs] at h ⊢
          cases hv : proposal.value with
          | float v =>
            simp only [hv] at h ⊢
            exact ⟨(Except.ok.inj h).symm, _, rfl, rfl⟩
          | _ => simp [hv] at h

theorem proposeDelivery_keeps {proposal : OutputProposal} {calculation : Option Calculation} {now : ℕ}
    (h : Delivers k proposal calculation now) (hnative : P.native k → proposal.lease.owner.isManual = false)
    (virtualSimulation : Bool) : Procedure.Moves (Keeps P) (proposeDelivery k proposal calculation virtualSimulation now : Step σ Unit) := by
  intro s
  unfold proposeDelivery
  obtain ⟨e, s₁, hrun, heq⟩ | ⟨n, s₁, hrun, heq⟩ := Procedure.bind_cases allocateOutputAttempt _ s
  · rw [heq]
    have hkeeps := allocateOutputAttempt_keeps (P := P) s
    rwa [hrun] at hkeeps
  rw [heq]
  obtain ⟨rfl, rfl⟩ := allocateOutputAttempt_ok hrun
  clear hrun heq
  unfold onOutput
  rw [Procedure.run_bind, Procedure.run_get_bind]
  have hcount : Keeps P s { s with nextOutputAttempt := s.nextOutputAttempt + 1 } := .micro rfl fun _ => .counted
  cases hget : s.outputs.get k with
  | none => exact hcount
  | some a =>
    dsimp only
    rcases hcmd : a.command (.propose proposal) now with ⟨error | result, a'⟩
    · have hstep : a' = a.step ⟨.command (.propose proposal), now⟩ := (congrArg Prod.snd hcmd).symm
      have hcalled : Keeps P ({ s with nextOutputAttempt := s.nextOutputAttempt + 1 } : Runtime σ)
          { s with nextOutputAttempt := s.nextOutputAttempt + 1, outputs := s.outputs.insert k a' } :=
        .micro rfl fun _ => .called hget hstep (.inr (command_refused (congrArg Prod.fst hcmd)))
      exact trans_of (Keeps P) hcount hcalled
    · obtain ⟨rfl, q, -, hrequested⟩ := propose_ok (congrArg Prod.fst hcmd)
      rw [hcmd] at hrequested
      have hstep : a' = a.step ⟨.command (.propose proposal), now⟩ := (congrArg Prod.snd hcmd).symm
      -- the proposal, its number and what it was computed from are one move
      have hmove : ∀ a'' : OutputAuthority, P.Proposes k a a'' proposal now (s.nextOutputAttempt + 1) → Keeps P s { s with
          nextOutputAttempt := s.nextOutputAttempt + 1
          outputs := s.outputs.insert k a''
          outputAttempts := s.outputAttempts.insert k (s.nextOutputAttempt + 1)
          calculations := s.calculations ++ (calculation.map fun m => (s.nextOutputAttempt + 1, m)).toList } :=
        fun a'' ha'' => .micro rfl fun _ => .proposed hget ha'' (command_reply (congrArg Prod.fst hcmd))
          h.computed fun _ => h.manual
      have hfacts : ∀ (s : Runtime σ) (n : ℕ), Keeps P s (((do
          let s ← get
          let requested := (s.outputs.get k).bind fun authority => authority.snapshot.requested
          record fun facts => facts.outputCorrelated k .requested requested now .none (some n) none :
            Step σ Unit)).run s).2 := fun s n => SameCore.keeps rfl
      show Keeps P s (Procedure.run _ ({ s with
        nextOutputAttempt := s.nextOutputAttempt + 1, outputs := s.outputs.insert k a' } : Runtime σ)).2
      split_ifs with hmanual
      · rw [Procedure.run_get_bind]
        dsimp only
        rw [OrderedMap.get_insert_self]
        dsimp only
        obtain ⟨a'', htrack⟩ : ∃ a'', a'.trackManualAttempt (s.nextOutputAttempt + 1) virtualSimulation = some a'' :=
          ⟨_, by unfold OutputAuthority.trackManualAttempt; rw [hrequested]; rfl⟩
        rw [htrack]
        have hpath := hmove a'' (.inr ⟨fun hn => by simp [hnative hn] at hmanual, _, hstep ▸ htrack⟩)
        rw [← OrderedMap.insert_insert (a := a')] at hpath
        exact trans_of (Keeps P) hpath (hfacts _ _)
      · exact trans_of (Keeps P) (hmove a' (.inl hstep)) (hfacts _ _)

theorem deliverPhysical_evolves {proposal : OutputProposal} {calculation : Option Calculation} {now : ℕ}
    (h : Delivers k proposal calculation now) (hnative : P.native k → proposal.lease.owner.isManual = false) :
    Procedure.Moves (Evolves P) (deliverPhysical k proposal calculation now : Step σ Unit) := by
  refine .bind (moves_evolves (proposeDelivery_keeps h hnative false)) fun _ => .bind (requireRecordingOpen_evolves now) fun _ =>
    .bind .get fun s => ?_
  rcases s.outputTiming k.instrument with _ | ⟨_ | queueTtl, timeout⟩
  · exact .stop _
  · exact .stop _
  · cases timeout with
    | none => exact .stop _
    | some timeout =>
      exact moves_evolves (.bind (queueMetakonOutput_keeps k now queueTtl timeout) fun _ => .pure ())

/-! ### Measurements -/

theorem pushMetakonSample_same (id : InstrumentId) (sample : Sample) :
    Procedure.Moves SameCore (pushMetakonSample id sample : Step σ Unit) := by
  refine .bind .get fun s => ?_
  cases s.metakonInstruments.get id with
  | none => exact .stop _
  | some inst =>
    dsimp only
    cases inst.signals.get sample.signal with
    | none => exact .stop _
    | some buffer =>
      dsimp only
      cases buffer.push sample with
      | error error => exact .stop _
      | ok buffer => exact .update fun s => rfl

theorem pushSimpleSample_same (id : InstrumentId) (sample : Sample) :
    Procedure.Moves SameCore (pushSimpleSample id sample : Step σ Unit) := by
  refine .bind .get fun s => ?_
  cases s.simpleDeviceInstruments.get id with
  | none => exact .stop _
  | some inst =>
    dsimp only
    cases inst.signals.get sample.signal with
    | none => exact .stop _
    | some buffer =>
      dsimp only
      cases buffer.push sample with
      | error error => exact .stop _
      | ok buffer => exact .update fun s => rfl

theorem metakonParameter_same (id : InstrumentId) (parameter : ParameterId) :
    Procedure.Moves SameCore (metakonParameter id parameter : Step σ ParameterDescriptor) := by
  refine .bind .get fun s => ?_
  cases s.metakonInstruments.get id with
  | none => exact .stop _
  | some inst =>
    dsimp only
    cases inst.descriptor.parameter parameter with
    | none => exact .stop _
    | some descriptor => exact .pure _

theorem simpleParameter_same (id : InstrumentId) (parameter : ParameterId) :
    Procedure.Moves SameCore (simpleParameter id parameter : Step σ ParameterDescriptor) := by
  refine .bind .get fun s => ?_
  cases s.simpleDeviceInstruments.get id with
  | none => exact .stop _
  | some inst =>
    dsimp only
    cases inst.descriptor.parameter parameter with
    | none => exact .stop _
    | some descriptor => exact .pure _

theorem applyMetakonValue_same (pending : PendingRead) (value : MetakonValue) (now : ℕ) :
    Procedure.Moves SameCore (applyMetakonValue pending value now : Step σ Unit) := by
  refine .bind (metakonParameter_same _ _) fun descriptor => ?_
  cases descriptor.signal with
  | none => exact .pure ()
  | some signal =>
    dsimp only
    rcases metakonReading pending value with error | _ | (value | reason)
    · exact .stop _
    · exact .pure ()
    · exact .bind (attempt_keeps _) fun _ => pushMetakonSample_same _ _
    · exact pushMetakonSample_same _ _

theorem pushTransportFailure_same (pending : PendingRead) (now : ℕ) :
    Procedure.Moves SameCore (pushTransportFailure pending now : Step σ Unit) := by
  refine .bind (metakonParameter_same _ _) fun descriptor => ?_
  cases descriptor.signal with
  | none => exact .pure ()
  | some signal => exact pushMetakonSample_same _ _

theorem applySimpleValue_same (pending : PendingSimpleRead) (value : Value) (now : ℕ) :
    Procedure.Moves SameCore (applySimpleValue pending value now : Step σ Unit) := by
  refine .bind (simpleParameter_same _ _) fun descriptor => .bind (attempt_keeps _) fun _ => ?_
  cases descriptor.signal with
  | none => exact .stop _
  | some signal => exact pushSimpleSample_same _ _

theorem pushSimpleTransportFailure_same (pending : PendingSimpleRead) (now : ℕ) :
    Procedure.Moves SameCore (pushSimpleTransportFailure pending now : Step σ Unit) := by
  refine .bind (simpleParameter_same _ _) fun descriptor => ?_
  cases descriptor.signal with
  | none => exact .stop _
  | some signal => exact pushSimpleSample_same _ _

theorem recordPendingSampleAt_same (pending : PendingRead) (now : ℕ) :
    Procedure.Moves SameCore (recordPendingSampleAt pending now : Step σ Unit) := by
  refine .bind .get fun s => ?_
  cases s.metakonInstruments.get pending.instrument with
  | none => exact .pure ()
  | some inst => exact record_same _

theorem recordPendingSimpleSampleAt_same (pending : PendingSimpleRead) (now : ℕ) :
    Procedure.Moves SameCore (recordPendingSimpleSampleAt pending now : Step σ Unit) := by
  refine .bind .get fun s => ?_
  cases s.simpleDeviceInstruments.get pending.instrument with
  | none => exact .pure ()
  | some inst => exact record_same _

theorem protocolFailureOn_same (resource : ResourceId) :
    Procedure.Moves SameCore (protocolFailureOn resource : Step σ Unit) := by
  refine .bind .get fun s => ?_
  cases s.resources.get resource with
  | none => exact .stop _
  | some r =>
    dsimp only
    rcases r.executor.protocolFailure with ⟨result, executor⟩
    refine .bind (.update fun s => rfl) fun _ => ?_
    cases result with
    | ok _ => exact .pure ()
    | error error => exact .stop _

theorem handleReadUnavailable_same (key : TransactionKey) (bindingGeneration mappingRevision now : ℕ) :
    Procedure.Moves SameCore (handleReadUnavailable key bindingGeneration mappingRevision now : Step σ Unit) := by
  refine .bind .get fun s => ?_
  dsimp only
  cases s.pendingReads.get key with
  | some pending =>
    dsimp only
    split_ifs
    · exact .bind (pushTransportFailure_same _ _) fun _ => .bind (recordPendingSampleAt_same _ _) fun _ =>
        .update fun s => rfl
    · exact .pure ()
  | none =>
    dsimp only
    cases s.pendingSimpleReads.get key with
    | some pending =>
      dsimp only
      split_ifs
      · exact .bind (pushSimpleTransportFailure_same _ _) fun _ => .bind (recordPendingSimpleSampleAt_same _ _) fun _ =>
          .update fun s => rfl
      · exact .pure ()
    | none => exact .pure ()

theorem handleSimpleRead_same (key : TransactionKey) (pending : PendingSimpleRead) (record : TransactionRecord)
    (response : Option (List UInt8)) (now : ℕ) :
    Procedure.Moves SameCore (handleSimpleRead key pending record response now : Step σ Unit) := by
  have hrecord := recordPendingSimpleSampleAt_same (σ := σ) pending now
  refine .bind .get fun s => ?_
  cases s.simpleDeviceInstruments.get pending.instrument with
  | none => exact .pure ()
  | some inst =>
    dsimp only
    split_ifs
    · exact .pure ()
    · cases response.bind fun bytes => (inst.descriptor.parameter pending.parameter).bind fun descriptor =>
          pending.response.decode bytes descriptor with
      | some value => exact .bind (applySimpleValue_same _ _ _) fun _ => hrecord
      | none =>
        exact .bind (pushSimpleTransportFailure_same _ _) fun _ => .bind (protocolFailureOn_same _) fun _ => hrecord
    · exact .bind (pushSimpleTransportFailure_same _ _) fun _ => hrecord
    · exact hrecord

theorem handleMetakonRead_same (key : TransactionKey) (pending : PendingRead) (record : TransactionRecord)
    (response : Option (List UInt8)) (now : ℕ) :
    Procedure.Moves SameCore (handleMetakonRead key pending record response now : Step σ Unit) := by
  have hrecord := recordPendingSampleAt_same (σ := σ) pending now
  refine .bind .get fun s => ?_
  cases s.metakonInstruments.get pending.instrument with
  | none => exact .pure ()
  | some inst =>
    dsimp only
    by_cases hfence : inst.binding.fence ≠ pending.fence key.resource
    · rw [if_pos hfence]
      exact .pure ()
    rw [if_neg hfence]
    by_cases hdone : record.outcome = .completed
    · rw [if_pos hdone]
      have hbad : Procedure.Moves SameCore (do
          pushTransportFailure pending now
          protocolFailureOn key.resource
          recordPendingSampleAt pending now : Step σ Unit) :=
        .bind (pushTransportFailure_same _ _) fun _ => .bind (protocolFailureOn_same _) fun _ => hrecord
      cases response with
      | none => exact hbad
      | some bytes =>
        dsimp only
        cases decodeRead bytes pending.expected with
        | ok value => exact .bind (applyMetakonValue_same _ _ _) fun _ => hrecord
        | error e => exact hbad
    rw [if_neg hdone]
    split_ifs
    · exact .bind (pushTransportFailure_same _ _) fun _ => hrecord
    · exact hrecord

/-! ### The controller of a delivery -/

/-- A controller that was out of the registry meanwhile may be put back: its lease stayed its own. -/
theorem Keeps.store {s₁ : Runtime σ} {id : ControllerId} {x y : NativeController} (h : Keeps P s s₁)
    (hx : Inv P s.core → x.config.id = id ∧ s.core.Owned x ∧ (y.state.live = true → ¬ s.requiredRecording.Tripped))
    (hconfig : y.config = x.config)
    (hlease : ∀ l', y.lease = some l' → ∃ l e, x.lease = some l ∧ l' = { l with expires := e }) :
    Keeps P s { s₁ with controllers := s₁.controllers.insert id y } := by
  refine ⟨h.1, fun hinv => ?_⟩
  obtain ⟨hid, howned, hlive⟩ := hx hinv
  have hpath := h.2 hinv
  have hgate : s₁.core.gate = s.requiredRecording := h.1
  refine hpath.tail (.stored (by rw [hconfig]; exact hid) ((hpath.owned howned).relet hconfig hlease) fun hl => ?_)
  rw [hgate]
  exact hlive hl

theorem runningController_get {id : ControllerId} {x : NativeController} (h : s.runningController k = some (id, x)) :
    s.controllers.get id = some x ∧ x.state = .running ∧ x.config.output = k ∧ x.lease.isSome = true := by
  have hmem := (OrderedMap.mem_entries _).1 (List.mem_of_find?_eq_some h)
  have htest := List.find?_some h
  simp only [Bool.and_eq_true, beq_iff_eq] at htest
  exact ⟨hmem, htest.1.1, htest.1.2, htest.2⟩

theorem renewNative_keeps (hget : s.outputs.get k = some a) (l : OutputLease) (lifetime now : ℕ) :
    Keeps P s { s with outputs := s.outputs.insert k (a.renewNative l lifetime now).2 } :=
  .micro rfl fun _ => .called hget (rfl : _ = a.step ⟨.renewNative l lifetime, now⟩) (.inl rfl)

/-- A renewal after a delivery is of the lease of the controller. -/
theorem renewAfterDelivery_keeps (k : ActuatorId) (x : NativeController) (isMatch : Bool) (now : ℕ) (s : Runtime σ) :
    Keeps P s ((renewAfterDelivery k x isMatch now).run s).2 ∧
      ∀ l' s₁, (renewAfterDelivery k x isMatch now).run s = (.ok (some l'), s₁) →
        ∃ l e, x.lease = some l ∧ l' = { l with expires := e } := by
  unfold renewAfterDelivery
  cases isMatch with
  | false => exact ⟨refl_of (Keeps P) s, fun l' s₁ h => by cases h⟩
  | true =>
    rw [if_pos rfl, Procedure.run_get_bind]
    cases hlease : x.lease with
    | none => exact ⟨refl_of (Keeps P) s, fun l' s₁ h => by cases h⟩
    | some lease =>
      cases hget : s.outputs.get k with
      | none => exact ⟨refl_of (Keeps P) s, fun l' s₁ h => by cases h⟩
      | some a =>
        refine ⟨renewNative_keeps hget lease x.config.leaseLifetime now, fun l' s₁ h =>
          ⟨lease, now + x.config.leaseLifetime, rfl, ?_⟩⟩
        have hrun : Except.ok (a.renewNative lease x.config.leaseLifetime now).1.toOption = Except.ok (some l') :=
          (Prod.mk.inj h).1
        cases hres : (a.renewNative lease x.config.leaseLifetime now).1 with
        | error e =>
          rw [hres] at hrun
          cases hrun
        | ok renewed =>
          rw [hres] at hrun
          obtain rfl : renewed = l' := Option.some.inj (Except.ok.inj hrun)
          exact OutputAuthority.renewNative_ok hres

/-- Whatever the delivery did, its controller is put back with its own lease or without one. -/
theorem concludeDelivery_keeps {s₁ : Runtime σ} {id : ControllerId} {x : NativeController} {renewal : Option OutputLease}
    (now : ℕ) (h : Keeps P s s₁)
    (hx : Inv P s.core → x.config.id = id ∧ s.core.Owned x ∧ (x.state.live = true → ¬ s.requiredRecording.Tripped))
    (hrenewal : ∀ l', renewal = some l' → ∃ l e, x.lease = some l ∧ l' = { l with expires := e }) :
    Keeps P s ((concludeDelivery id x renewal now).run s₁).2 := by
  unfold concludeDelivery
  cases renewal with
  | some replacement =>
    exact Keeps.store (y := { x with lease := some replacement, latestOutput := x.pidLatest }) h hx rfl
      fun l' hl' => Option.some.inj hl' ▸ hrenewal replacement rfl
  | none =>
    dsimp only
    have hfail := failController_keeps (P := P) x now s₁
    obtain ⟨e, s₂, hrun, heq⟩ | ⟨u, s₂, hrun, heq⟩ := Procedure.bind_cases (failController x now) _ s₁
    · rw [hrun] at hfail
      rw [heq]
      exact trans_of (Keeps P) h hfail
    · rw [hrun] at hfail
      rw [heq]
      have hfact : Keeps P s₂ { s₂ with
          recordingFacts := s₂.recordingFacts.controller id .failed x.configRevision none now } := SameCore.keeps rfl
      refine Keeps.store (x := x) (y := x.fail) (trans_of (Keeps P) h (trans_of (Keeps P) hfail hfact)) (fun hinv => ?_) rfl
        fun l' hl' => by cases hl'
      exact ⟨(hx hinv).1, (hx hinv).2.1, fun hlive => by cases hlive⟩

theorem settleControllerAfterPhysicalReadback_keeps (k : ActuatorId) (isMatch : Bool) (now : ℕ) :
    Procedure.Moves (Keeps P) (settleControllerAfterPhysicalReadback k isMatch now : Step σ Unit) := by
  intro s
  unfold settleControllerAfterPhysicalReadback
  rw [Procedure.run_get_bind]
  cases hrunning : s.runningController k with
  | none => exact refl_of (Keeps P) s
  | some found =>
    obtain ⟨id, x⟩ := found
    obtain ⟨hget, hstate, -, -⟩ := runningController_get hrunning
    have hx : Inv P s.core →
        x.config.id = id ∧ s.core.Owned x ∧ (x.state.live = true → ¬ s.requiredRecording.Tripped) := by
      intro hinv
      refine ⟨(hinv.owned id x hget).1, (hinv.owned id x hget).2, fun hlive htrip => ?_⟩
      have hdead := (hinv.tripped htrip).2 id x hget
      cases hlive.symm.trans hdead
    dsimp only
    rw [Procedure.run_modify_bind]
    have hdrop : Keeps P s { s with controllers := s.controllers.remove id } := .micro rfl fun _ => .dropped
    obtain ⟨hrenew, howned⟩ := renewAfterDelivery_keeps (P := P) k x isMatch now
      { s with controllers := s.controllers.remove id }
    obtain ⟨e, s₁, hrun, heq⟩ | ⟨renewal, s₁, hrun, heq⟩ := Procedure.bind_cases (renewAfterDelivery k x isMatch now)
      (fun renewal => concludeDelivery id x renewal now) { s with controllers := s.controllers.remove id }
    · rw [hrun] at hrenew
      rw [heq]
      exact trans_of (Keeps P) hdrop hrenew
    · rw [hrun] at hrenew
      rw [heq]
      refine concludeDelivery_keeps now (trans_of (Keeps P) hdrop hrenew) hx fun l' hl' => ?_
      subst hl'
      exact howned l' s₁ hrun

/-! ### Transport events -/

theorem transportFact_keeps (intent : OutputIntent) (resource : ResourceId) (stage : OutputStage) (now : ℕ)
    (dispatch : Option DispatchId) : Procedure.Moves (Keeps P) (transportFact intent resource stage now dispatch : Step σ PUnit) :=
  moves_keeps (record_same _)

theorem failOutputReadback_keeps (resource : ResourceId) (pending : PendingOutputReadback) (now : ℕ) :
    Procedure.Moves (Keeps P) (failOutputReadback resource pending now : Step σ Unit) := by
  have hrest : Procedure.Moves (Keeps P)
      (if !pending.intent.safe then settleControllerAfterPhysicalReadback pending.intent.actuator false now
        else pure () : Step σ Unit) := by
    split_ifs
    · exact settleControllerAfterPhysicalReadback_keeps _ _ _
    · exact .pure ()
  refine .bind .get fun s => ?_
  dsimp only
  by_cases hknown : s.outputs.contains pending.intent.actuator = true
  · rw [if_pos hknown]
    exact .bind (onOutput_keeps _ (b := .failTransportReadback pending.dispatch) now rfl fun _ => rfl) fun _ =>
      .bind (transportFact_keeps _ _ _ _ _) fun _ => hrest
  · rw [if_neg hknown]
    exact hrest

theorem handleOutputReadback_keeps (resource : ResourceId) (pending : PendingOutputReadback) (record : TransactionRecord)
    (response : Option (List UInt8)) (now : ℕ) :
    Procedure.Moves (Keeps P) (handleOutputReadback resource pending record response now : Step σ Unit) := by
  refine .bind .get fun s => ?_
  dsimp only
  by_cases hfence : s.fence pending.intent.actuator.instrument ≠ some (pending.intent.fence resource)
  · rw [if_pos hfence]
    exact .pure ()
  rw [if_neg hfence]
  by_cases hdone : record.outcome ≠ .completed
  · rw [if_pos hdone]
    exact failOutputReadback_keeps _ _ _
  rw [if_neg hdone]
  cases s.decodeReadback pending response with
  | none => exact .bind (failOutputReadback_keeps _ _ _) fun _ => moves_keeps (protocolFailureOn_same _)
  | some decoded =>
    obtain ⟨reported, exactMatch⟩ := decoded
    have hrest : ∀ matched : Bool, Procedure.Moves (Keeps P)
        (if !pending.intent.safe then settleControllerAfterPhysicalReadback pending.intent.actuator matched now
          else pure () : Step σ Unit) := by
      intro matched
      split_ifs
      · exact settleControllerAfterPhysicalReadback_keeps _ _ _
      · exact .pure ()
    dsimp only
    cases pending.protocol with
    | metakon expected scale =>
      refine .bind (onOutput_keeps _ (b := .completeTransportReadback pending.dispatch reported) now rfl fun _ => rfl)
        fun matched => .bind (moves_keeps (record_same _)) fun _ => hrest matched
    | simple plan expectedRaw =>
      refine .bind (onOutput_keeps _ (b := .completeTransportReadbackExact pending.dispatch reported exactMatch) now rfl
        fun _ => rfl) fun matched => .bind (moves_keeps (record_same _)) fun _ => hrest matched

theorem handleReadFenced_keeps (key : TransactionKey) (now : ℕ) :
    Procedure.Moves (Keeps P) (handleReadFenced key now : Step σ Unit) := by
  refine .bind (.update fun s => SameCore.keeps rfl) fun _ => .bind .get fun s => ?_
  cases s.pendingOutputReadbacks.get key with
  | none => exact .pure ()
  | some pending => exact .bind (.update fun s => SameCore.keeps rfl) fun _ => failOutputReadback_keeps _ _ _

theorem handleReadTerminal_keeps (resource : ResourceId) (record : TransactionRecord) (response : Option (List UInt8))
    (now : ℕ) : Procedure.Moves (Keeps P) (handleReadTerminal resource record response now : Step σ Unit) := by
  refine .bind .get fun s => ?_
  cases s.pendingOutputReadbacks.get { resource := resource, transaction := record.id } with
  | some pending =>
    exact .bind (.update fun s => SameCore.keeps rfl) fun _ => handleOutputReadback_keeps _ _ _ _ _
  | none =>
    dsimp only
    cases s.pendingSimpleReads.get { resource := resource, transaction := record.id } with
    | some pending =>
      exact .bind (.update fun s => SameCore.keeps rfl) fun _ => moves_keeps (handleSimpleRead_same _ _ _ _ _)
    | none =>
      dsimp only
      cases s.pendingReads.get { resource := resource, transaction := record.id } with
      | some pending =>
        exact .bind (.update fun s => SameCore.keeps rfl) fun _ => moves_keeps (handleMetakonRead_same _ _ _ _ _)
      | none => exact .pure ()

theorem handleOutputUncertain_keeps (resource : ResourceId) (id : ℕ) (intent : OutputIntent) (dispatch : DispatchId)
    (now : ℕ) : Procedure.Moves (Keeps P) (handleOutputUncertain resource id intent dispatch now : Step σ Unit) := by
  refine .bind (.update fun s => SameCore.keeps rfl) fun _ => .bind .get fun s => ?_
  split_ifs
  · exact .bind (onOutput_keeps _ (b := .transportUncertain dispatch) now rfl fun _ => rfl) fun _ =>
      transportFact_keeps _ _ _ _ _
  · exact .pure ()

theorem queueReadback_keeps (resource : ResourceId) (intent : OutputIntent) (dispatch : DispatchId)
    (pendingWrite : Option PendingOutputWrite) (now : ℕ) :
    Procedure.Moves (Keeps P) (queueReadback resource intent dispatch pendingWrite now : Step σ Unit) := by
  unfold queueReadback
  cases pendingWrite with
  | none => exact .stop _
  | some pendingWrite =>
    refine .bind .get fun s => .bind (attempt_keeps _) fun prepared => .bind .get fun s => ?_
    obtain ⟨request, expectedLength, protocol⟩ := prepared
    dsimp only
    cases durationAdd now pendingWrite.timeout with
    | none => exact .stop _
    | some deadline =>
      cases s.resources.get resource with
      | none => exact .stop _
      | some r =>
        dsimp only
        rcases r.executor.enqueueRead request expectedLength now deadline pendingWrite.timeout false
          intent.bindingGeneration intent.mappingRevision with ⟨result, executor⟩
        refine .bind (.update fun s => SameCore.keeps rfl) fun _ => ?_
        cases result with
        | ok transaction => exact .update fun s => SameCore.keeps rfl
        | error error => exact failOutputReadback_keeps _ _ _

/-- Settle a known authority by a call that neither leases, queues nor sends, and go on. -/
theorem settle_bind_keeps {α β : Type} {o : Outcome α} {b : AuthorityOp} {now : ℕ} {f : α → Step σ β}
    (hget : s.outputs.get k = some a) (hop : b.plain = true) (ho : o.2 = a.step ⟨b, now⟩)
    (hf : ∀ value, Procedure.Moves (Keeps P) (f value)) : Keeps P s ((settle k o >>= f).run s).2 :=
  Procedure.Moves.bind_from (settle_keeps hget ho (.inl hop)) hf

theorem acknowledgeOutput_keeps (resource : ResourceId) (intent : OutputIntent) (dispatch : DispatchId)
    (pendingWrite : Option PendingOutputWrite) (now : ℕ) :
    Procedure.Moves (Keeps P) (acknowledgeOutput resource intent dispatch pendingWrite now : Step σ Unit) := by
  intro s
  unfold acknowledgeOutput
  rw [Procedure.run_get_bind]
  cases hget : s.outputs.get intent.actuator with
  | none => exact refl_of (Keeps P) s
  | some a =>
    dsimp only
    cases a.requiresReadback with
    | error e => exact refl_of (Keeps P) s
    | ok requiresReadback =>
      cases requiresReadback with
      | true =>
        exact settle_bind_keeps hget (b := .acknowledgeTransport dispatch) rfl rfl fun _ =>
          .bind (transportFact_keeps _ _ _ _ _) fun _ => queueReadback_keeps _ _ _ _ _
      | false =>
        refine settle_bind_keeps hget (b := .completeTransport dispatch .acknowledged) rfl rfl fun _ =>
          .bind (transportFact_keeps _ _ _ _ _) fun _ => ?_
        rw [if_neg Bool.false_ne_true]
        split_ifs
        · exact settleControllerAfterPhysicalReadback_keeps _ _ _
        · exact .pure ()

theorem handleStartedOutput_keeps (resource : ResourceId) (intent : OutputIntent) (dispatch : DispatchId)
    (pendingWrite : Option PendingOutputWrite) (record : TransactionRecord) (response : Option (List UInt8)) (now : ℕ) :
    Procedure.Moves (Keeps P) (handleStartedOutput resource intent dispatch pendingWrite record response now : Step σ Unit) := by
  refine .bind .get fun s => ?_
  dsimp only
  split_ifs
  · exact acknowledgeOutput_keeps _ _ _ _ _
  · exact .bind (onOutput_keeps _ (b := .transportUncertain dispatch) now rfl fun _ => rfl) fun _ =>
      .bind (transportFact_keeps _ _ _ _ _) fun _ => .bind (.update fun s => SameCore.keeps rfl) fun _ =>
        moves_keeps (protocolFailureOn_same _)
  · exact .pure ()
  · exact .bind (onOutput_keeps _ (b := .completeTransport dispatch .ambiguous) now rfl fun _ => rfl) fun _ =>
      transportFact_keeps _ _ _ _ _
  · exact .pure ()

theorem handleOutputTerminal_keeps (resource : ResourceId) (intent : OutputIntent) (dispatch : Option DispatchId)
    (record : TransactionRecord) (response : Option (List UInt8)) (now : ℕ) :
    Procedure.Moves (Keeps P) (handleOutputTerminal resource intent dispatch record response now : Step σ Unit) := by
  refine .bind .get fun s => .bind (.update fun s => SameCore.keeps rfl) fun _ => ?_
  cases dispatch with
  | none =>
    exact .bind (changeOutput_keeps _ (b := .failTransportBeforeSend intent) 0 rfl fun _ => rfl) fun _ =>
      transportFact_keeps _ _ _ _ _
  | some dispatch => exact handleStartedOutput_keeps _ _ _ _ _ _ _

theorem handleBoundaryRecovered_keeps (resource : ResourceId) (now : ℕ) :
    Procedure.Moves (Keeps P) (handleBoundaryRecovered resource now : Step σ Unit) := by
  refine .bind .get fun s => ?_
  cases s.unsettledOutputs.get resource with
  | none => exact .pure ()
  | some unsettled =>
    obtain ⟨intent, dispatch⟩ := unsettled
    refine .bind (.update fun s => SameCore.keeps rfl) fun _ => .bind .get fun s => ?_
    split_ifs
    · exact .bind (onOutput_keeps _ (b := .completeTransport dispatch .ambiguous) now rfl fun _ => rfl) fun _ =>
        transportFact_keeps _ _ _ _ _
    · exact .pure ()

theorem handleTransportEvent_keeps (resource : ResourceId) (event : TransportEvent) (now : ℕ) :
    Procedure.Moves (Keeps P) (handleTransportEvent resource event now : Step σ Unit) := by
  cases event with
  | readUnavailable => exact moves_keeps (handleReadUnavailable_same _ _ _ _)
  | readFenced => exact handleReadFenced_keeps _ _
  | readTerminal => exact handleReadTerminal_keeps _ _ _ _
  | outputUncertain => exact handleOutputUncertain_keeps _ _ _ _ _
  | outputTerminal => exact handleOutputTerminal_keeps _ _ _ _ _ _
  | boundaryRecovered => exact handleBoundaryRecovered_keeps _ _
  | boundaryFailed => exact .pure ()

/-! ### Polling and retirement -/

/-- Validating an intent leaves the permit alone. -/
theorem authorizer_validate (resource : ResourceId) (now : ℕ) (permit : Permit) (intent : OutputIntent) :
    (s.authorizer resource now permit intent .validate).2 = permit := by
  unfold authorizer authorizeStep
  dsimp only
  by_cases hclosed : (!intent.safe && !(!s.requiredRecording.enabled || s.requiredRecording.isOpen)) = true
  · rw [if_pos hclosed]
  rw [if_neg hclosed]
  by_cases hfence : s.fence intent.actuator.instrument ≠ some (intent.fence resource)
  · rw [if_pos hfence]
  rw [if_neg hfence]
  cases permit.outputs.get intent.actuator with
  | none => rfl
  | some a =>
    dsimp only
    cases a.validateTransport intent now <;> rfl

theorem beginTransport_reply {intent : OutputIntent} {now : ℕ} {id : DispatchId}
    (h : (a.beginTransport intent now).1 = .ok id) : (a.apply ⟨.beginTransport intent, now⟩).1 = .ok (.dispatched id) := by
  simp [OutputAuthority.apply, OutputAuthority.reply, h, Except.map]

theorem beginTransport_refused {intent : OutputIntent} {now : ℕ} {error : Error}
    (h : (a.beginTransport intent now).1 = .error error) : (a.apply ⟨.beginTransport intent, now⟩).1.toOption = none := by
  simp [OutputAuthority.apply, OutputAuthority.reply, h, Except.map, Except.toOption]

/-- The permit of a poll, put back. -/
def withPermit (s : Runtime σ) (permit : Permit) : Runtime σ :=
  { s with outputs := permit.outputs, recordingFacts := permit.facts, sends := permit.sends }

/-- A start that the authorizer was asked for is one move of the owner. -/
theorem authorizer_started (resource : ResourceId) (now : ℕ) (intent : OutputIntent)
    (hpass : (s.requiredRecording.enabled = true → s.requiredRecording.isOpen = true) → s.Passes now) :
    Path P s.core (s.withPermit (s.authorizer resource now
      { outputs := s.outputs, facts := s.recordingFacts, sends := s.sends } intent .started).2).core := by
  unfold authorizer authorizeStep
  dsimp only
  by_cases hclosed : (!intent.safe && !(!s.requiredRecording.enabled || s.requiredRecording.isOpen)) = true
  · rw [if_pos hclosed]
    exact .refl
  rw [if_neg hclosed]
  by_cases hfence : s.fence intent.actuator.instrument ≠ some (intent.fence resource)
  · rw [if_pos hfence]
    exact .refl
  rw [if_neg hfence]
  cases hget : s.outputs.get intent.actuator with
  | none => exact .refl
  | some a =>
    dsimp only
    rcases hbegin : a.beginTransport intent now with ⟨error | id, a'⟩
    · have hstep : a' = a.step ⟨.beginTransport intent, now⟩ := (congrArg Prod.snd hbegin).symm
      exact .single (.called hget hstep (.inr (beginTransport_refused (congrArg Prod.fst hbegin))))
    · have hstep : a' = a.step ⟨.beginTransport intent, now⟩ := (congrArg Prod.snd hbegin).symm
      have hpasses : intent.safe = false → s.Passes now := fun hsafe => hpass fun henabled => by
        simpa [hsafe, henabled] using hclosed
      subst hstep
      exact .single (.sent hget rfl (beginTransport_reply (congrArg Prod.fst hbegin)) (fun hsafe => (hpasses hsafe).1)
        fun hsafe => (hpasses hsafe).2)

theorem pollExecutor_evolves (A : ByteTransport σ) (resource : ResourceId) (now : ℕ) :
    Procedure.Moves (Evolves P) (pollExecutor A resource now : Step σ _) := by
  intro s hinv
  unfold pollExecutor
  rw [Procedure.run_modify_bind, Procedure.run_get_bind]
  refine (serviceRequiredRecordingDeadline_evolves s now hinv).trans ?_
  have hpass := serviced_passes hinv now
  generalize s.serviceRequiredRecordingDeadline now = s₁ at hpass
  cases s₁.resources.get resource with
  | none => exact .refl
  | some r =>
    have hasked := ResourceExecutor.pollAuthorized_asked (A := A)
      (fun permit intent => authorizer_validate (s := s₁) resource now permit intent) r.executor
      (r.adapter, { outputs := s₁.outputs, facts := s₁.recordingFacts, sends := s₁.sends }) now
    dsimp only
    rcases hpoll : r.executor.pollAuthorized (A.boundary (s₁.authorizer resource now))
      (r.adapter, { outputs := s₁.outputs, facts := s₁.recordingFacts, sends := s₁.sends }) now with
        ⟨⟨result, executor⟩, adapter, permit⟩
    rw [hpoll] at hasked
    have hpath : Path P s₁.core (s₁.withPermit permit).core := by
      cases hasked with
      | silent => exact .refl
      | started intent => exact authorizer_started resource now intent hpass
    cases result <;> exact hpath

theorem openPoll_evolves (now : ℕ) : Procedure.Moves (Evolves P) (openPoll now : Step σ _) := by
  refine .bind (.update fun s => serviceRequiredRecordingDeadline_evolves s now) fun _ =>
    .bind (moves_evolves (moves_keeps (checkTransportTime_same now))) fun _ =>
      .bind (moves_evolves (checkOutputTime_keeps now)) fun _ => .update fun s => ?_
  exact SameCore.evolves (foldl_sync_core _ _)

theorem pollTransports_evolves (A : ByteTransport σ) (now : ℕ) :
    Procedure.Moves (Evolves P) (pollTransports A now : Step σ Unit) := by
  refine .bind (openPoll_evolves now) fun _ => .bind .get fun s => .forEach fun resource _ =>
    .bind (pollExecutor_evolves A resource now) fun event => ?_
  cases event with
  | none => exact .pure ()
  | some event => exact moves_evolves (handleTransportEvent_keeps _ _ _)

theorem retireResource_same (A : ByteTransport σ) (resource : ResourceId) (now : ℕ) :
    Procedure.Moves SameCore (retireResource A resource now : Step σ _) := by
  refine .bind (checkTransportTime_same now) fun _ => .bind .get fun s => ?_
  cases s.resources.get resource with
  | none => exact .stop _
  | some r => exact .bind (.update fun s => rfl) fun _ => .pure _

theorem shutdownTransport_keeps (A : ByteTransport σ) (resource : ResourceId) (now : ℕ) :
    Procedure.Moves (Keeps P) (shutdownTransport A resource now : Step σ _) := by
  refine .bind (moves_keeps (retireResource_same A resource now)) fun retired => ?_
  exact .bind (.forEach fun event _ => handleTransportEvent_keeps resource event now) fun _ => .pure _

/-! ### Safety service -/

/-- A controller of the registry holds its own lease, and lives under no failed gate. -/
theorem registered {id : ControllerId} {x : NativeController} (hget : s.controllers.get id = some x) (hinv : Inv P s.core) :
    x.config.id = id ∧ s.core.Owned x ∧ (x.state.live = true → ¬ s.requiredRecording.Tripped) := by
  refine ⟨(hinv.owned id x hget).1, (hinv.owned id x hget).2, fun hlive htrip => ?_⟩
  have hdead := (hinv.tripped htrip).2 id x hget
  cases hlive.symm.trans hdead

theorem serviceController_keeps (now : ℕ) (id : ControllerId) :
    Procedure.Moves (Keeps P) (serviceController now id : Step σ Unit) := by
  intro s
  unfold serviceController
  rw [Procedure.run_get_bind]
  cases hget : s.controllers.get id with
  | none => exact refl_of (Keeps P) s
  | some x =>
    have hx := fun hinv : Inv P s.core => registered hget hinv
    have hdrop : Keeps P s { s with controllers := s.controllers.remove id } := .micro rfl fun _ => .dropped
    dsimp only
    rw [Procedure.run_modify_bind, Procedure.run_get_bind]
    have hown : ∀ l', x.lease = some l' → ∃ l e, x.lease = some l ∧ l' = { l with expires := e } :=
      fun l' hl' => ⟨l', l'.expires, hl', rfl⟩
    by_cases hfail : (x.state.live && ({ s with controllers := s.controllers.remove id } : Runtime σ).mustFail x now) = true
    · rw [if_pos hfail]
      have hfact : ∀ (s₁ : Runtime σ) (y : NativeController), Keeps P s₁ { s₁ with
          recordingFacts := s₁.recordingFacts.controller id y.state y.configRevision none now } :=
        fun s₁ y => SameCore.keeps rfl
      by_cases hwarm : x.state = .warming
      · rw [if_neg (not_not.2 hwarm), if_pos hwarm]
        exact Keeps.store (x := x) (y := { x with state := .failed }) (trans_of (Keeps P) hdrop (hfact _ _))
          (fun hinv => ⟨(hx hinv).1, (hx hinv).2.1, fun hlive => by cases hlive⟩) rfl hown
      · rw [if_pos hwarm, if_neg hwarm]
        have hignored := ignoring_moves (failController_keeps (P := P) x now) { s with controllers := s.controllers.remove id }
        obtain ⟨e, s₁, hrun, heq⟩ | ⟨u, s₁, hrun, heq⟩ := Procedure.bind_cases (ignoring (failController x now)) _
          ({ s with controllers := s.controllers.remove id } : Runtime σ)
        · rw [hrun] at hignored
          rw [heq]
          exact trans_of (Keeps P) hdrop hignored
        · rw [hrun] at hignored
          rw [heq]
          exact Keeps.store (x := x) (y := x.fail) (trans_of (Keeps P) (trans_of (Keeps P) hdrop hignored) (hfact _ _))
            (fun hinv => ⟨(hx hinv).1, (hx hinv).2.1, fun hlive => by cases hlive⟩) rfl fun l' hl' => by cases hl'
    · rw [if_neg hfail]
      exact Keeps.store (x := x) (y := x) hdrop hx rfl hown

/-- What is owed a safe send has nothing pending. -/
theorem safePending_unqueued (hinv : Inv P s.core) (h : k ∈ s.safePending) : s.Unqueued k := by
  intro a hget
  unfold safePending at h
  obtain ⟨⟨k', a'⟩, hentry, hk⟩ := List.mem_map.1 h
  obtain ⟨hmem, hpending⟩ := List.mem_filter.1 hentry
  obtain rfl : k' = k := hk
  obtain rfl : a' = a := Option.some.inj (((OrderedMap.mem_entries _).1 hmem).symm.trans hget)
  have hwf := (hinv.wf _ _ hget).1
  have hstate : a'.permission.state = .safePending := by
    simp only [Bool.and_eq_true, beq_iff_eq] at hpending
    exact hpending.1
  exact hwf.unqueued (hwf.unarmed (by rw [hstate]; rfl))

/-- No output gets something pending that had nothing. -/
def Drains (s s' : Runtime σ) : Prop := ∀ k, s.Unqueued k → s'.Unqueued k

instance : Std.Refl (Drains (σ := σ)) := ⟨fun _ _ h => h⟩

instance : IsTrans (Runtime σ) Drains := ⟨fun _ _ _ h h' k hk => h' k (h k hk)⟩

theorem Drains.of_same {s s' : Runtime σ} (h : s'.outputs = s.outputs) : Drains s s' := fun _k hk a ha => hk a (h ▸ ha)

theorem settle_drains {α : Type} {o : Outcome α} {call : AuthorityCall} (hget : s.outputs.get k = some a)
    (after : o.2 = a.step call) (hop : ∀ proposal, call.op ≠ .command (.propose proposal)) :
    Drains s ((settle k o).run s).2 := by
  rw [settle_snd]
  intro k' hk' b hb
  obtain ⟨rfl, rfl⟩ | hold := OrderedMap.get_insert_cases _ hb
  · refine Option.eq_none_iff_forall_ne_some.2 fun q hq => ?_
    have hold := Core.pending_kept (congrArg OutputAuthority.permission after) hq fun proposal h => absurd h (hop proposal)
    cases (hk' a hget).symm.trans hold
  · exact hk' b hold

theorem completeSimulatedSafe_drains (k : ActuatorId) (now : ℕ) :
    Procedure.Moves Drains (completeSimulatedSafe k now : Step σ Unit) := by
  have hbegin : Procedure.Moves Drains (beginSimulated k now : Step σ Dispatch) := by
    intro s
    unfold beginSimulated
    rw [Procedure.run_get_bind]
    cases hget : s.outputs.get k with
    | none => exact refl_of Drains s
    | some a =>
      refine Procedure.Moves.bind_from (settle_drains hget (rfl : _ = a.step ⟨.command .beginDispatch, now⟩)
        fun proposal h => by cases h) fun result => ?_
      cases result with
      | dispatched dispatch =>
        exact .bind .get fun s => .bind (.update fun s => Drains.of_same rfl) fun _ => .pure _
      | _ => exact .stop _
  have hfact : ∀ f, Procedure.Moves Drains (record f : Step σ PUnit) := fun f => .update fun s => Drains.of_same rfl
  refine .bind hbegin fun dispatch => .bind .get fun s => .bind (hfact _) fun _ => .bind ?_ fun _ => .bind ?_ fun _ =>
    hfact _
  · exact (applyVirtualDispatch_same k dispatch.value).mono fun s s' h => Drains.of_same (congrArg Core.outputs h)
  · intro s
    unfold onOutput
    rw [Procedure.run_get_bind]
    cases hget : s.outputs.get k with
    | none => exact refl_of Drains s
    | some a =>
      exact settle_drains hget (rfl : _ = a.step ⟨.command (.complete dispatch.id .readbackVerified), now⟩)
        fun proposal h => by cases h

/-- One safe send leaves nothing pending at the others, so they go on. -/
theorem simulatedSafe_keeps (now : ℕ) (ks : List ActuatorId) (h : ∀ k ∈ ks, s.Unqueued k) :
    Keeps P s ((Procedure.forEach ks fun k => ignoring (completeSimulatedSafe k now)).run s).2 := by
  induction ks generalizing s with
  | nil => exact refl_of (Keeps P) s
  | cons k ks ih =>
    rw [Procedure.forEach_cons]
    have hfirst : Keeps P s ((ignoring (completeSimulatedSafe k now)).run s).2 := by
      rw [ignoring_snd]
      exact completeSimulatedSafe_keeps now (h k List.mem_cons_self)
    have hdrains := ignoring_moves (completeSimulatedSafe_drains k now) s
    refine Procedure.Moves.bind_at hfirst fun u s₁ hrun => ih fun k' hk' => ?_
    rw [hrun] at hdrains
    exact hdrains k' (h k' (List.mem_cons_of_mem _ hk'))

/-- The part of the safety service before the poll. -/
theorem serviceSafety_evolves (A : ByteTransport σ) (now : ℕ) : Procedure.Moves (Evolves P) (serviceSafety A now : Step σ Unit) := by
  refine .bind (.update fun s => serviceRequiredRecordingDeadline_evolves s now) fun _ =>
    .bind (moves_evolves (checkOutputTime_keeps now)) fun _ => .bind .get fun s =>
      .bind (moves_evolves (.forEach fun id _ => serviceController_keeps now id)) fun _ => fun s hinv => ?_
  rw [Procedure.run_get_bind]
  refine Procedure.Moves.bind_from (R := Evolves P) ?_ (fun _ => .bind .get fun s =>
    .bind (moves_evolves (.forEach fun output _ => ignoring_moves (queueMetakonOutput_keeps _ _ _ _))) fun _ =>
      pollTransports_evolves A now) hinv
  refine (simulatedSafe_keeps now _ fun k hk => ?_).2
  exact safePending_unqueued hinv (List.mem_filter.1 hk).1

end LabRuntime.Runtime
